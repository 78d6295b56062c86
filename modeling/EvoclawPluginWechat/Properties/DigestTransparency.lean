import EvoclawPluginWechat.Properties.DigestFreshness

/-!
The digest cache against a reader that opens the files at every call. As long as the mtime of
the meta file tells one digest from another, the two differ in one case: a digest that was
young when it was loaded and has grown too old is still served from memory.
-/
namespace EvoclawPluginWechat
namespace DigestRun
open Transition DigestCache

/-- What a call returns now that has nothing in memory. -/
def uncached (cfg : DigestCfg) (s : DigestRun) : Option DigestSnapshot :=
  (DigestCache.new.snapshot cfg s.files s.now).1

/-- The digest behind the files is the one of their mtime. -/
def Dated (content : Int → Option DigestSnapshot) (files : DigestFiles) : Prop :=
  ∀ mtime, stat files = some mtime → loadFromDisk files = content mtime

def publishesDated (content : Int → Option DigestSnapshot) (_ : DigestRun) : Act → Prop
  | .publish files => Dated content files
  | _ => True

/-- A call of the run was answered by the files, and with this digest. -/
def ReadOnTheWay (cfg : DigestCfg) (start : DigestRun) (as : List Act) (mtime : Int)
    (snap : DigestSnapshot) : Prop :=
  ∃ pre m post, as = pre ++ .snapshot :: post ∧ Run (step cfg) anyStep start pre m ∧
    stat m.files = some mtime ∧ m.uncached cfg = some snap

/-- What is in memory is the digest of its mtime and was read on the way. -/
structure Mirrors (cfg : DigestCfg) (content : Int → Option DigestSnapshot) (start : DigestRun)
    (as : List Act) (s : DigestRun) : Prop where
  files : Dated content s.files
  memory : ∀ mtime snap, s.cache.cacheHit mtime = some snap →
    content mtime = some snap ∧ ReadOnTheWay cfg start as mtime snap

variable {cfg : DigestCfg} {content : Int → Option DigestSnapshot} {start s s' : DigestRun}
  {as : List Act} {snap : DigestSnapshot}

theorem uncached_eq_some : s.uncached cfg = some snap ↔ cfg.enabled = true ∧ ∃ mtime,
    stat s.files = some mtime ∧ loadFromDisk s.files = some snap ∧
      admits cfg s.now mtime snap = true := by
  rw [uncached, snapshot]
  cases on : cfg.enabled with
  | false => simp
  | true =>
      cases hm : stat s.files with
      | none => simp
      | some mtime =>
          have empty : DigestCache.new.cacheHit mtime = none := rfl
          cases hl : loadFromDisk s.files with
          | none => simp [empty]
          | some loaded =>
              cases ha : admits cfg s.now mtime loaded with
              | false =>
                  simp only [empty, ha]
                  constructor
                  · intro h
                    cases h
                  · rintro ⟨_, _, ⟨⟩, ⟨⟩, h⟩
                    cases ha.symm.trans h
              | true =>
                  simp only [empty, ha]
                  constructor
                  · intro h
                    cases h
                    exact ⟨trivial, mtime, rfl, rfl, ha⟩
                  · rintro ⟨_, _, ⟨⟩, ⟨⟩, _⟩
                    rfl

theorem served_of_miss {mtime : Int} (hm : stat s.files = some mtime)
    (missed : s.cache.cacheHit mtime = none) : s.served cfg = s.uncached cfg := by
  have empty : DigestCache.new.cacheHit mtime = none := rfl
  rw [served, uncached, snapshot, snapshot, hm]
  dsimp only
  rw [missed, empty]
  cases loadFromDisk s.files with
  | none => split <;> rfl
  | some snap =>
      dsimp only
      cases admits cfg s.now mtime snap <;> split <;> rfl

theorem served_of_hit {mtime : Int} (hm : stat s.files = some mtime)
    (hit : s.cache.cacheHit mtime = some snap) :
    s.served cfg = if cfg.enabled then some snap else none := by
  rw [served, snapshot, hm]
  dsimp only
  rw [hit]
  split <;> rfl

theorem ReadOnTheWay.snoc {a : Act} {mtime : Int} (h : ReadOnTheWay cfg start as mtime snap) :
    ReadOnTheWay cfg start (as ++ [a]) mtime snap := by
  obtain ⟨pre, m, post, rfl, run, found⟩ := h
  exact ⟨pre, m, post ++ [a], by simp, run, found⟩

theorem mirrors_step {a : Act} (run : Run (step cfg) anyStep start as s)
    (hs : Mirrors cfg content start as s) (allowed : publishesDated content s a)
    (h : s.step cfg a = some s') : Mirrors cfg content start (as ++ [a]) s' := by
  have kept : ∀ mtime snap, s.cache.cacheHit mtime = some snap →
      content mtime = some snap ∧ ReadOnTheWay cfg start (as ++ [a]) mtime snap := by
    intro mtime snap hit
    obtain ⟨which, way⟩ := hs.memory mtime snap hit
    exact ⟨which, way.snoc⟩
  cases a with
  | publish files =>
      cases h
      exact ⟨allowed, kept⟩
  | tick d =>
      cases h
      exact ⟨hs.files, kept⟩
  | snapshot =>
      cases h
      refine ⟨hs.files, ?_⟩
      dsimp only
      obtain same | ⟨_, _, _, _, _, same⟩ | ⟨mtime, snap, hm, missed, _, loaded⟩ :=
        snapshot_cases cfg s.cache s.files s.now
      · rw [same]
        exact kept
      · rw [same]
        exact kept
      · rw [loaded]
        intro mtime' snap' hit
        simp only [cacheHit, Option.ite_none_right_eq_some, Option.some.injEq] at hit
        obtain ⟨rfl, rfl⟩ := hit
        have found : s.uncached cfg = some snap := by
          rw [← served_of_miss hm missed, served, loaded]
        obtain ⟨_, mtime', hm', disk, _⟩ := uncached_eq_some.mp found
        obtain rfl := Option.some.inj (hm.symm.trans hm')
        exact ⟨(hs.files mtime hm).symm.trans disk, as, s, [], rfl, run, hm, found⟩

/-- Where the mtime tells the digests apart, the cache is transparent but for its age: what the
files would give now is served, and what is served the files give now, or did so at an earlier
call of the run before the digest grew too old. -/
theorem served_as_uncached (fresh : start.cache = .new) (dated : Dated content start.files)
    (run : Run (step cfg) (publishesDated content) start as s) :
    (∀ snap, s.uncached cfg = some snap → s.served cfg = some snap) ∧
      ∀ snap, s.served cfg = some snap → s.uncached cfg = some snap ∨
        s.AgedInMemory cfg ∧ ∃ mtime, stat s.files = some mtime ∧
          ReadOnTheWay cfg start as mtime snap := by
  have hs : Mirrors cfg content start as s := by
    refine run.history (P := Mirrors cfg content start)
      (fun bs m a m' hm before allowed h => ?_) ⟨dated, fun mtime snap hit => ?_⟩
    · exact mirrors_step (before.mono fun _ _ _ => trivial) hm allowed h
    · rw [fresh] at hit
      cases hit
  constructor
  · intro snap found
    obtain ⟨on, mtime, hm, disk, _⟩ := uncached_eq_some.mp found
    cases hit : s.cache.cacheHit mtime with
    | none => rw [served_of_miss hm hit, found]
    | some snap' =>
        obtain ⟨which, _⟩ := hs.memory mtime snap' hit
        rw [served_of_hit hm hit, if_pos on, ← disk, hs.files mtime hm, which]
  · intro snap served
    cases hm : stat s.files with
    | none =>
        rw [DigestRun.served, snapshot, hm] at served
        split at served <;> cases served
    | some mtime =>
        cases hit : s.cache.cacheHit mtime with
        | none => exact .inl ((served_of_miss hm hit).symm.trans served)
        | some snap' =>
            rw [served_of_hit hm hit, Option.ite_none_right_eq_some] at served
            obtain ⟨on, ⟨⟩⟩ := served
            obtain ⟨which, way⟩ := hs.memory mtime snap hit
            have disk := (hs.files mtime hm).trans which
            by_cases young : s.YoungFile cfg mtime
            · obtain ⟨_, m, _, _, _, hm', found⟩ := way
              obtain ⟨_, mtime', hm'', _, admitted⟩ := uncached_eq_some.mp found
              obtain rfl := Option.some.inj (hm'.symm.trans hm'')
              refine .inl (uncached_eq_some.mpr ⟨on, mtime, hm, disk, ?_⟩)
              simp only [admits, Bool.and_eq_true, Bool.not_eq_true'] at admitted ⊢
              exact ⟨admitted.1, stale_eq_false_iff.mpr young⟩
            · simp only [cacheHit, Option.ite_none_right_eq_some] at hit
              exact .inr ⟨⟨mtime, hm, hit.1, young⟩, mtime, rfl, way⟩

/-- A digest of the day before: the files would not give it any more. -/
theorem served_as_uncached_next_day : ∃ snap,
    (emptyDigestInMemory 90000).served dailyCfg = some snap ∧
      (emptyDigestInMemory 90000).uncached dailyCfg = none ∧
      ReadOnTheWay dailyCfg ⟨.new, emptyDigest, 0⟩ [.snapshot, .tick (Duration.fromSecs 90000)] 0
        snap := by
  have whole : Run (step dailyCfg) anyStep ⟨.new, emptyDigest, 0⟩
      [.snapshot, .tick (Duration.fromSecs 90000)] (emptyDigestInMemory 90000) := by
    refine run_iff_exec.mpr (Eq.trans rfl (congrArg some ?_))
    exact congrArg (DigestRun.mk _ _) (Int.zero_add _)
  have dated : Dated (fun _ => loadFromDisk emptyDigest) emptyDigest := fun _ _ => rfl
  have run : Run (step dailyCfg) (publishesDated fun _ => loadFromDisk emptyDigest)
      ⟨.new, emptyDigest, 0⟩ [.snapshot, .tick (Duration.fromSecs 90000)]
      (emptyDigestInMemory 90000) :=
    whole.guard fun a ha _ => by
      rcases ha with _ | ⟨_, _ | ⟨_, ⟨⟩⟩⟩ <;> trivial
  have none : (emptyDigestInMemory 90000).uncached dailyCfg = none := by
    rw [Option.eq_none_iff_forall_ne_some]
    intro snap found
    obtain ⟨_, mtime, hm, _, admitted⟩ := uncached_eq_some.mp found
    obtain rfl : 0 = mtime := Option.some.inj hm
    simp only [admits, Bool.and_eq_true, Bool.not_eq_true'] at admitted
    have old : stale dailyCfg (emptyDigestInMemory 90000).now 0 = true := by decide
    cases old.symm.trans admitted.2
  refine ⟨_, rfl, none, ?_⟩
  obtain now | ⟨_, mtime, hm, way⟩ := (served_as_uncached rfl dated run).2 _ rfl
  · cases none.symm.trans now
  · obtain rfl : 0 = mtime := Option.some.inj hm
    exact way

end DigestRun
end EvoclawPluginWechat
