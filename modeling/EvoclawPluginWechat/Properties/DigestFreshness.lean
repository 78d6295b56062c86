import EvoclawPluginWechat.Core.DigestCache
import EvoclawPluginWechat.Library.Runs

/-!
Freshness of the served digest over whole runs. The age of the meta file is
tested when a snapshot is loaded; the fast path returns the loaded snapshot
without looking at the clock.
-/
namespace EvoclawPluginWechat
namespace DigestRun
open Transition DigestCache

/-- The meta file is at most `max_age_secs` whole seconds old. -/
def YoungFile (cfg : DigestCfg) (s : DigestRun) (mtime : Int) : Prop :=
  (s.now - mtime) / 1000000000 ≤ cfg.maxAgeSecs

/-- What a call returns now, it returns of a young file. -/
def ServesFresh (cfg : DigestCfg) (s : DigestRun) : Prop :=
  ∀ snap mtime, s.served cfg = some snap → stat s.files = some mtime → s.YoungFile cfg mtime

/-- The meta file is the one last loaded and has grown too old since. -/
def AgedInMemory (cfg : DigestCfg) (s : DigestRun) : Prop :=
  ∃ mtime, stat s.files = some mtime ∧ s.cache.lastMtime = some mtime ∧
    ¬ s.YoungFile cfg mtime

/-- A remembered mtime comes with the snapshot loaded for it. -/
def Stocked (c : DigestCache) : Prop := c.lastMtime.isSome → c.inner.isSome

theorem stale_eq_false_iff {cfg : DigestCfg} {now mtime : Int} :
    stale cfg now mtime = false ↔ (now - mtime) / 1000000000 ≤ cfg.maxAgeSecs := by
  simp only [stale, Bool.and_eq_false_iff, decide_eq_false_iff_not]
  omega

theorem snapshot_cases (cfg : DigestCfg) (c : DigestCache) (files : DigestFiles) (now : Int) :
    c.snapshot cfg files now = (none, c) ∨
      (∃ mtime snap, cfg.enabled = true ∧ stat files = some mtime ∧
        c.cacheHit mtime = some snap ∧ c.snapshot cfg files now = (some snap, c)) ∨
      ∃ mtime snap, stat files = some mtime ∧ c.cacheHit mtime = none ∧
        stale cfg now mtime = false ∧
        c.snapshot cfg files now = (some snap, ⟨some snap, some mtime⟩) := by
  cases he : cfg.enabled with
  | false => exact .inl (by simp [snapshot, he])
  | true =>
      cases hm : stat files with
      | none => exact .inl (by simp [snapshot, he, hm])
      | some mtime =>
          cases hc : c.cacheHit mtime with
          | some snap =>
              exact .inr (.inl ⟨mtime, snap, rfl, rfl, hc, by simp [snapshot, he, hm, hc]⟩)
          | none =>
              cases hl : loadFromDisk files with
              | none => exact .inl (by simp [snapshot, he, hm, hc, hl])
              | some snap =>
                  cases ha : admits cfg now mtime snap with
                  | false => exact .inl (by simp [snapshot, he, hm, hc, hl, ha])
                  | true =>
                      refine .inr (.inr ⟨mtime, snap, rfl, hc, ?_, by
                        simp [snapshot, he, hm, hc, hl, ha]⟩)
                      simp only [admits, Bool.and_eq_true, Bool.not_eq_true'] at ha
                      exact ha.2

theorem stocked_step {cfg : DigestCfg} {s s' : DigestRun} (h : Stocked s.cache) (a : Act)
    (hs : s.step cfg a = some s') : Stocked s'.cache := by
  cases a with
  | publish files => cases hs; exact h
  | tick d => cases hs; exact h
  | snapshot =>
      cases hs
      change Stocked (s.cache.snapshot cfg s.files s.now).2
      obtain same | ⟨_, _, _, _, _, same⟩ | ⟨_, _, _, _, _, loaded⟩ :=
        snapshot_cases cfg s.cache s.files s.now
      · rw [same]; exact h
      · rw [same]; exact h
      · rw [loaded]; exact fun _ => rfl

theorem stocked_reachable {cfg : DigestCfg} {s : DigestRun}
    (h : Reachable (step cfg) anyStep (·.cache = .new) s) : Stocked s.cache := by
  refine h.invariant (P := fun s => Stocked s.cache) ?_ (fun _ a _ hs _ => stocked_step hs a)
  intro s fresh
  rw [fresh]
  intro h
  cases h

/-- Through any changes of the files, any advance of the clock and any earlier calls:
the next call serves of a young file exactly when it does not find the file it last
loaded, grown too old in the meantime. -/
theorem servesFresh_iff_not_aged {cfg : DigestCfg} {s : DigestRun}
    (h : Reachable (step cfg) anyStep (·.cache = .new) s) (enabled : cfg.enabled = true) :
    s.ServesFresh cfg ↔ ¬ s.AgedInMemory cfg := by
  refine ⟨fun fresh aged => ?_, fun notAged snap mtime hserved hm => ?_⟩
  · obtain ⟨mtime, hm, hlast, old⟩ := aged
    have stocked := stocked_reachable h (by rw [hlast]; rfl)
    obtain ⟨snap, hinner⟩ := Option.isSome_iff_exists.mp stocked
    have hit : s.served cfg = some snap := by
      simp [served, snapshot, enabled, hm, cacheHit, hlast, hinner]
    exact old (fresh snap mtime hit hm)
  · obtain refused | ⟨mtime', _, _, hm', hit, _⟩ | ⟨mtime', _, hm', _, young, _⟩ :=
      snapshot_cases cfg s.cache s.files s.now
    · rw [served, refused] at hserved
      cases hserved
    · obtain rfl := Option.some.inj (hm.symm.trans hm')
      by_contra old
      refine notAged ⟨mtime, hm, ?_, old⟩
      simp only [cacheHit, Option.ite_none_right_eq_some] at hit
      exact hit.1
    · obtain rfl := Option.some.inj (hm.symm.trans hm')
      exact stale_eq_false_iff.mp young

def dailyCfg : DigestCfg := ⟨true, 86400⟩

def emptyDigest : DigestFiles :=
  ⟨some ⟨some 0, some ⟨1, "2026-05-16T00:00:00Z", []⟩⟩, some ⟨1, []⟩⟩

/-- The digest was loaded when it was written; the clock has moved on. -/
def emptyDigestInMemory (secs : Nat) : DigestRun :=
  ⟨⟨some ⟨⟨1, "2026-05-16T00:00:00Z", []⟩, ⟨1, []⟩⟩, some 0⟩, emptyDigest,
    Duration.fromSecs secs⟩

theorem emptyDigestInMemory_reachable (secs : Nat) :
    Reachable (step dailyCfg) anyStep (·.cache = .new) (emptyDigestInMemory secs) := by
  refine ⟨⟨.new, emptyDigest, 0⟩, [.snapshot, .tick (Duration.fromSecs secs)], rfl, ?_⟩
  refine run_iff_exec.mpr (Eq.trans rfl (congrArg some ?_))
  exact congrArg (DigestRun.mk _ _) (Int.zero_add _)

/-- Ten hours after it was loaded the digest is still served, and still young. -/
theorem servesFresh_iff_not_aged_ten_hours :
    (emptyDigestInMemory 36000).ServesFresh dailyCfg := by
  refine (servesFresh_iff_not_aged (emptyDigestInMemory_reachable 36000) rfl).mpr ?_
  intro ⟨mtime, hm, _, old⟩
  obtain rfl : 0 = mtime := Option.some.inj hm
  exact old (by simp only [YoungFile]; decide)

/-- Twenty-five hours after it was written the digest is served from memory. -/
theorem serves_stale_from_memory :
    ∃ s snap, Reachable (step dailyCfg) anyStep (·.cache = .new) s ∧ stat s.files = some 0 ∧
      s.served dailyCfg = some snap ∧ ¬ s.YoungFile dailyCfg 0 :=
  ⟨emptyDigestInMemory 90000, _, emptyDigestInMemory_reachable 90000, rfl, rfl, by
    simp only [YoungFile]; decide⟩

end DigestRun
end EvoclawPluginWechat
