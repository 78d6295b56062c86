import EvoclawPluginWechat.Core.PoolStart
import EvoclawPluginWechat.Library.Runs

/-!
What `BridgePool::spawn` finds out. It succeeds where every worker was still alive when the
grace after the last spawn was over; where it fails, it names the first worker that was not,
with the last lines of its stderr.
-/
namespace EvoclawPluginWechat
namespace PoolStart
open Transition
variable {args : Args} {now : Int} {as : List Act} {s s' : PoolStart} {a : Act}

/-- The run takes the step in this state. -/
def Took (args : Args) (now : Int) (as : List Act) (a : Act) (m : PoolStart) : Prop :=
  TakesIn (step args) anyStep (begin args now) as a m

/-- All workers have been up for the grace by that time. -/
def Rested (args : Args) (now : Int) (as : List Act) (limit : Int) : Prop :=
  ∃ pre post m, as = pre ++ post ∧ Run (step args) anyStep (begin args now) pre m ∧
    m.bridges.length = args.count ∧ m.now + args.startupGraceMs * 1000000 ≤ limit

/-- The start-up looked at the slot, after the grace, and saw whether its bridge was alive. -/
def Seen (args : Args) (now : Int) (as : List Act) (idx : Nat) (alive : Bool) : Prop :=
  ∃ m b, Took args now as .check m ∧ m.phase = .checking idx ∧ m.bridges[idx]? = some b ∧
    b.alive = alive ∧ Rested args now as m.now

/-- Then it read the ring of the slot's bridge, whose stderr task had read these lines. -/
def Diagnosed (args : Args) (now : Int) (as : List Act) (idx : Nat) (lines : List String) : Prop :=
  ∃ m b, Took args now as .diagnose m ∧ m.phase = .diagnosing idx ∧ m.bridges[idx]? = some b ∧
    b.stderr = lines

def Refused (args : Args) (now : Int) (as : List Act) (idx : Nat) (text : String) : Prop :=
  ∃ m, Took args now as (.spawnErr text) m ∧ m.phase = .spawning ∧ m.bridges.length = idx

/-- What the start-up reports, if it fails. -/
inductive Blames (args : Args) (now : Int) (as : List Act) : PluginError → Prop
  | empty : args.count = 0 → Blames args now as (.config "BridgePool count must be >= 1")
  | refused {idx : Nat} {text : String} : idx < args.count → Refused args now as idx text →
      Blames args now as (workerError args idx text)
  | died {idx : Nat} {lines : List String} : idx < args.count →
      (∀ j < idx, Seen args now as j true) → Seen args now as idx false →
      Diagnosed args now as idx lines →
      Blames args now as (diedError args idx (lines.rtake stderrRingCap))

theorem Rested.snoc {limit : Int} (h : Rested args now as limit) :
    Rested args now (as ++ [a]) limit := by
  obtain ⟨pre, post, m, rfl, rest⟩ := h
  exact ⟨pre, post ++ [a], m, List.append_assoc _ _ _, rest⟩

theorem Rested.later {t u : Int} (h : Rested args now as t) (le : t ≤ u) :
    Rested args now as u := by
  obtain ⟨pre, post, m, split, run, all, grace⟩ := h
  exact ⟨pre, post, m, split, run, all, Int.le_trans grace le⟩

theorem Seen.snoc {idx : Nat} {alive : Bool} (h : Seen args now as idx alive) :
    Seen args now (as ++ [a]) idx alive := by
  obtain ⟨m, b, took, phase, hb, found, rested⟩ := h
  exact ⟨m, b, took.snoc, phase, hb, found, rested.snoc⟩

theorem allSeen_snoc {k : Nat} (all : ∀ j < k, Seen args now as j true) :
    ∀ j < k, Seen args now (as ++ [a]) j true :=
  fun j hj => (all j hj).snoc

theorem Blames.snoc {e : PluginError} (h : Blames args now as e) :
    Blames args now (as ++ [a]) e := by
  cases h with
  | empty none => exact .empty none
  | refused below refused =>
      obtain ⟨m, took, rest⟩ := refused
      exact .refused below ⟨m, took.snoc, rest⟩
  | died below before dead diagnosed =>
      obtain ⟨m, b, took, rest⟩ := diagnosed
      exact .died below (allSeen_snoc before) dead.snoc ⟨m, b, took.snoc, rest⟩

def Known (args : Args) (now : Int) (as : List Act) (s : PoolStart) : PoolStartPhase → Prop
  | .spawning => s.bridges.length < args.count
  | .sleeping wakeAt => s.bridges.length = args.count ∧ 0 < args.count ∧ Rested args now as wakeAt
  | .checking idx => s.bridges.length = args.count ∧ 0 < args.count ∧ Rested args now as s.now ∧
      ∀ j < idx, Seen args now as j true
  | .diagnosing idx => idx < args.count ∧ (∀ j < idx, Seen args now as j true) ∧
      Seen args now as idx false
  | .returned (.ok ()) => s.bridges.length = args.count ∧ 0 < args.count ∧
      ∀ j < args.count, Seen args now as j true
  | .returned (.error e) => Blames args now as e

def Ringed (b : StartedBridge) : Prop := b.recentStderr = b.stderr.rtake stderrRingCap

structure Watched (args : Args) (now : Int) (as : List Act) (s : PoolStart) : Prop where
  rings : ∀ (idx : Nat) b, s.bridges[idx]? = some b → Ringed b
  known : Known args now as s s.phase

theorem Known.frame {phase : PoolStartPhase} (h : Known args now as s phase)
    (length : s'.bridges.length = s.bridges.length) (time : s.now ≤ s'.now) :
    Known args now (as ++ [a]) s' phase := by
  match phase, h with
  | .spawning, few => exact Nat.lt_of_le_of_lt length.le few
  | .sleeping _, ⟨all, pos, rested⟩ => exact ⟨length.trans all, pos, rested.snoc⟩
  | .checking _, ⟨all, pos, rested, alive⟩ =>
      exact ⟨length.trans all, pos, rested.snoc.later time, allSeen_snoc alive⟩
  | .diagnosing _, ⟨below, alive, dead⟩ => exact ⟨below, allSeen_snoc alive, dead.snoc⟩
  | .returned (.ok ()), ⟨all, pos, alive⟩ => exact ⟨length.trans all, pos, allSeen_snoc alive⟩
  | .returned (.error _), blames => exact Blames.snoc blames

theorem Watched.modify (hs : Watched args now as s) {idx : Nat}
    {f : StartedBridge → StartedBridge} (bridges : s'.bridges = s.bridges.modify idx f)
    (phase : s'.phase = s.phase) (time : s'.now = s.now) (ring : ∀ b, Ringed b → Ringed (f b)) :
    Watched args now (as ++ [a]) s' := by
  refine ⟨fun j b' hb' => ?_, ?_⟩
  · rw [bridges, List.getElem?_modify] at hb'
    obtain ⟨b, hb, rfl⟩ := Option.map_eq_some_iff.mp hb'
    have old := hs.rings j b hb
    split
    · exact ring b old
    · exact old
  · rw [phase]
    exact hs.known.frame (by rw [bridges, List.length_modify]) (Int.le_of_eq time.symm)

/-- The start-up itself goes on. -/
theorem Watched.goes (hs : Watched args now as s) {phase : PoolStartPhase}
    (known : Known args now (as ++ [a]) { s with phase } phase) :
    Watched args now (as ++ [a]) { s with phase } :=
  ⟨hs.rings, known⟩

theorem Watched.spawned (hs : Watched args now as s)
    (run : Run (step args) anyStep (begin args now) as s) (phase : s.phase = .spawning)
    (h : s.step args .spawnOk = some s') : Watched args now (as ++ [.spawnOk]) s' := by
  have known := hs.known
  rw [phase] at known
  have few : s.bridges.length < args.count := known
  have taken : Run (step args) anyStep (begin args now) (as ++ [.spawnOk]) s' :=
    run.append (.cons trivial h (.nil s'))
  have length : (s.bridges ++ [(⟨true, [], []⟩ : StartedBridge)]).length =
      s.bridges.length + 1 := List.length_append
  have rings : ∀ (idx : Nat) b, (s.bridges ++ [⟨true, [], []⟩])[idx]? = some b → Ringed b := by
    intro idx b hb
    obtain old | new := List.mem_append.mp (List.mem_of_getElem? hb)
    · obtain ⟨j, hj⟩ := List.getElem?_of_mem old
      exact hs.rings j b hj
    · obtain rfl := List.mem_singleton.mp new
      exact (List.rtake_nil _).symm
  simp only [step, phase] at h
  by_cases last : (s.bridges ++ [(⟨true, [], []⟩ : StartedBridge)]).length = args.count
  · simp only [last, if_true] at h
    cases h
    refine ⟨rings, last, by omega, _, [], _, (List.append_nil _).symm, taken, last, ?_⟩
    exact Int.le_refl _
  · simp only [last, if_false] at h
    cases h
    have more : (s.bridges ++ [(⟨true, [], []⟩ : StartedBridge)]).length < args.count := by
      omega
    exact ⟨rings, more⟩

theorem Watched.checked (hs : Watched args now as s)
    (run : Run (step args) anyStep (begin args now) as s) {idx : Nat}
    (phase : s.phase = .checking idx) (h : s.step args .check = some s') :
    Watched args now (as ++ [.check]) s' := by
  have known := hs.known
  rw [phase] at known
  obtain ⟨all, pos, rested, alive⟩ := known
  simp only [step, phase] at h
  split at h
  · next b hb =>
      have below : idx < args.count := all ▸ (List.getElem?_eq_some_iff.mp hb).1
      have now' : Seen args now (as ++ [.check]) idx b.alive :=
        ⟨s, b, run.takesIn trivial, phase, hb, rfl, rested.snoc⟩
      cases live : b.alive with
      | true =>
          rw [live, if_pos rfl] at h
          cases h
          refine hs.goes ⟨all, pos, rested.snoc, fun j hj => ?_⟩
          obtain before | rfl := Nat.lt_succ_iff_lt_or_eq.mp hj
          · exact allSeen_snoc alive j before
          · exact live ▸ now'
      | false =>
          rw [live, if_neg Bool.false_ne_true] at h
          cases h
          exact hs.goes ⟨below, allSeen_snoc alive, live ▸ now'⟩
  · next out =>
      cases h
      have above := all ▸ List.getElem?_eq_none_iff.mp out
      exact hs.goes ⟨all, pos, fun j hj => allSeen_snoc alive j (hj.trans_le above)⟩

theorem watched_step (hs : Watched args now as s)
    (run : Run (step args) anyStep (begin args now) as s) (h : s.step args a = some s') :
    Watched args now (as ++ [a]) s' := by
  have took : Took args now (as ++ [a]) a s := run.takesIn trivial
  have known := hs.known
  have taken := h
  cases a with
  | tick d =>
      cases h
      have later : s.now ≤ s.now + d := by omega
      exact ⟨hs.rings, hs.known.frame rfl later⟩
  | spawnOk =>
      simp only [step] at h
      split at h
      · next phase => exact hs.spawned run phase taken
      · cases h
  | spawnErr text =>
      simp only [step] at h
      split at h
      · next phase =>
          rw [phase] at known
          cases h
          exact hs.goes (.refused known ⟨s, took, phase, rfl⟩)
      · cases h
  | readStderr idx line =>
      simp only [step, Option.ite_none_right_eq_some, Option.some.injEq] at h
      obtain ⟨_, rfl⟩ := h
      refine hs.modify rfl rfl rfl fun b ring => ?_
      unfold Ringed at ring ⊢
      rw [ring]
      exact Ring.push_rtake (by decide) line
  | die idx =>
      simp only [step, Option.ite_none_right_eq_some, Option.some.injEq] at h
      obtain ⟨_, rfl⟩ := h
      exact hs.modify rfl rfl rfl fun _ ring => ring
  | wake =>
      simp only [step] at h
      split at h
      · next wakeAt phase =>
          rw [phase] at known
          obtain ⟨all, pos, rested⟩ := known
          split at h
          · next woken =>
              cases h
              exact hs.goes ⟨all, pos, rested.snoc.later woken,
                fun j hj => absurd hj (Nat.not_lt_zero j)⟩
          · cases h
      · cases h
  | check =>
      simp only [step] at h
      split at h
      · next idx phase => exact hs.checked run phase taken
      · cases h
  | diagnose =>
      simp only [step] at h
      split at h
      · next idx phase =>
          rw [phase] at known
          obtain ⟨below, alive, dead⟩ := known
          split at h
          · next b hb =>
              cases h
              have ring : b.recentStderr = b.stderr.rtake stderrRingCap := hs.rings idx b hb
              refine hs.goes ?_
              rw [ring]
              exact .died below (allSeen_snoc alive) dead.snoc ⟨s, b, took, phase, hb, rfl⟩
          · cases h
      · cases h

/-- The start-up succeeds where every worker is alive when the grace is over. Where it fails,
there is no worker to start, or one was refused, or it names the first worker that it found
dead after the grace, with the last lines of its stderr. -/
theorem pool_start_verdict {result : Except PluginError Unit}
    (run : Run (step args) anyStep (begin args now) as s) (ended : s.phase = .returned result) :
    (result = .ok () → s.bridges.length = args.count ∧ 0 < args.count ∧
      ∀ idx < args.count, Seen args now as idx true) ∧
    ∀ e, result = .error e → Blames args now as e := by
  have watched : Watched args now as s := by
    refine run.history (P := Watched args now) (fun bs m a m' hm before _ h => ?_) ?_
    · exact watched_step hm before h
    · refine ⟨fun idx b hb => by simp [begin] at hb, ?_⟩
      rcases Nat.eq_zero_or_pos args.count with none | pos
      · rw [begin, poolSize, if_pos none]
        exact .empty none
      · rw [begin, poolSize, if_neg pos.ne']
        exact pos
  have known := watched.known
  rw [ended] at known
  refine ⟨?_, ?_⟩
  · rintro rfl
    exact known
  · rintro e rfl
    exact known

def twoWorkers : Args := ⟨"evoclaw", 2, 2000⟩

/-- The second of two workers does not know a flag; the first one is up. -/
def secondDies : List Act :=
  [.spawnOk, .spawnOk, .readStderr 1 "error: unexpected argument '--fast'", .die 1,
    .tick 2000000000, .wake, .check, .check, .diagnose]

theorem pool_start_verdict_second_dies : ∃ s : PoolStart,
    exec (step twoWorkers) (begin twoWorkers 0) secondDies = some s ∧
      s.phase = .returned (.error (diedError twoWorkers 1
        ["error: unexpected argument '--fast'"])) ∧
      Blames twoWorkers 0 secondDies
        (diedError twoWorkers 1 ["error: unexpected argument '--fast'"]) := by
  obtain ⟨s, hrun, ended⟩ : ∃ s, exec (step twoWorkers) (begin twoWorkers 0) secondDies = some s ∧
      s.phase = .returned (.error (diedError twoWorkers 1
        ["error: unexpected argument '--fast'"])) := ⟨_, rfl, rfl⟩
  exact ⟨s, hrun, ended, (pool_start_verdict (run_iff_exec.mpr hrun) ended).2 _ rfl⟩

end PoolStart
end EvoclawPluginWechat
