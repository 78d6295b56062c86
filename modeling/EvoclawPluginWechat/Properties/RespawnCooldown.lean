import EvoclawPluginWechat.Properties.CheckoutCoverage

/-!
The respawn cooldown. A failed spawn stops every call that has yet to test the
cooldown; a call that is already past the test goes on to spawn. So the cooldown
holds after a failure exactly when no call is past the test at that moment.
-/
namespace EvoclawPluginWechat
namespace PoolRun
open Transition BridgePool

variable {n : Nat} [NeZero n] {ι : Type} [DecidableEq ι]

/-- No call is in flight and no slot is locked. -/
def Idle (s : PoolRun n ι) : Prop := (∀ c, s.pool.calls c = none) ∧ ∀ idx, s.pool.writer idx = none

/-- The call has passed the cooldown test and not started its spawn yet. -/
def pastTest : CheckoutPhase n → Bool
  | .writeWait _ _ | .locked _ _ => true
  | _ => false

def PastTest (s : PoolRun n ι) (c : ι) : Prop :=
  ∃ phase, s.pool.calls c = some phase ∧ pastTest phase = true

def StartsSpawn (s : PoolRun n ι) (c : ι) : Prop := s.pool.StartsSpawn s.alive c

/-- No spawn starts before the cooldown after `t` is over, in any continuation. -/
def BlocksSpawns (s : PoolRun n ι) (t : Int) : Prop :=
  ∀ as s' c, Run step anyStep s as s' → s'.StartsSpawn c → t + respawnCooldown ≤ s'.now

theorem locked_reachable {s : PoolRun n ι} (h : Reachable step anyStep Idle s) :
    Locked s.pool := by
  refine h.invariant (P := fun s => Locked s.pool) ?_ ?_
  · intro s idle idx c
    rw [idle.2 idx, held, idle.1 c]
    simp
  · intro s a s' hl _ hs
    cases a with
    | pool a => exact locked_move hl (move_of_pool_step hs)
    | die b => cases hs; exact hl
    | tick d => cases hs; exact hl

/-- What holds from a failure at `t` on when nobody was past the test then. -/
structure Cooling (t now : Int) (p : BridgePool n ι) : Prop where
  later : t ≤ now
  marked : ∃ u, p.lastRespawnFailedAt = some u ∧ t ≤ u
  nobody : now < t + respawnCooldown → ∀ c phase, p.calls c = some phase →
    pastTest phase = false

omit [NeZero n] in
theorem Cooling.update {t now : Int} {p : BridgePool n ι} (h : Cooling t now p) (c : ι)
    {phase : CheckoutPhase n} (hp : now < t + respawnCooldown → pastTest phase = false)
    (soon : now < t + respawnCooldown) (c' : ι) (phase' : CheckoutPhase n)
    (hc : Function.update p.calls c (some phase) c' = some phase') : pastTest phase' = false := by
  by_cases same : c' = c
  · rw [same, Function.update_self] at hc
    obtain rfl := Option.some.inj hc
    exact hp soon
  · rw [Function.update_of_ne same] at hc
    exact h.nobody soon c' phase' hc

theorem cooling_move {alive : BridgeId → Bool} {t now : Int} {p p' : BridgePool n ι}
    {a : BridgePool.Act ι} (h : Cooling t now p) (m : Move alive now p a p') :
    Cooling t now p' := by
  cases m with
  | passTest _ out =>
      obtain ⟨u, hu, htu⟩ := h.marked
      have expired : t + respawnCooldown ≤ now := by
        simp only [inRespawnCooldown, hu, decide_eq_false_iff_not] at out
        omega
      exact ⟨h.later, ⟨u, hu, htu⟩, h.update _ fun soon => absurd expired (by omega)⟩
  | lock hc _ =>
      exact ⟨h.later, h.marked, h.update _ fun soon => absurd (h.nobody soon _ _ hc) (by
        simp [pastTest])⟩
  | mark _ => exact ⟨h.later, ⟨now, rfl, h.later⟩, h.update _ fun _ => rfl⟩
  | call _ => exact ⟨h.later, h.marked, h.update _ fun _ => rfl⟩
  | draw _ => exact ⟨h.later, h.marked, h.update _ fun _ => rfl⟩
  | readLive _ _ => exact ⟨h.later, h.marked, h.update _ fun _ => rfl⟩
  | readDead _ _ => exact ⟨h.later, h.marked, h.update _ fun _ => rfl⟩
  | skip _ => exact ⟨h.later, h.marked, h.update _ fun _ => rfl⟩
  | recheckLive _ => exact ⟨h.later, h.marked, h.update _ fun _ => rfl⟩
  | startSpawn _ => exact ⟨h.later, h.marked, h.update _ fun _ => rfl⟩
  | spawnOk _ => exact ⟨h.later, h.marked, h.update _ fun _ => rfl⟩
  | spawnErr _ => exact ⟨h.later, h.marked, h.update _ fun _ => rfl⟩
  | giveUp _ => exact ⟨h.later, h.marked, h.update _ fun _ => rfl⟩
  | cancelRead _ => exact ⟨h.later, h.marked, h.update _ fun _ => rfl⟩
  | cancelWrite _ => exact ⟨h.later, h.marked, h.update _ fun _ => rfl⟩

theorem now_of_pool_step {s s' : PoolRun n ι} {a : BridgePool.Act ι}
    (h : s.step (.pool a) = some s') : s'.now = s.now := by
  obtain ⟨p, _, rfl⟩ := Option.map_eq_some_iff.mp h
  rfl

theorem cooling_step {s s' : PoolRun n ι} {t : Int} (h : Cooling t s.now s.pool) (a : Act ι)
    (hs : s.step a = some s') : Cooling t s'.now s'.pool := by
  cases a with
  | pool a =>
      rw [now_of_pool_step hs]
      exact cooling_move h (move_of_pool_step hs)
  | die b => cases hs; exact h
  | tick d =>
      cases hs
      have later := h.later
      refine ⟨?_, h.marked, fun soon => h.nobody ?_⟩
      · change t ≤ s.now + (d : Int)
        omega
      · change s.now + (d : Int) < _ at soon
        omega

theorem blocks_of_cooling {s : PoolRun n ι} {t : Int} (h : Cooling t s.now s.pool) :
    s.BlocksSpawns t := by
  intro as s' c run starts
  have cooling := run.invariant (P := fun s => Cooling t s.now s.pool)
    (fun _ a _ h _ hs => cooling_step h a hs) h
  obtain ⟨left, idx, hc, _⟩ := starts
  by_contra early
  exact absurd (cooling.nobody (by omega) c _ hc) (by simp [pastTest])

/-- A spawn may start without any time passing. -/
def MaySpawnNow (s : PoolRun n ι) : Prop :=
  ∃ as t c, Run step anyStep s as t ∧ t.StartsSpawn c ∧ t.now = s.now

theorem mayTakePoolStep {s : PoolRun n ι} {a : BridgePool.Act ι} {p : BridgePool n ι}
    (hp : s.pool.step s.alive s.now a = some p)
    (next : ∀ s' : PoolRun n ι, s'.pool = p → s'.now = s.now → s'.MaySpawnNow) :
    s.MaySpawnNow := by
  have hs := congrArg (Option.map fun p => { s with
    pool := p
    alive := if p.nextBridge = s.pool.nextBridge then s.alive
      else Function.update s.alive s.pool.nextBridge true }) hp
  obtain ⟨as, t, c, run, starts, now⟩ := next { s with
    pool := p
    alive := if p.nextBridge = s.pool.nextBridge then s.alive
      else Function.update s.alive s.pool.nextBridge true } rfl rfl
  exact ⟨.pool a :: as, t, c, .cons trivial hs run, starts, now⟩

theorem maySpawn_of_locked {s : PoolRun n ι} {c : ι} {left : Nat} {idx : Fin n}
    (hc : s.pool.calls c = some (.locked left idx)) : s.MaySpawnNow :=
  ⟨[.die (s.pool.slots idx)], _, c, .cons trivial rfl (.nil _),
    ⟨left, idx, hc, Function.update_self ..⟩, rfl⟩

theorem maySpawn_of_writeWait {s : PoolRun n ι} {c : ι} {left : Nat} {idx : Fin n}
    (hc : s.pool.calls c = some (.writeWait left idx)) (free : s.pool.writer idx = none) :
    s.MaySpawnNow := by
  refine mayTakePoolStep (a := .lockSlot c)
    (p := (s.pool.setCall c (.locked left idx)).setWriter idx (some c))
    (by simp only [BridgePool.step, hc, if_pos free]) ?_
  intro s' hs' _
  have locked : s'.pool.calls c = some (.locked left idx) := by
    rw [hs']
    exact Function.update_self ..
  exact maySpawn_of_locked locked

theorem maySpawn_of_spawnFailed {s : PoolRun n ι} {c d : ι} {left left' : Nat} {idx : Fin n}
    (hc : s.pool.calls c = some (.spawnFailed left idx))
    (hd : s.pool.calls d = some (.writeWait left' idx)) : s.MaySpawnNow := by
  refine mayTakePoolStep (a := .markRespawnFailed c)
    (p := { (s.pool.setCall c (.ticket left)).setWriter idx none with
      lastRespawnFailedAt := some s.now })
    (by simp only [BridgePool.step, hc]) ?_
  intro s' hs' _
  have hne : d ≠ c := by
    rintro rfl
    rw [hc] at hd
    cases hd
  have waits : s'.pool.calls d = some (.writeWait left' idx) := by
    rw [hs']
    exact (Function.update_of_ne hne _ _).trans hd
  have free : s'.pool.writer idx = none := by
    rw [hs']
    exact Function.update_self ..
  exact maySpawn_of_writeWait waits free

theorem maySpawn_of_spawning {s : PoolRun n ι} {c d : ι} {left left' : Nat} {idx : Fin n}
    (hc : s.pool.calls c = some (.spawning left idx))
    (hd : s.pool.calls d = some (.writeWait left' idx)) : s.MaySpawnNow := by
  refine mayTakePoolStep (a := .spawnErr c)
    (p := s.pool.setCall c (.spawnFailed left idx)) (by simp only [BridgePool.step, hc]) ?_
  intro s' hs' _
  have hne : d ≠ c := by
    rintro rfl
    rw [hc] at hd
    cases hd
  have failed : s'.pool.calls c = some (.spawnFailed left idx) := by
    rw [hs']
    exact Function.update_self ..
  have waits : s'.pool.calls d = some (.writeWait left' idx) := by
    rw [hs']
    exact (Function.update_of_ne hne _ _).trans hd
  exact maySpawn_of_spawnFailed failed waits

/-- Whoever waits for a write lock can be let through by its holder. -/
theorem maySpawn_of_pastTest {s : PoolRun n ι} {d : ι} (h : Locked s.pool)
    (past : s.PastTest d) : s.MaySpawnNow := by
  obtain ⟨phase, hd, hp⟩ := past
  cases phase with
  | locked left idx => exact maySpawn_of_locked hd
  | writeWait left idx =>
      cases hw : s.pool.writer idx with
      | none => exact maySpawn_of_writeWait hd hw
      | some e =>
          obtain ⟨ph, he, holds⟩ := Option.bind_eq_some_iff.mp ((h idx e).mp hw)
          cases ph with
          | locked l i => exact maySpawn_of_locked he
          | spawning l i =>
              obtain rfl : i = idx := Option.some.inj holds
              exact maySpawn_of_spawning he hd
          | spawnFailed l i =>
              obtain rfl : i = idx := Option.some.inj holds
              exact maySpawn_of_spawnFailed he hd
          | _ => cases holds
  | _ => cases hp

theorem marked_of_move {alive : BridgeId → Bool} {now : Int} {p p' : BridgePool n ι} {c : ι}
    (m : Move alive now p (.markRespawnFailed c) p') :
    ∃ left idx, p.calls c = some (.spawnFailed left idx) ∧
      p'.calls c = some (.ticket left) ∧ p'.lastRespawnFailedAt = some now := by
  cases m with
  | mark hc => exact ⟨_, _, hc, Function.update_self .., rfl⟩

/-- After a failure is marked, no call starts a spawn before the cooldown is over,
whatever happens next, exactly when no call was past the cooldown test. -/
theorem cooldown_blocks_iff {s s' : PoolRun n ι} {c : ι}
    (reach : Reachable step anyStep Idle s)
    (marks : s.step (.pool (.markRespawnFailed c)) = some s') :
    s'.BlocksSpawns s.now ↔ ∀ d, ¬ s.PastTest d := by
  have now := now_of_pool_step marks
  have m := move_of_pool_step marks
  have locked := locked_move (locked_reachable reach) m
  obtain ⟨left, idx, before, after, marked⟩ := marked_of_move m
  refine ⟨fun blocks d past => ?_, fun nobody => blocks_of_cooling ?_⟩
  · obtain ⟨phase, hd, hp⟩ := past
    have hne : d ≠ c := by
      rintro rfl
      obtain rfl := Option.some.inj (before.symm.trans hd)
      cases hp
    have still : s'.PastTest d := ⟨phase, (m.calls_other hne).trans hd, hp⟩
    obtain ⟨as, t, e, run, starts, same⟩ := maySpawn_of_pastTest locked still
    have late := blocks as t e run starts
    rw [same, now] at late
    change s.now + (1000000000 : Int) ≤ s.now at late
    omega
  · rw [now]
    refine ⟨Int.le_refl _, ⟨s.now, marked, Int.le_refl _⟩, fun _ d phase hd => ?_⟩
    by_cases hdc : d = c
    · subst hdc
      obtain rfl := Option.some.inj (after.symm.trans hd)
      rfl
    · rw [m.calls_other hdc] at hd
      exact Bool.eq_false_iff.mpr fun hp => nobody d ⟨phase, hd, hp⟩

section Examples

/-- One iteration on a dead slot up to the failure of its respawn. -/
def failSpawn (c : Nat) : List (Act Nat) :=
  [.pool (.fetchAdd c), .pool (.readSlot c), .pool (.testCooldown c), .pool (.lockSlot c),
    .pool (.recheck c), .pool (.spawnErr c)]

def stepOfTwo : Act Nat → Bool
  | .pool a => decide (a.actor < 2)
  | _ => false

theorem calls_of_two {s t : PoolRun n Nat} {as : List (Act Nat)}
    (run : Run step (fun _ a => stepOfTwo a = true) s as t)
    (h : ∀ d, 2 ≤ d → s.pool.calls d = none) : ∀ d, 2 ≤ d → t.pool.calls d = none := by
  refine run.invariant (P := fun s => ∀ d, 2 ≤ d → s.pool.calls d = none) ?_ h
  intro s a s' hs ha hstep d hd
  cases a with
  | pool a =>
      have below : a.actor < 2 := of_decide_eq_true ha
      exact ((move_of_pool_step hstep).calls_other (by omega)).trans (hs d hd)
  | die b => cases ha
  | tick d => cases ha

/-- Call 0 fails to respawn the first slot while call 1, which has found the second one dead, is
about to make the cooldown test. -/
def failsBeside : List (Act Nat) :=
  [.pool (.call 0), .pool (.call 1)] ++ failSpawn 0 ++ [.pool (.fetchAdd 1), .pool (.readSlot 1)]

theorem cooldown_blocks_iff_beside :
    ∃ s s', exec step bothDead failsBeside = some s ∧
      s.pool.calls 1 = some (.slotDead 3 1) ∧
      s.step (.pool (.markRespawnFailed 0)) = some s' ∧ s'.BlocksSpawns s.now := by
  obtain ⟨s, hrun, failed, other⟩ : ∃ s, execIf step (fun _ a => stepOfTwo a = true) bothDead
      failsBeside = some s ∧ s.pool.calls 0 = some (.spawnFailed 3 0) ∧
        s.pool.calls 1 = some (.slotDead 3 1) := ⟨_, rfl, rfl, rfl⟩
  have both := run_of_execIf hrun
  have run := both.mono fun _ _ _ => trivial
  obtain ⟨s', marks⟩ : ∃ s', s.step (.pool (.markRespawnFailed 0)) = some s' := by
    simp [step, BridgePool.step, failed]
  have start : Reachable step anyStep Idle bothDead :=
    Reachable.start ⟨fun _ => rfl, fun _ => rfl⟩
  refine ⟨s, s', run_iff_exec.mp run, other, marks,
    (cooldown_blocks_iff (start.run run) marks).mpr fun d past => ?_⟩
  obtain ⟨phase, hd, hp⟩ := past
  obtain rfl | rfl | more : d = 0 ∨ d = 1 ∨ 2 ≤ d := by omega
  · obtain rfl := Option.some.inj (failed.symm.trans hd)
    cases hp
  · obtain rfl := Option.some.inj (other.symm.trans hd)
    cases hp
  · rw [calls_of_two both (fun _ _ => rfl) d more] at hd
    cases hd

/-- Call 1 passes the cooldown test before call 0 fails to respawn the slot, and starts
its own respawn right after the failure. -/
theorem spawn_within_cooldown :
    ∃ s s' t, exec step noneAlive
        ([.pool (.call 0), .pool (.call 1), .pool (.fetchAdd 1), .pool (.readSlot 1),
          .pool (.testCooldown 1)] ++ failSpawn 0) = some s ∧
      s.step (.pool (.markRespawnFailed 0)) = some s' ∧
      exec step s' [.pool (.lockSlot 1)] = some t ∧ t.StartsSpawn 1 ∧
      ¬ s.now + respawnCooldown ≤ t.now :=
  ⟨_, _, _, rfl, rfl, rfl, ⟨1, 0, rfl, rfl⟩, by decide⟩

end Examples
end PoolRun
end EvoclawPluginWechat
