import EvoclawPluginWechat.Library.Progress
import EvoclawPluginWechat.Properties.CheckoutSteps
import EvoclawPluginWechat.Properties.PoolRotation

/-!
A call of `checkout` that nothing disturbs: no other call takes a step, no bridge dies and no
time passes. It comes to its end, and what it returns is told by the slots in the order of the
tickets. Two rounds of tickets reach every slot even where the counter wraps.
-/
namespace EvoclawPluginWechat
namespace PoolRun
open Transition BridgePool
variable {n : Nat} [NeZero n] {ι : Type} {s t : PoolRun n ι} {as : List (Act ι)} {c : ι}

/-- The steps of the call itself, which is not cancelled. -/
def ownStep (c : ι) (_ : PoolRun n ι) (a : Act ι) : Prop :=
  ∃ b : BridgePool.Act ι, a = .pool b ∧ b.actor = c ∧ b ≠ .cancel c

/-- The slot of the `k`-th ticket from now on. -/
def ticketSlot (s : PoolRun n ι) (k : Nat) : Fin n := slotOf ((s.pool.next + k) % 2 ^ 64)

def CoolingDown (s : PoolRun n ι) : Prop := s.pool.inRespawnCooldown s.now = true

/-- What becomes of the undisturbed call. Only its first slot can be respawned: if that fails,
the others are in cooldown. -/
inductive ServedAlone (s t : PoolRun n ι) : Except PluginError BridgeId → Prop
  /-- The first live bridge in the order of the tickets. -/
  | live {k : Nat} : k < n * 2 → (∀ i < k, s.SlotDead (s.ticketSlot i)) →
      ¬ s.SlotDead (s.ticketSlot k) → t.pool.slots = s.pool.slots →
      (k = 0 ∨ s.CoolingDown ∨ t.pool.lastRespawnFailedAt = some s.now) →
      ServedAlone s t (.ok (s.pool.slots (s.ticketSlot k)))
  | respawned : s.SlotDead (s.ticketSlot 0) → ¬ s.CoolingDown →
      t.pool.slots = Function.update s.pool.slots (s.ticketSlot 0) s.pool.nextBridge →
      ServedAlone s t (.ok s.pool.nextBridge)
  | failed : (∀ idx, s.SlotDead idx) → t.pool.slots = s.pool.slots →
      (s.CoolingDown ∨ t.pool.lastRespawnFailedAt = some s.now) →
      ServedAlone s t
        (.error (.backend "all bridge slots dead; in respawn cooldown after recent failure"))

/-- `m` is where the call stands after `drawn` tickets, with `passed` slots behind it. -/
structure Walked (s m : PoolRun n ι) (drawn passed : Nat) : Prop where
  now : m.now = s.now
  alive : m.alive = s.alive
  slots : m.pool.slots = s.pool.slots
  nextBridge : m.pool.nextBridge = s.pool.nextBridge
  next : m.pool.next = (s.pool.next + drawn) % 2 ^ 64
  dead : ∀ k < passed, s.SlotDead (s.ticketSlot k)
  respawns : m.pool.lastRespawnFailedAt = s.pool.lastRespawnFailedAt ∧
    (passed = 0 ∨ s.CoolingDown) ∨ m.pool.lastRespawnFailedAt = some s.now

/-- Where the call stands; a respawn is only begun on the slot of the first ticket. -/
def Stands (s m : PoolRun n ι) : Option (CheckoutPhase n) → Prop
  | none => Walked s m 0 0
  | some (.ticket left) => ∃ k, k + left = n * 2 ∧ Walked s m k k
  | some (.reading left idx) => ∃ k, k + 1 + left = n * 2 ∧ idx = s.ticketSlot k ∧
      Walked s m (k + 1) k
  | some (.slotDead left idx) => ∃ k, k + 1 + left = n * 2 ∧ idx = s.ticketSlot k ∧
      s.SlotDead idx ∧ Walked s m (k + 1) k
  | some (.writeWait left idx) | some (.locked left idx) | some (.spawning left idx)
  | some (.spawnFailed left idx) => 1 + left = n * 2 ∧ idx = s.ticketSlot 0 ∧ s.SlotDead idx ∧
      ¬ s.CoolingDown ∧ Walked s m 1 0
  | some (.returned r) => ServedAlone s m r
  | some .dropped => False

namespace Walked
variable {m m' : PoolRun n ι} {drawn passed : Nat}

/-- Behind a dead slot there is a cooldown, an old one or that of its respawn. -/
theorem cooling (h : Walked s m drawn passed) (some_passed : passed ≠ 0) : m.CoolingDown := by
  unfold CoolingDown
  obtain ⟨same, none | cooling⟩ | failed := h.respawns
  · exact absurd none some_passed
  · rw [inRespawnCooldown, same, h.now]
    exact cooling
  · simp [inRespawnCooldown, failed, h.now, respawnCooldown, Duration.fromSecs]

/-- The cooldown test is passed on the first slot only. -/
theorem not_cooling (h : Walked s m drawn passed) (cool : ¬ m.CoolingDown) :
    passed = 0 ∧ ¬ s.CoolingDown := by
  have none : passed = 0 := by
    by_contra some_passed
    exact cool (h.cooling some_passed)
  refine ⟨none, fun cooling => ?_⟩
  obtain ⟨same, _⟩ | failed := h.respawns
  · exact cool (by rwa [CoolingDown, inRespawnCooldown, same, h.now])
  · exact cool (by simp [CoolingDown, inRespawnCooldown, failed, h.now, respawnCooldown,
      Duration.fromSecs])

theorem keep (h : Walked s m drawn passed) (now : m'.now = m.now) (alive : m'.alive = m.alive)
    (slots : m'.pool.slots = m.pool.slots) (nextBridge : m'.pool.nextBridge = m.pool.nextBridge)
    (next : m'.pool.next = m.pool.next)
    (failedAt : m'.pool.lastRespawnFailedAt = m.pool.lastRespawnFailedAt) :
    Walked s m' drawn passed :=
  ⟨now.trans h.now, alive.trans h.alive, slots.trans h.slots, nextBridge.trans h.nextBridge,
    next.trans h.next, h.dead, by rw [failedAt]; exact h.respawns⟩

end Walked

/-- Every slot has its ticket among those of a call. -/
theorem dead_of_walked {m : PoolRun n ι} (few : n ≤ 2 ^ 64) (counter : s.pool.next < 2 ^ 64)
    {drawn : Nat} (h : Walked s m drawn (n * 2)) (idx : Fin n) : s.SlotDead idx := by
  obtain ⟨k, below, hit⟩ := Rotation.exists_hit_wrapping few counter idx.isLt
  have same : s.ticketSlot k = idx := slotOf_eq_iff.mpr hit
  exact same ▸ h.dead k below

variable {m m' : PoolRun n ι}

theorem Walked.served {drawn k : Nat} {idx : Fin n} (h : Walked s m drawn k) (below : k < n * 2)
    (slot : idx = s.ticketSlot k) (live : m.alive (m.pool.slots idx) = true)
    (slots : m'.pool.slots = m.pool.slots)
    (failedAt : m'.pool.lastRespawnFailedAt = m.pool.lastRespawnFailedAt) :
    ServedAlone s m' (.ok (m.pool.slots idx)) := by
  rw [h.alive, h.slots, slot] at live
  have alive : ¬ s.SlotDead (s.ticketSlot k) := by simp [SlotDead, live]
  rw [h.slots, slot]
  refine .live below h.dead alive (slots.trans h.slots) ?_
  obtain ⟨_, none | cooling⟩ | failed := h.respawns
  · exact .inl none
  · exact .inr (.inl cooling)
  · exact .inr (.inr (failedAt.trans failed))

theorem Walked.respawned {drawn passed : Nat} (h : Walked s m drawn passed)
    (dead : s.SlotDead (s.ticketSlot 0)) (cool : ¬ s.CoolingDown)
    (slots : m'.pool.slots =
      Function.update m.pool.slots (s.ticketSlot 0) m.pool.nextBridge) :
    ServedAlone s m' (.ok m.pool.nextBridge) := by
  rw [h.slots, h.nextBridge] at slots
  exact h.nextBridge ▸ .respawned dead cool slots

variable [DecidableEq ι]

section Guards
variable {alive : BridgeId → Bool} {now : Int} {p p' : BridgePool n ι} {left : Nat} {idx : Fin n}

theorem cooling_of_skip (hc : p.calls c = some (.slotDead left idx))
    (h : p.step alive now (.testCooldown c) = some p') (skips : p'.calls c = some (.ticket left)) :
    p.inRespawnCooldown now = true := by
  simp only [BridgePool.step, hc] at h
  split at h
  · next cooling => exact cooling
  · cases h
    cases (Function.update_self c _ p.calls).symm.trans skips

theorem live_of_recheck (hc : p.calls c = some (.locked left idx))
    (h : p.step alive now (.recheck c) = some p') {r : Except PluginError BridgeId}
    (ends : p'.calls c = some (.returned r)) : alive (p.slots idx) = true := by
  simp only [BridgePool.step, hc] at h
  split at h
  · next live => exact live
  · cases h
    cases (Function.update_self c _ p.calls).symm.trans ends

end Guards

theorem stands_step (few : n ≤ 2 ^ 64) (counter : s.pool.next < 2 ^ 64)
    (h : Stands s m (m.pool.calls c)) {a : Act ι} (own : ownStep c m a)
    (hs : m.step a = some m') : Stands s m' (m'.pool.calls c) := by
  obtain ⟨b, rfl, rfl, kept⟩ := own
  obtain ⟨p, hp, rfl⟩ := Option.map_eq_some_iff.mp hs
  have before : ∀ {phase}, m.pool.calls b.actor = phase → Stands s m phase := fun hc => hc ▸ h
  have after : ∀ {m' : PoolRun n ι} {phase}, m'.pool.calls b.actor = some phase →
      Stands s m' (some phase) → Stands s m' (m'.pool.calls b.actor) := fun hc h => hc ▸ h
  have positive := Nat.pos_of_neZero n
  cases move_of_step hp with
  | call hc =>
      have walked : Walked s m 0 0 := before hc
      refine after (Function.update_self ..) ⟨0, Nat.zero_add _, ?_⟩
      exact walked.keep rfl (if_pos rfl) rfl rfl rfl rfl
  | draw hc =>
      obtain ⟨k, count, walked⟩ := before hc
      refine after (Function.update_self ..) ⟨k, by omega, congrArg slotOf walked.next, ?_⟩
      refine ⟨walked.now, (if_pos rfl).trans walked.alive, walked.slots, walked.nextBridge, ?_,
        walked.dead, walked.respawns⟩
      change (m.pool.next + 1) % 2 ^ 64 = _
      rw [walked.next]
      omega
  | readLive hc live =>
      obtain ⟨k, count, slot, walked⟩ := before hc
      exact after (Function.update_self ..) (walked.served (by omega) slot live rfl rfl)
  | readDead hc dead =>
      obtain ⟨k, count, slot, walked⟩ := before hc
      rw [walked.alive, walked.slots] at dead
      refine after (Function.update_self ..) ⟨k, count, slot, dead, ?_⟩
      exact walked.keep rfl (if_pos rfl) rfl rfl rfl rfl
  | skip hc =>
      obtain ⟨k, count, rfl, dead, walked⟩ := before hc
      have cooling : m.CoolingDown := cooling_of_skip hc hp (Function.update_self ..)
      refine after (Function.update_self ..) ⟨k + 1, count, walked.now,
        (if_pos rfl).trans walked.alive, walked.slots, walked.nextBridge, walked.next,
        fun i hi => ?_, ?_⟩
      · obtain earlier | rfl := Nat.lt_succ_iff_lt_or_eq.mp hi
        · exact walked.dead i earlier
        · exact dead
      · obtain ⟨same, _⟩ | failed := walked.respawns
        · refine .inl ⟨same, .inr ?_⟩
          rwa [CoolingDown, inRespawnCooldown, same, walked.now] at cooling
        · exact .inr failed
  | passTest hc out =>
      obtain ⟨k, count, slot, dead, walked⟩ := before hc
      obtain ⟨rfl, cool⟩ := walked.not_cooling (Bool.eq_false_iff.mp out)
      refine after (Function.update_self ..) ⟨by omega, slot, dead, cool, ?_⟩
      exact walked.keep rfl (if_pos rfl) rfl rfl rfl rfl
  | lock hc _ =>
      obtain ⟨count, slot, dead, cool, walked⟩ := before hc
      refine after (Function.update_self ..) ⟨count, slot, dead, cool, ?_⟩
      exact walked.keep rfl (if_pos rfl) rfl rfl rfl rfl
  | recheckLive hc =>
      obtain ⟨count, rfl, dead, cool, walked⟩ := before hc
      have live := live_of_recheck hc hp (Function.update_self ..)
      rw [walked.alive, walked.slots, show s.alive _ = false from dead] at live
      cases live
  | startSpawn hc =>
      obtain ⟨count, slot, dead, cool, walked⟩ := before hc
      refine after (Function.update_self ..) ⟨count, slot, dead, cool, ?_⟩
      exact walked.keep rfl (if_pos rfl) rfl rfl rfl rfl
  | spawnOk hc =>
      obtain ⟨count, rfl, dead, cool, walked⟩ := before hc
      exact after (Function.update_self ..) (walked.respawned dead cool rfl)
  | spawnErr hc =>
      obtain ⟨count, slot, dead, cool, walked⟩ := before hc
      refine after (Function.update_self ..) ⟨count, slot, dead, cool, ?_⟩
      exact walked.keep rfl (if_pos rfl) rfl rfl rfl rfl
  | mark hc =>
      obtain ⟨count, rfl, dead, cool, walked⟩ := before hc
      refine after (Function.update_self ..) ⟨1, count, walked.now,
        (if_pos rfl).trans walked.alive, walked.slots, walked.nextBridge, walked.next,
        fun k hk => ?_, .inr ?_⟩
      · obtain rfl : k = 0 := by omega
        exact dead
      · exact congrArg some walked.now
  | giveUp hc =>
      obtain ⟨k, count, walked⟩ := before hc
      have cooling := walked.cooling (by omega)
      obtain rfl : k = n * 2 := count
      have text : m.pool.exhausted m.now =
          .backend "all bridge slots dead; in respawn cooldown after recent failure" := by
        rw [exhausted, if_pos (show m.pool.inRespawnCooldown m.now = true from cooling)]
      refine after (Function.update_self ..) ?_
      rw [text]
      refine .failed (dead_of_walked few counter walked) walked.slots ?_
      obtain ⟨_, none | cooling⟩ | failed := walked.respawns
      · omega
      · exact .inl cooling
      · exact .inr failed
  | cancelRead _ => exact absurd rfl kept
  | cancelWrite _ => exact absurd rfl kept

/-- How many steps the call takes at most, from before it is made. -/
def stepsLeft (c : ι) (m : PoolRun n ι) : Nat :=
  (m.pool.calls c).elim (n * 14 + 2) CheckoutPhase.stepsLeft

theorem stepsLeft_pays (c : ι) :
    Pays step (ownStep c) (fun _ => True) (stepsLeft (n := n) c) fun _ => true := by
  intro m a m' _ own hs
  obtain ⟨b, rfl, rfl, kept⟩ := own
  have hp := (pool_eq_some hs).1
  rw [if_pos rfl]
  unfold stepsLeft
  by_cases begins : ∃ c, b = .call c
  · obtain ⟨c, rfl⟩ := begins
    obtain ⟨fresh, calls⟩ := call_eq_some hp
    simp only [BridgePool.Act.actor, fresh, calls, Function.update_self, Option.elim,
      CheckoutPhase.stepsLeft]
    omega
  · obtain ⟨ph, ph', before, after, _, less⟩ := (move_of_step hp).charge
      (fun c same => begins ⟨c, same⟩) fun c same => kept (by rw [same]; rfl)
    rw [before, after]
    exact less

/-- What holds while the call is alone. -/
structure Alone (c : ι) (s m : PoolRun n ι) : Prop where
  stands : Stands s m (m.pool.calls c)
  locked : m.pool.Locked
  others : ∀ d, d ≠ c → m.pool.calls d = s.pool.calls d

theorem alone_step (few : n ≤ 2 ^ 64) (counter : s.pool.next < 2 ^ 64) (h : Alone c s m)
    {a : Act ι} (own : ownStep c m a) (hs : m.step a = some m') : Alone c s m' := by
  have stands := stands_step few counter h.stands own hs
  obtain ⟨b, rfl, rfl, _⟩ := own
  have move := move_of_step (pool_eq_some hs).1
  exact ⟨stands, locked_move h.locked move, fun d other =>
    (move.calls_other other).trans (h.others d other)⟩

theorem Alone.free (h : Alone c s m) (locked : s.pool.Locked)
    (free : ∀ idx, s.pool.writer idx = none) {phase : CheckoutPhase n}
    (hc : m.pool.calls c = some phase) (holds : phase.holds = none) (idx : Fin n) :
    m.pool.writer idx = none := by
  refine Option.eq_none_iff_forall_ne_some.mpr fun d writes => ?_
  have held := (h.locked idx d).mp writes
  by_cases own : d = c
  · rw [own, held_eq hc, holds] at held
    cases held
  · rw [BridgePool.held, h.others d own] at held
    cases (free idx).symm.trans ((locked idx d).mpr held)

theorem Alone.returned (h : Alone c s m) (locked : s.pool.Locked)
    (free : ∀ idx, s.pool.writer idx = none) (stuck : Stuck step (ownStep c) m) :
    ∃ r, m.pool.calls c = some (.returned r) := by
  have refused : ∀ b : BridgePool.Act ι, b.actor = c → b ≠ .cancel c →
      m.pool.step m.alive m.now b = none := fun b own kept =>
    Option.map_eq_none_iff.mp (stuck (.pool b) ⟨b, rfl, own, kept⟩)
  cases hc : m.pool.calls c with
  | none =>
      have none := refused (.call c) rfl (by simp)
      simp [BridgePool.step, hc] at none
  | some ph =>
      by_cases more : 0 < ph.stepsLeft
      · have unlocked : ∀ idx, ph.waitsFor = some idx → m.pool.writer idx = none := by
          intro idx waits
          refine h.free locked free hc ?_ idx
          refine Option.eq_none_iff_forall_ne_some.mpr fun j holds => ?_
          cases (CheckoutPhase.waitsFor_of_holds holds).1.symm.trans waits
        obtain ⟨op, own, inLoop, goes⟩ := own_step m.alive m.now hc more unlocked
        rw [refused op own (by rintro rfl; cases inLoop)] at goes
        cases goes
      · have stands := h.stands
        rw [hc] at stands
        cases ph with
        | returned r => exact ⟨r, rfl⟩
        | dropped => exact stands.elim
        | _ => exact absurd (Nat.succ_pos _) more

theorem counter_step {a : Act ι} (below : m.pool.next < 2 ^ 64) (hs : m.step a = some m') :
    m'.pool.next < 2 ^ 64 := by
  rw [next_step hs]
  split
  · exact Nat.mod_lt _ (Nat.two_pow_pos 64)
  · exact below

/-- Whatever has happened to the pool: a call that nothing disturbs comes to an end, unless
another one holds a lock, and returns the first live bridge in the order of the tickets, or a
new one in its first slot; it fails only with every slot dead. -/
theorem checkout_alone {s₀ : PoolRun n ι} {bs : List (Act ι)} (start : s₀.pool = .new)
    (before : Run step anyStep s₀ bs s) (few : n ≤ 2 ^ 64) (fresh : s.pool.calls c = none)
    (run : Run step (ownStep c) s as t) :
    as.length ≤ n * 14 + 2 ∧
      ((∀ idx, s.pool.writer idx = none) → Stuck step (ownStep c) t →
        ∃ r, t.pool.calls c = some (.returned r)) ∧
      ∀ r, t.pool.calls c = some (.returned r) → ServedAlone s t r := by
  have seated : Seated s :=
    before.invariant (fun _ _ _ hs _ h => seated_step hs h) (seated_new start)
  have counter : s.pool.next < 2 ^ 64 := by
    refine before.invariant (P := fun s => s.pool.next < 2 ^ 64)
      (fun _ _ _ below _ h => counter_step below h) ?_
    rw [start]
    exact Nat.two_pow_pos 64
  have walked : Walked s s 0 0 :=
    ⟨rfl, rfl, rfl, rfl, (Nat.mod_eq_of_lt counter).symm, fun _ h => absurd h (Nat.not_lt_zero _),
      .inl ⟨rfl, .inl rfl⟩⟩
  have alone : Alone c s t := run.invariant (fun _ _ _ h own hs => alone_step few counter h own hs)
    ⟨by rw [fresh]; exact walked, seated.locked, fun _ _ => rfl⟩
  refine ⟨?_, alone.returned seated.locked, fun r returned => ?_⟩
  · have short := run.length_le (fun _ _ _ _ _ _ => trivial) (stepsLeft_pays c) trivial
    rwa [stepsLeft, fresh] at short
  · have stands := alone.stands
    rwa [returned] at stands

/-- The respawn of the first slot fails, and the second slot is taken. -/
theorem checkout_alone_second : ∃ t : PoolRun 2 Nat,
    t.pool.calls 0 = some (.returned (.ok 1)) ∧ ServedAlone secondAlive t (.ok 1) := by
  have run := run_iff_exec.mpr (rfl : exec step secondAlive (.pool (.call 0) :: failSlot 0 ++
    [.pool (.fetchAdd 0), .pool (.readSlot 0)]) = some _)
  have own : ∀ a ∈ (.pool (.call 0) :: failSlot 0 ++ [.pool (.fetchAdd 0), .pool (.readSlot 0)]),
      ∀ s : PoolRun 2 Nat, ownStep 0 s a := by
    simp [failSlot, ownStep, BridgePool.Act.actor]
  obtain ⟨_, _, served⟩ := checkout_alone rfl (.nil _) (by decide) rfl (run.guard own)
  exact ⟨_, rfl, served _ rfl⟩

end PoolRun
end EvoclawPluginWechat
