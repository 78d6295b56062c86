import EvoclawPluginWechat.Library.Rotation
import EvoclawPluginWechat.Properties.CheckoutCoverage
import Mathlib.Data.List.Nodup

/-!
What the calls of the pool do to its slots. The tickets go round, so the slots share the
calls; a live bridge keeps its slot, no bridge is in two of them, and none that was dead when
a call began is what the call returns.
-/
namespace EvoclawPluginWechat
open Transition

namespace BridgePool
variable {n : Nat} {ι : Type} [DecidableEq ι] [NeZero n]
variable {alive : BridgeId → Bool} {now : Int} {p p' : BridgePool n ι} {a : Act ι}

def Act.draws : Act ι → Bool
  | .fetchAdd _ => true
  | _ => false

theorem Move.next_after (m : Move alive now p a p') :
    p'.next = if a.draws then (p.next + 1) % 2 ^ 64 else p.next := by
  cases m with
  | draw _ => rfl
  | _ => rfl

theorem Move.slots_after (m : Move alive now p a p') :
    p'.slots = p.slots ∧ p'.nextBridge = p.nextBridge ∨ ∃ c left idx, a = .spawnOk c ∧
      p.calls c = some (.spawning left idx) ∧
      p'.calls c = some (.returned (.ok p.nextBridge)) ∧
      p'.slots = Function.update p.slots idx p.nextBridge ∧ p'.nextBridge = p.nextBridge + 1 := by
  cases m with
  | @spawnOk c left idx hc =>
      exact .inr ⟨c, left, idx, rfl, hc, Function.update_self .., rfl, rfl⟩
  | _ => exact .inl ⟨rfl, rfl⟩

theorem spawning_before (h : p.step alive now a = some p') {c : ι} {left : Nat} {idx : Fin n}
    (hc : p'.calls c = some (.spawning left idx)) :
    p.calls c = some (.spawning left idx) ∨ alive (p.slots idx) = false := by
  have m := move_of_step h
  by_cases mine : c = a.actor
  · subst mine
    cases a with
    | recheck c =>
        simp only [step] at h
        split at h
        · split at h
          · cases h
            cases (Function.update_self c _ p.calls).symm.trans hc
          · next dead =>
              cases h
              cases (Function.update_self c _ p.calls).symm.trans hc
              exact .inr (Bool.eq_false_iff.mpr dead)
        · cases h
    | _ => cases m <;> cases (Function.update_self _ _ p.calls).symm.trans hc
  · exact .inl (m.calls_other mine ▸ hc)

theorem returned_before (h : p.step alive now a = some p') {c : ι} {b : BridgeId}
    (hc : p'.calls c = some (.returned (.ok b))) :
    p.calls c = some (.returned (.ok b)) ∨ alive b = true ∨ b = p.nextBridge := by
  have m := move_of_step h
  by_cases mine : c = a.actor
  · subst mine
    cases a with
    | readSlot c =>
        cases m with
        | readLive _ live =>
            cases (Function.update_self c _ p.calls).symm.trans hc
            exact .inr (.inl live)
        | readDead _ _ => cases (Function.update_self c _ p.calls).symm.trans hc
    | recheck c =>
        simp only [step] at h
        split at h
        · split at h
          · next live =>
              cases h
              cases (Function.update_self c _ p.calls).symm.trans hc
              exact .inr (.inl live)
          · cases h
            cases (Function.update_self c _ p.calls).symm.trans hc
        · cases h
    | spawnOk c =>
        cases m with
        | spawnOk _ =>
            cases (Function.update_self c _ p.calls).symm.trans hc
            exact .inr (.inr rfl)
    | _ => cases m <;> cases (Function.update_self _ _ p.calls).symm.trans hc
  · exact .inl (m.calls_other mine ▸ hc)

end BridgePool

namespace PoolRun
open BridgePool
variable {n : Nat} [NeZero n] {ι : Type} [DecidableEq ι] {s s' t : PoolRun n ι}
variable {as : List (Act ι)} {b : BridgeId} {c : ι}

theorem pool_eq_some {a : BridgePool.Act ι} (h : s.step (.pool a) = some s') :
    s.pool.step s.alive s.now a = some s'.pool ∧
      s'.alive = if s'.pool.nextBridge = s.pool.nextBridge then s.alive
        else Function.update s.alive s.pool.nextBridge true := by
  obtain ⟨p, hp, rfl⟩ := Option.map_eq_some_iff.mp h
  exact ⟨hp, rfl⟩

theorem nextBridge_step {a : Act ι} (h : s.step a = some s') :
    s.pool.nextBridge ≤ s'.pool.nextBridge := by
  cases a with
  | pool a =>
      obtain ⟨_, same⟩ | ⟨_, _, _, _, _, _, _, more⟩ :=
        (move_of_step (pool_eq_some h).1).slots_after
      · exact same.ge
      · exact more ▸ Nat.le_succ _
  | die _ | tick _ => cases h; exact le_rfl

/-- A bridge that was spawned does not come back to life. -/
theorem alive_before {a : Act ι} (h : s.step a = some s') (known : b < s.pool.nextBridge)
    (live : s'.alive b = true) : s.alive b = true := by
  cases a with
  | pool a =>
      rw [(pool_eq_some h).2] at live
      split at live
      · exact live
      · rwa [Function.update_of_ne known.ne] at live
  | die d =>
      cases h
      by_cases same : b = d
      · simp [same] at live
      · exact (Function.update_of_ne same _ _).symm.trans live
  | tick _ => cases h; exact live

/-- The bridges in the slots, and the slots that a call is respawning. -/
structure Seated (s : PoolRun n ι) : Prop where
  locked : s.pool.Locked
  apart : Function.Injective s.pool.slots
  known : ∀ idx, s.pool.slots idx < s.pool.nextBridge
  dead : ∀ c left idx, s.pool.calls c = some (.spawning left idx) → s.SlotDead idx

omit [NeZero n] [DecidableEq ι] in
theorem seated_new [NeZero n] (h : s.pool = .new) : Seated s := by
  refine ⟨?_, ?_, ?_, ?_⟩
  · rw [h]
    exact fun _ _ => by simp [BridgePool.new, held]
  · rw [h]
    exact Fin.val_injective
  · rw [h]
    exact fun idx => idx.isLt
  · rw [h]
    exact fun _ _ _ hc => by cases hc

theorem Seated.slotDead_step {a : Act ι} (hs : Seated s) (h : s.step a = some s') {idx : Fin n}
    (slot : s'.pool.slots idx = s.pool.slots idx) (dead : s.SlotDead idx) : s'.SlotDead idx := by
  rw [SlotDead, slot]
  refine Bool.eq_false_iff.mpr fun live => ?_
  have before := alive_before h (hs.known idx) live
  rw [show s.alive (s.pool.slots idx) = false from dead] at before
  cases before

theorem seated_step {a : Act ι} (hs : Seated s) (h : s.step a = some s') : Seated s' := by
  have lasting : ∀ {idx : Fin n}, s'.pool.slots idx = s.pool.slots idx → s.SlotDead idx →
      s'.SlotDead idx := hs.slotDead_step h
  cases a with
  | pool a =>
      obtain ⟨hp, _⟩ := pool_eq_some h
      have m := move_of_step hp
      have locked := locked_move hs.locked m
      obtain ⟨slots, next⟩ | ⟨c, left, idx, rfl, hc, hc', slots, next⟩ := m.slots_after
      · refine ⟨locked, slots ▸ hs.apart, fun idx => ?_, fun c left idx hc => ?_⟩
        · rw [slots, next]
          exact hs.known idx
        · refine lasting (congrFun slots idx) ?_
          obtain old | dead := spawning_before hp hc
          · exact hs.dead c left idx old
          · exact dead
      · refine ⟨locked, ?_, fun j => ?_, fun c' left' j hj => ?_⟩
        · intro i j same
          rw [slots, Function.update_apply, Function.update_apply] at same
          split at same
          · next hi =>
              split at same
              · next hj => rw [hi, hj]
              · exact absurd same.symm (hs.known j).ne
          · split at same
            · exact absurd same (hs.known i).ne
            · exact hs.apart same
        · rw [slots, next, Function.update_apply]
          split
          · exact Nat.lt_succ_self _
          · exact Nat.lt_succ_of_lt (hs.known j)
        · have other : c' ≠ c := by
            rintro rfl
            cases hc'.symm.trans hj
          have old : s.pool.calls c' = some (.spawning left' j) := m.calls_other other ▸ hj
          refine lasting ?_ (hs.dead c' left' j old)
          rw [slots, Function.update_of_ne]
          rintro rfl
          -- both would hold the lock of the slot
          have mine := (hs.locked j c).mpr (held_eq hc)
          have theirs := (hs.locked j c').mpr (held_eq old)
          exact other (Option.some.inj (theirs.symm.trans mine))
  | die _ | tick _ =>
      cases h
      exact ⟨hs.locked, hs.apart, hs.known,
        fun c left idx hc => lasting rfl (hs.dead c left idx hc)⟩

/-- No bridge is in two slots, and a slot changes only where its bridge is dead, by the call
that holds its lock. -/
theorem live_bridge_keeps_slot {s₀ : PoolRun n ι} (start : s₀.pool = .new)
    (run : Run step anyStep s₀ as s) : Function.Injective s.pool.slots ∧
      ∀ a s', s.step a = some s' → ∀ idx, s'.pool.slots idx ≠ s.pool.slots idx →
        s.SlotDead idx ∧ ∃ c, a = .pool (.spawnOk c) ∧ s.pool.writer idx = some c := by
  have hs : Seated s := run.invariant (fun _ _ _ hs _ h => seated_step hs h) (seated_new start)
  refine ⟨hs.apart, fun a s' h idx changed => ?_⟩
  cases a with
  | pool a =>
      obtain ⟨same, _⟩ | ⟨c, left, j, rfl, hc, _, slots, _⟩ :=
        (move_of_step (pool_eq_some h).1).slots_after
      · exact absurd (congrFun same idx) changed
      · obtain rfl : idx = j := by
          by_contra other
          exact changed (by rw [slots, Function.update_of_ne other])
        exact ⟨hs.dead c left idx hc, c, rfl, (hs.locked idx c).mpr (held_eq hc)⟩
  | die _ | tick _ =>
      cases h
      exact absurd rfl changed

/-- A bridge that is dead when a call begins is not what the call returns. -/
theorem dead_bridge_not_returned (run : Run step anyStep s as t) (fresh : s.pool.calls c = none)
    (known : b < s.pool.nextBridge) (dead : s.alive b = false) :
    t.pool.calls c ≠ some (.returned (.ok b)) := by
  have lasting : b < t.pool.nextBridge ∧ t.alive b = false ∧
      t.pool.calls c ≠ some (.returned (.ok b)) := by
    refine run.invariant (P := fun s => b < s.pool.nextBridge ∧ s.alive b = false ∧
      s.pool.calls c ≠ some (.returned (.ok b))) (fun s a s' hs _ h => ?_) ?_
    · obtain ⟨known, dead, none⟩ := hs
      refine ⟨known.trans_le (nextBridge_step h), Bool.eq_false_iff.mpr fun live => ?_,
        fun hc => ?_⟩
      · rw [alive_before h known live] at dead
        cases dead
      · cases a with
        | pool a =>
            obtain old | live | new := returned_before (pool_eq_some h).1 hc
            · exact none old
            · rw [dead] at live
              cases live
            · exact known.ne new
        | die _ | tick _ =>
            cases h
            exact none hc
    · exact ⟨known, dead, by rw [fresh]; simp⟩
  exact lasting.2.2

section Rotation

def Act.draws : Act ι → Bool
  | .pool a => a.draws
  | _ => false

/-- How many of the tickets that the steps draw are for the slot. -/
def ticketsFor (idx : Fin n) : PoolRun n ι → List (Act ι) → Nat
  | _, [] => 0
  | s, a :: as => (match s.step a with
    | some s' => ticketsFor idx s' as
    | none => 0) + if a.draws ∧ slotOf s.pool.next = idx then 1 else 0

theorem next_step {a : Act ι} (h : s.step a = some s') :
    s'.pool.next = if a.draws then (s.pool.next + 1) % 2 ^ 64 else s.pool.next := by
  cases a with
  | pool a => exact (move_of_step (pool_eq_some h).1).next_after
  | die _ | tick _ => cases h; rfl

omit [DecidableEq ι] in
theorem slotOf_eq_iff {counter : Nat} {idx : Fin n} : slotOf counter = idx ↔ counter % n = idx := by
  rw [slotOf, Fin.ext_iff, Fin.val_ofNat]

theorem ticketsFor_eq (idx : Fin n) (run : Run step anyStep s as t)
    (room : s.pool.next + as.countP Act.draws ≤ 2 ^ 64) :
    ticketsFor idx s as = Rotation.hits n s.pool.next idx (as.countP Act.draws) := by
  induction run with
  | nil s => exact Rotation.hits_zero.symm
  | @cons s m t a as _ hstep _ ih =>
      have next := next_step hstep
      rw [List.countP_cons] at room
      rw [ticketsFor, hstep, List.countP_cons]
      cases draws : a.draws with
      | false =>
          simp only [draws, Bool.false_eq_true, if_false, false_and, Nat.add_zero] at next room ⊢
          rw [ih (by rw [next]; exact room), next]
      | true =>
          simp only [draws, if_true, true_and] at next room ⊢
          simp only [Rotation.hits_succ, slotOf_eq_iff]
          congr 1
          -- the last ticket before the wrap may be drawn, but none after it
          obtain last | more := Nat.eq_zero_or_pos (as.countP Act.draws)
          · have below : m.pool.next < 2 ^ 64 := next ▸ Nat.mod_lt _ (Nat.two_pow_pos 64)
            rw [ih (by omega), last, Rotation.hits_zero, Rotation.hits_zero]
          · rw [Nat.mod_eq_of_lt (by omega)] at next
            rw [ih (by omega), next]

/-- Whichever calls draw them, the tickets of any stretch of a run are shared out evenly: each
slot gets its part, or one more. -/
theorem tickets_shared_evenly (run : Run step anyStep s as t)
    (room : s.pool.next + as.countP Act.draws ≤ 2 ^ 64) (idx : Fin n) :
    as.countP Act.draws / n ≤ ticketsFor idx s as ∧
      ticketsFor idx s as ≤ as.countP Act.draws / n + 1 := by
  rw [ticketsFor_eq idx run room]
  exact Rotation.hits_bounds idx.isLt

end Rotation

section Examples

/-- Both bridges live, and three calls at once. -/
theorem tickets_shared_evenly_three_calls :
    1 ≤ ticketsFor 1 (⟨.new, fun _ => true, 0⟩ : PoolRun 2 Nat)
      (takeLive 0 ++ takeLive 1 ++ takeLive 2) := by
  have run := run_iff_exec.mpr (rfl : exec step (⟨.new, fun _ => true, 0⟩ : PoolRun 2 Nat)
    (takeLive 0 ++ takeLive 1 ++ takeLive 2) = some _)
  exact (tickets_shared_evenly run (by decide) 1).1

def startsRespawn (c : Nat) : List (Act Nat) :=
  [.pool (.call c), .pool (.fetchAdd c), .pool (.readSlot c), .pool (.testCooldown c),
    .pool (.lockSlot c), .pool (.recheck c)]

/-- The only bridge is dead, and the call puts another one in its place. -/
theorem dead_bridge_not_returned_respawn : ∃ t : PoolRun 1 Nat,
    t.pool.calls 0 = some (.returned (.ok 1)) ∧ t.pool.calls 0 ≠ some (.returned (.ok 0)) := by
  have run := run_iff_exec.mpr (rfl : exec step noneAlive
    (startsRespawn 0 ++ [.pool (.spawnOk 0)]) = some _)
  exact ⟨_, rfl, dead_bridge_not_returned run rfl (by decide) rfl⟩

theorem live_bridge_keeps_slot_respawn : ∃ s s' : PoolRun 1 Nat,
    s.step (.pool (.spawnOk 0)) = some s' ∧ s'.pool.slots 0 ≠ s.pool.slots 0 ∧ s.SlotDead 0 ∧
      s.pool.writer 0 = some 0 := by
  have run := run_iff_exec.mpr (rfl : exec step noneAlive (startsRespawn 0) = some _)
  obtain ⟨_, changes⟩ := live_bridge_keeps_slot rfl run
  obtain ⟨dead, c, same, writer⟩ := changes (.pool (.spawnOk 0)) _ rfl 0 (by decide)
  cases same
  exact ⟨_, _, rfl, by decide, dead, writer⟩

end Examples
end PoolRun
end EvoclawPluginWechat
