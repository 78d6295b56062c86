import EvoclawPluginWechat.Core.Pool
import EvoclawPluginWechat.Library.Runs

/-!
Frame facts and the lock invariant of the bridge pool: a step moves one call only,
and the write lock of a slot is held by the call whose phase says so.
-/
namespace EvoclawPluginWechat
open Transition

/-- The slot whose write lock a call in this phase holds. -/
def CheckoutPhase.holds {n : Nat} : CheckoutPhase n → Option (Fin n)
  | .locked _ idx | .spawning _ idx | .spawnFailed _ idx => some idx
  | _ => none

namespace BridgePool
variable {n : Nat} {ι : Type}

/-- The slot whose write lock the call holds. -/
def held (p : BridgePool n ι) (c : ι) : Option (Fin n) := (p.calls c).bind CheckoutPhase.holds

/-- The writer of a slot is the call that holds its lock. -/
def Locked (p : BridgePool n ι) : Prop := ∀ idx c, p.writer idx = some c ↔ p.held c = some idx

theorem held_eq {p : BridgePool n ι} {c : ι} {phase : CheckoutPhase n}
    (hc : p.calls c = some phase) : p.held c = phase.holds := by
  rw [held, hc]
  rfl

variable [DecidableEq ι]

theorem held_setCall (p : BridgePool n ι) (c c' : ι) (phase : CheckoutPhase n) :
    (p.setCall c phase).held c' = if c' = c then phase.holds else p.held c' := by
  simp only [held, setCall, Function.update_apply]
  split <;> rfl

theorem Locked.keep {p : BridgePool n ι} (h : Locked p) {c : ι} {phase : CheckoutPhase n}
    (same : phase.holds = p.held c) : Locked (p.setCall c phase) := by
  intro idx c'
  rw [held_setCall]
  by_cases hc : c' = c
  · rw [if_pos hc, same, hc]
    exact h idx c
  · rw [if_neg hc]
    exact h idx c'

theorem Locked.move {p : BridgePool n ι} (h : Locked p) {c : ι} {old phase : CheckoutPhase n}
    (hc : p.calls c = some old) (same : phase.holds = old.holds) :
    Locked (p.setCall c phase) :=
  h.keep (same.trans (held_eq hc).symm)

theorem Locked.take {p : BridgePool n ι} (h : Locked p) {c : ι} {old phase : CheckoutPhase n}
    {idx : Fin n} (hc : p.calls c = some old) (before : old.holds = none)
    (free : p.writer idx = none) (after : phase.holds = some idx) :
    Locked ((p.setCall c phase).setWriter idx (some c)) := by
  have held := (held_eq hc).trans before
  intro idx' c'
  change Function.update p.writer idx (some c) idx' = some c' ↔ (p.setCall c phase).held c' = _
  rw [held_setCall]
  by_cases hc' : c' = c
  · rw [if_pos hc', after, hc']
    by_cases hi : idx' = idx
    · simp [hi]
    · rw [Function.update_of_ne hi, h idx' c, held]
      simp [Ne.symm hi]
  · rw [if_neg hc']
    by_cases hi : idx' = idx
    · have other := h idx c'
      rw [free] at other
      rw [hi, Function.update_self, ← other]
      simp [Ne.symm hc']
    · rw [Function.update_of_ne hi]
      exact h idx' c'

theorem Locked.release {p : BridgePool n ι} (h : Locked p) {c : ι}
    {old phase : CheckoutPhase n} {idx : Fin n} (hc : p.calls c = some old)
    (before : old.holds = some idx) (after : phase.holds = none) :
    Locked ((p.setCall c phase).setWriter idx none) := by
  have held := (held_eq hc).trans before
  intro idx' c'
  change Function.update p.writer idx none idx' = some c' ↔ (p.setCall c phase).held c' = _
  rw [held_setCall]
  by_cases hc' : c' = c
  · rw [if_pos hc', after]
    by_cases hi : idx' = idx
    · simp [hi]
    · rw [Function.update_of_ne hi, h idx' c', hc', held]
      simp [Ne.symm hi]
  · rw [if_neg hc']
    by_cases hi : idx' = idx
    · rw [hi, Function.update_self]
      have mine := (h idx c).mpr held
      have other := h idx c'
      rw [mine] at other
      simpa [Ne.symm hc'] using other
    · rw [Function.update_of_ne hi]
      exact h idx' c'

variable [NeZero n]

def Act.actor : Act ι → ι
  | .call c | .fetchAdd c | .readSlot c | .testCooldown c | .lockSlot c | .recheck c
  | .spawnOk c | .spawnErr c | .markRespawnFailed c | .giveUp c | .cancel c => c

/-- The steps of a call, one for each branch of the source. -/
inductive Move (alive : BridgeId → Bool) (now : Int) (p : BridgePool n ι) :
    Act ι → BridgePool n ι → Prop
  | call {c : ι} : p.calls c = none → Move alive now p (.call c) (p.setCall c (.ticket (n * 2)))
  | draw {c : ι} {left : Nat} : p.calls c = some (.ticket (left + 1)) →
      Move alive now p (.fetchAdd c)
        { p.setCall c (.reading left (slotOf p.next)) with next := (p.next + 1) % 2 ^ 64 }
  | readLive {c : ι} {left : Nat} {idx : Fin n} : p.calls c = some (.reading left idx) →
      alive (p.slots idx) = true →
      Move alive now p (.readSlot c) (p.setCall c (.returned (.ok (p.slots idx))))
  | readDead {c : ι} {left : Nat} {idx : Fin n} : p.calls c = some (.reading left idx) →
      alive (p.slots idx) = false →
      Move alive now p (.readSlot c) (p.setCall c (.slotDead left idx))
  | skip {c : ι} {left : Nat} {idx : Fin n} : p.calls c = some (.slotDead left idx) →
      Move alive now p (.testCooldown c) (p.setCall c (.ticket left))
  | passTest {c : ι} {left : Nat} {idx : Fin n} : p.calls c = some (.slotDead left idx) →
      p.inRespawnCooldown now = false →
      Move alive now p (.testCooldown c) (p.setCall c (.writeWait left idx))
  | lock {c : ι} {left : Nat} {idx : Fin n} : p.calls c = some (.writeWait left idx) →
      p.writer idx = none →
      Move alive now p (.lockSlot c) ((p.setCall c (.locked left idx)).setWriter idx (some c))
  | recheckLive {c : ι} {left : Nat} {idx : Fin n} : p.calls c = some (.locked left idx) →
      Move alive now p (.recheck c)
        ((p.setCall c (.returned (.ok (p.slots idx)))).setWriter idx none)
  | startSpawn {c : ι} {left : Nat} {idx : Fin n} : p.calls c = some (.locked left idx) →
      Move alive now p (.recheck c) (p.setCall c (.spawning left idx))
  | spawnOk {c : ι} {left : Nat} {idx : Fin n} : p.calls c = some (.spawning left idx) →
      Move alive now p (.spawnOk c)
        { (p.setCall c (.returned (.ok p.nextBridge))).setWriter idx none with
          slots := Function.update p.slots idx p.nextBridge
          nextBridge := p.nextBridge + 1 }
  | spawnErr {c : ι} {left : Nat} {idx : Fin n} : p.calls c = some (.spawning left idx) →
      Move alive now p (.spawnErr c) (p.setCall c (.spawnFailed left idx))
  | mark {c : ι} {left : Nat} {idx : Fin n} : p.calls c = some (.spawnFailed left idx) →
      Move alive now p (.markRespawnFailed c)
        { (p.setCall c (.ticket left)).setWriter idx none with lastRespawnFailedAt := some now }
  | giveUp {c : ι} : p.calls c = some (.ticket 0) →
      Move alive now p (.giveUp c) (p.setCall c (.returned (.error (p.exhausted now))))
  | cancelRead {c : ι} {left : Nat} {idx : Fin n} : p.calls c = some (.reading left idx) →
      Move alive now p (.cancel c) (p.setCall c .dropped)
  | cancelWrite {c : ι} {left : Nat} {idx : Fin n} : p.calls c = some (.writeWait left idx) →
      Move alive now p (.cancel c) (p.setCall c .dropped)

theorem move_of_step {alive : BridgeId → Bool} {now : Int} {p p' : BridgePool n ι} {a : Act ι}
    (h : p.step alive now a = some p') : Move alive now p a p' := by
  cases a with
  | call c =>
      simp only [step] at h
      split at h
      · next hc => cases h; exact .call hc
      · cases h
  | fetchAdd c =>
      simp only [step] at h
      split at h
      · next hc => cases h; exact .draw hc
      · cases h
  | readSlot c =>
      simp only [step] at h
      split at h
      · next hc =>
          split at h
          · split at h
            · next live => cases h; exact .readLive hc live
            · next dead => cases h; exact .readDead hc (Bool.eq_false_iff.mpr dead)
          · cases h
      · cases h
  | testCooldown c =>
      simp only [step] at h
      split at h
      · next hc =>
          split at h
          · cases h; exact .skip hc
          · next out => cases h; exact .passTest hc (Bool.eq_false_iff.mpr out)
      · cases h
  | lockSlot c =>
      simp only [step] at h
      split at h
      · next hc =>
          split at h
          · next free => cases h; exact .lock hc free
          · cases h
      · cases h
  | recheck c =>
      simp only [step] at h
      split at h
      · next hc =>
          split at h
          · cases h; exact .recheckLive hc
          · cases h; exact .startSpawn hc
      · cases h
  | spawnOk c =>
      simp only [step] at h
      split at h
      · next hc => cases h; exact .spawnOk hc
      · cases h
  | spawnErr c =>
      simp only [step] at h
      split at h
      · next hc => cases h; exact .spawnErr hc
      · cases h
  | markRespawnFailed c =>
      simp only [step] at h
      split at h
      · next hc => cases h; exact .mark hc
      · cases h
  | giveUp c =>
      simp only [step] at h
      split at h
      · next hc => cases h; exact .giveUp hc
      · cases h
  | cancel c =>
      simp only [step] at h
      split at h
      · next hc => cases h; exact .cancelRead hc
      · next hc => cases h; exact .cancelWrite hc
      · cases h

theorem Move.calls_other {alive : BridgeId → Bool} {now : Int} {p p' : BridgePool n ι}
    {a : Act ι} (h : Move alive now p a p') {c : ι} (hc : c ≠ a.actor) :
    p'.calls c = p.calls c := by
  cases h <;> exact Function.update_of_ne hc _ _

theorem locked_move {alive : BridgeId → Bool} {now : Int} {p p' : BridgePool n ι} {a : Act ι}
    (h : Locked p) (m : Move alive now p a p') : Locked p' := by
  cases m with
  | call hc => exact h.keep (by rw [held, hc]; rfl)
  | @draw c left hc => exact (h.move hc rfl : Locked (p.setCall c (.reading left _)))
  | readLive hc _ => exact h.move hc rfl
  | readDead hc _ => exact h.move hc rfl
  | skip hc => exact h.move hc rfl
  | passTest hc _ => exact h.move hc rfl
  | lock hc free => exact h.take hc rfl free rfl
  | recheckLive hc => exact h.release hc rfl rfl
  | startSpawn hc => exact h.move hc rfl
  | @spawnOk c left idx hc =>
      exact (h.release hc rfl rfl : Locked ((p.setCall c (.returned _)).setWriter idx none))
  | spawnErr hc => exact h.move hc rfl
  | @mark c left idx hc =>
      exact (h.release hc rfl rfl : Locked ((p.setCall c (.ticket left)).setWriter idx none))
  | giveUp hc => exact h.move hc rfl
  | cancelRead hc => exact h.move hc rfl
  | cancelWrite hc => exact h.move hc rfl

end BridgePool
end EvoclawPluginWechat
