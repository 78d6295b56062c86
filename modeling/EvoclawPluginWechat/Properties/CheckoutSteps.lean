import EvoclawPluginWechat.Properties.PoolLocks

/-!
The steps of a checkout call: there are only so many of them, and one that waits for no lock
can go on.
-/
namespace EvoclawPluginWechat

def CheckoutPhase.stepsLeft {n : Nat} : CheckoutPhase n → Nat
  | .ticket left => 7 * left + 1
  | .reading left _ => 7 * left + 7
  | .slotDead left _ => 7 * left + 6
  | .writeWait left _ => 7 * left + 5
  | .locked left _ => 7 * left + 4
  | .spawning left _ => 7 * left + 3
  | .spawnFailed left _ => 7 * left + 2
  | .returned _ | .dropped => 0

/-- The slot whose lock a call in this phase waits for. -/
def CheckoutPhase.waitsFor {n : Nat} : CheckoutPhase n → Option (Fin n)
  | .reading _ idx | .writeWait _ idx => some idx
  | _ => none

theorem CheckoutPhase.waitsFor_of_holds {n : Nat} {ph : CheckoutPhase n} {idx : Fin n}
    (h : ph.holds = some idx) : ph.waitsFor = none ∧ 0 < ph.stepsLeft := by
  cases ph with
  | locked | spawning | spawnFailed => exact ⟨rfl, Nat.succ_pos _⟩
  | _ => cases h

namespace BridgePool
variable {n : Nat} {ι : Type} [DecidableEq ι] [NeZero n]
variable {alive : BridgeId → Bool} {now : Int} {p p' : BridgePool n ι} {a : Act ι}

/-- A call in its loop pays for its step; it is dropped by nobody but its caller. -/
theorem Move.charge (m : Move alive now p a p') (nocall : ∀ c, a ≠ .call c)
    (nocancel : ∀ c, a ≠ .cancel c) :
    ∃ ph ph', p.calls a.actor = some ph ∧ p'.calls a.actor = some ph' ∧ ph' ≠ .dropped ∧
      ph'.stepsLeft < ph.stepsLeft := by
  have moves : ∀ {c : ι} {ph ph' : CheckoutPhase n} {q : BridgePool n ι}, p.calls c = some ph →
      q.calls = Function.update p.calls c (some ph') → ph' ≠ .dropped →
      ph'.stepsLeft < ph.stepsLeft →
      ∃ ph ph', p.calls c = some ph ∧ q.calls c = some ph' ∧ ph' ≠ .dropped ∧
        ph'.stepsLeft < ph.stepsLeft := by
    intro c ph ph' q hc calls kept pays
    exact ⟨ph, ph', hc, by rw [calls, Function.update_self], kept, pays⟩
  cases m with
  | call _ => exact absurd rfl (nocall _)
  | cancelRead _ | cancelWrite _ => exact absurd rfl (nocancel _)
  | draw hc | readLive hc _ | readDead hc _ | skip hc | passTest hc _ | lock hc _ | recheckLive hc
  | startSpawn hc | spawnOk hc | spawnErr hc | mark hc | giveUp hc =>
      exact moves hc rfl (by simp) (by simp only [CheckoutPhase.stepsLeft]; omega)

theorem call_eq_some {c : ι} (h : p.step alive now (.call c) = some p') :
    p.calls c = none ∧ p'.calls = Function.update p.calls c (some (.ticket (n * 2))) := by
  cases move_of_step h with
  | call hc => exact ⟨hc, rfl⟩

theorem cancel_eq_some {c : ι} (h : p.step alive now (.cancel c) = some p') :
    p'.calls = Function.update p.calls c (some .dropped) := by
  cases move_of_step h with
  | cancelRead _ | cancelWrite _ => rfl

def Act.inLoop : Act ι → Bool
  | .call _ | .cancel _ => false
  | _ => true

/-- A call in its loop can go on, unless it waits for a lock that is held. -/
theorem own_step (alive : BridgeId → Bool) (now : Int) {c : ι} {ph : CheckoutPhase n}
    (hc : p.calls c = some ph) (more : 0 < ph.stepsLeft)
    (free : ∀ idx, ph.waitsFor = some idx → p.writer idx = none) :
    ∃ op : Act ι, op.actor = c ∧ op.inLoop = true ∧ (p.step alive now op).isSome = true := by
  cases ph with
  | ticket left =>
      cases left with
      | zero => exact ⟨.giveUp c, rfl, rfl, by simp [step, hc]⟩
      | succ left => exact ⟨.fetchAdd c, rfl, rfl, by simp [step, hc]⟩
  | reading left idx =>
      refine ⟨.readSlot c, rfl, rfl, ?_⟩
      cases live : alive (p.slots idx) <;> simp [step, hc, free idx rfl, live]
  | slotDead left idx =>
      refine ⟨.testCooldown c, rfl, rfl, ?_⟩
      cases cool : p.inRespawnCooldown now <;> simp [step, hc, cool]
  | writeWait left idx => exact ⟨.lockSlot c, rfl, rfl, by simp [step, hc, free idx rfl]⟩
  | locked left idx =>
      refine ⟨.recheck c, rfl, rfl, ?_⟩
      cases live : alive (p.slots idx) <;> simp [step, hc, live]
  | spawning left idx => exact ⟨.spawnErr c, rfl, rfl, by simp [step, hc]⟩
  | spawnFailed left idx => exact ⟨.markRespawnFailed c, rfl, rfl, by simp [step, hc]⟩
  | returned _ | dropped => exact absurd more (Nat.lt_irrefl 0)

theorem some_step (alive : BridgeId → Bool) (now : Int) (hl : Locked p) {c : ι}
    {ph : CheckoutPhase n} (hc : p.calls c = some ph) (more : 0 < ph.stepsLeft) :
    ∃ op : Act ι, op.inLoop = true ∧ (p.step alive now op).isSome = true := by
  by_cases free : ∀ idx, ph.waitsFor = some idx → p.writer idx = none
  · obtain ⟨op, _, goes⟩ := own_step alive now hc more free
    exact ⟨op, goes⟩
  · obtain ⟨idx, blocked⟩ := not_forall.mp free
    obtain ⟨_, writes⟩ := Classical.not_imp.mp blocked
    obtain ⟨d, hd⟩ := Option.ne_none_iff_exists'.mp writes
    obtain ⟨ph', hc', holds⟩ := Option.bind_eq_some_iff.mp ((hl idx d).mp hd)
    obtain ⟨waits, more'⟩ := CheckoutPhase.waitsFor_of_holds holds
    obtain ⟨op, _, goes⟩ := own_step alive now hc' more' (by simp [waits])
    exact ⟨op, goes⟩

end BridgePool
end EvoclawPluginWechat
