import EvoclawPluginWechat.Properties.PoolLocks

/-!
When `checkout` gives up. Every call draws from one counter, so the slots a call looks
at depend on how many tickets other calls draw in between. A call that has drawn a
ticket for each slot fails only after it has found each slot dead.
-/
namespace EvoclawPluginWechat
namespace PoolRun
open Transition BridgePool

variable {n : Nat} [NeZero n] {ι : Type} [DecidableEq ι]

/-- Some state on the way has the property. -/
def During (s : PoolRun n ι) (as : List (Act ι)) (P : PoolRun n ι → Prop) : Prop :=
  ∃ pre post m, as = pre ++ post ∧ Run step anyStep s pre m ∧ P m

/-- The call draws a ticket for the slot on the way. -/
def Draws (s : PoolRun n ι) (as : List (Act ι)) (c : ι) (idx : Fin n) : Prop :=
  ∃ pre post m, as = pre ++ .pool (.fetchAdd c) :: post ∧ Run step anyStep s pre m ∧
    slotOf m.pool.next = idx

theorem move_of_pool_step {s s' : PoolRun n ι} {a : BridgePool.Act ι}
    (h : s.step (.pool a) = some s') : Move s.alive s.now s.pool a s'.pool := by
  obtain ⟨p, hp, rfl⟩ := Option.map_eq_some_iff.mp h
  exact move_of_step hp

/-- The call looks at the slot next, or is over without an error. -/
def visits (idx : Fin n) : CheckoutPhase n → Prop
  | .reading _ i => i = idx
  | .returned (.ok _) | .dropped => True
  | _ => False

theorem visits_move {alive : BridgeId → Bool} {now : Int} {p p' : BridgePool n ι}
    {a : BridgePool.Act ι} {idx : Fin n} {phase : CheckoutPhase n} (m : Move alive now p a p')
    (hc : p.calls a.actor = some phase) (hv : visits idx phase) :
    (∃ phase', p'.calls a.actor = some phase' ∧ visits idx phase') ∨
      alive (p.slots idx) = false := by
  -- a call in any other phase does not have `visits`
  have other : ∀ {ph}, p.calls a.actor = some ph → ¬ visits idx ph →
      (∃ phase', p'.calls a.actor = some phase' ∧ visits idx phase') ∨
        alive (p.slots idx) = false := by
    intro ph hph hn
    obtain rfl := Option.some.inj (hc.symm.trans hph)
    exact absurd hv hn
  cases m with
  | call h => exact absurd (hc.symm.trans h) (by simp)
  | draw h => exact other h id
  | readLive h _ => exact .inl ⟨_, Function.update_self .., trivial⟩
  | readDead h dead =>
      obtain rfl := Option.some.inj (hc.symm.trans h)
      obtain rfl := hv
      exact .inr dead
  | skip h => exact other h id
  | passTest h _ => exact other h id
  | lock h _ => exact other h id
  | recheckLive h => exact other h id
  | startSpawn h => exact other h id
  | spawnOk h => exact other h id
  | spawnErr h => exact other h id
  | mark h => exact other h id
  | giveUp h => exact other h id
  | cancelRead h => exact .inl ⟨_, Function.update_self .., trivial⟩
  | cancelWrite h => exact .inl ⟨_, Function.update_self .., trivial⟩

theorem visits_step {s s' : PoolRun n ι} {c : ι} {idx : Fin n} (a : Act ι)
    (h : ∃ phase, s.pool.calls c = some phase ∧ visits idx phase)
    (hs : s.step a = some s') :
    (∃ phase, s'.pool.calls c = some phase ∧ visits idx phase) ∨ s.SlotDead idx := by
  obtain ⟨phase, hc, hv⟩ := h
  cases a with
  | pool a =>
      have m := move_of_pool_step hs
      by_cases hact : c = a.actor
      · subst hact
        exact visits_move m hc hv
      · exact .inl ⟨phase, (m.calls_other hact).trans hc, hv⟩
  | die b => cases hs; exact .inl ⟨phase, hc, hv⟩
  | tick d => cases hs; exact .inl ⟨phase, hc, hv⟩

theorem reading_of_fetchAdd {alive : BridgeId → Bool} {now : Int} {p p' : BridgePool n ι}
    {c : ι} (m : Move alive now p (.fetchAdd c) p') :
    ∃ left, p'.calls c = some (.reading left (slotOf p.next)) := by
  cases m with
  | draw _ => exact ⟨_, Function.update_self ..⟩

/-- Whatever the other calls do, whatever the counter and the bridges: if a call returns
an error and has drawn a ticket for every slot by then, every slot was dead at some
moment of the call. -/
theorem checkout_err_of_drawn {s t : PoolRun n ι} {c : ι} {as : List (Act ι)}
    {e : PluginError} (run : Run step anyStep s as t)
    (failed : t.pool.calls c = some (.returned (.error e)))
    (drawn : ∀ idx, s.Draws as c idx) : ∀ idx, s.During as (SlotDead · idx) := by
  intro idx
  obtain ⟨pre, post, m, rfl, hpre, hidx⟩ := drawn idx
  obtain ⟨m', hpre', hrest⟩ := run.split
  obtain rfl := hpre.deterministic hpre'
  cases hrest with
  | @cons _ m₁ _ _ _ _ hstep hpost =>
      obtain ⟨left, hread⟩ := reading_of_fetchAdd (move_of_pool_step hstep)
      obtain ⟨phase, hc, hv⟩ | ⟨as₁, m₂, as₂, rfl, hm, dead⟩ :=
        hpost.passes (fun _ a _ h _ hs => visits_step a h hs) ⟨_, hread, hidx⟩
      · obtain rfl := Option.some.inj (failed.symm.trans hc)
        exact hv.elim
      · exact ⟨pre ++ .pool (.fetchAdd c) :: as₁, as₂, m₂, by simp,
          hpre.append (.cons trivial hstep hm), dead⟩

section Examples

/-- One iteration of a call on a slot it finds dead, while respawns are cooling down. -/
def skipSlot (c : Nat) : List (Act Nat) :=
  [.pool (.fetchAdd c), .pool (.readSlot c), .pool (.testCooldown c)]

/-- One iteration of a call on a dead slot whose respawn fails. -/
def failSlot (c : Nat) : List (Act Nat) :=
  [.pool (.fetchAdd c), .pool (.readSlot c), .pool (.testCooldown c), .pool (.lockSlot c),
    .pool (.recheck c), .pool (.spawnErr c), .pool (.markRespawnFailed c)]

/-- A whole call that finds a live bridge in the first slot it looks at. -/
def takeLive (c : Nat) : List (Act Nat) :=
  [.pool (.call c), .pool (.fetchAdd c), .pool (.readSlot c)]

def noneAlive : PoolRun 1 Nat := ⟨.new, fun _ => false, 0⟩

def bothDead : PoolRun 2 Nat := ⟨.new, fun _ => false, 0⟩

/-- Call 0 draws for the first slot. -/
def drawsFirst : List (Act Nat) := [.pool (.call 0), .pool (.call 1)] ++ failSlot 0

/-- Call 1 draws the two tickets that follow. -/
def drawsBetween : List (Act Nat) := drawsFirst ++ skipSlot 1 ++ skipSlot 1

/-- Then call 0 draws for the second slot, and fails in the end. -/
def interleaved : List (Act Nat) :=
  drawsBetween ++ skipSlot 0 ++ skipSlot 1 ++ skipSlot 0 ++ skipSlot 0 ++ [.pool (.giveUp 0)]

theorem checkout_err_of_drawn_two_slots :
    bothDead.During interleaved (SlotDead · 0) ∧ bothDead.During interleaved (SlotDead · 1) := by
  have run := run_iff_exec.mpr (rfl : exec step bothDead interleaved = some _)
  have first := run_iff_exec.mpr
    (rfl : exec step bothDead [.pool (.call 0), .pool (.call 1)] = some _)
  have second := run_iff_exec.mpr (rfl : exec step bothDead drawsBetween = some _)
  refine Fin.forall_fin_two.mp
    (checkout_err_of_drawn (c := 0) run rfl (Fin.forall_fin_two.mpr ⟨?_, ?_⟩))
  · exact ⟨_, _, _, rfl, first, rfl⟩
  · exact ⟨_, _, _, rfl, second, rfl⟩

/-- Two slots, the first one dead and beyond respawn, the second one live. -/
def secondAlive : PoolRun 2 Nat := ⟨.new, fun b => b == 1, 0⟩

/-- Call 0 draws every other ticket, the calls 1 to 3 draw those between. -/
def alternating : List (Act Nat) :=
  .pool (.call 0) :: failSlot 0 ++ takeLive 1 ++ skipSlot 0 ++ takeLive 2 ++ skipSlot 0 ++
    takeLive 3 ++ skipSlot 0 ++ [.pool (.giveUp 0)]

/-- A call fails although the second slot holds a live bridge all the time. -/
theorem checkout_err_beside_live_slot :
    ∃ t e, Run step anyStep secondAlive alternating t ∧
      t.pool.calls 0 = some (.returned (.error e)) ∧
      ¬ secondAlive.During alternating (SlotDead · 1) := by
  have run := run_of_execIf (rfl : execIf step (fun s _ => s.alive (s.pool.slots 1) = true)
    secondAlive alternating = some _)
  refine ⟨_, _, run.mono fun _ _ _ => trivial, rfl, ?_⟩
  intro ⟨pre, post, m, split, hpre, dead⟩
  have live := run.throughout (P := fun s => s.alive (s.pool.slots 1) = true) rfl split hpre
  change m.alive (m.pool.slots 1) = false at dead
  rw [live] at dead
  cases dead

end Examples
end PoolRun
end EvoclawPluginWechat
