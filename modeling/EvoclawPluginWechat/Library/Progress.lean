import EvoclawPluginWechat.Library.Runs

/-!
Runs that come to an end. Steps of one kind pay from a rank that no step raises, so a run
has only so many of them; where every step pays, a run can be continued only so far, and what
cannot be continued is stuck.
-/
namespace Transition
universe u v
variable {σ : Type u} {α : Type v} {step : σ → α → Option σ} {allow : σ → α → Prop}
variable {P : σ → Prop} {rank : σ → Nat} {own : α → Bool}

/-- Where `P` holds, no step raises the rank, and the own ones lower it. -/
def Pays (step : σ → α → Option σ) (allow : σ → α → Prop) (P : σ → Prop) (rank : σ → Nat)
    (own : α → Bool) : Prop :=
  ∀ s a t, P s → allow s a → step s a = some t → rank t + (if own a then 1 else 0) ≤ rank s

def Stuck (step : σ → α → Option σ) (allow : σ → α → Prop) (s : σ) : Prop :=
  ∀ a, allow s a → step s a = none

theorem Run.countP_le (keeps : ∀ s a t, P s → allow s a → step s a = some t → P t)
    (pays : Pays step allow P rank own) {s t : σ} {as : List α} (run : Run step allow s as t)
    (hs : P s) : as.countP own + rank t ≤ rank s := by
  induction run with
  | nil s => simp
  | @cons s m t a as ha hstep _ ih =>
      have rest := ih (keeps s a m hs ha hstep)
      have paid := pays s a m hs ha hstep
      rw [List.countP_cons]
      omega

/-- Where every step is an own one, the rank bounds the length of a run. -/
theorem Run.length_le (keeps : ∀ s a t, P s → allow s a → step s a = some t → P t)
    (pays : Pays step allow P rank fun _ => true) {s t : σ} {as : List α}
    (run : Run step allow s as t) (hs : P s) : as.length ≤ rank s := by
  have counted := run.countP_le keeps pays hs
  rw [List.countP_true] at counted
  omega

/-- Taking steps as long as there are any ends in a stuck state. -/
theorem exists_stuck (keeps : ∀ s a t, P s → allow s a → step s a = some t → P t)
    (pays : Pays step allow P rank fun _ => true) {s : σ} (hs : P s) :
    ∃ as t, Run step allow s as t ∧ Stuck step allow t := by
  induction h : rank s using Nat.strongRecOn generalizing s with
  | _ k ih =>
      by_cases stuck : Stuck step allow s
      · exact ⟨[], s, .nil s, stuck⟩
      · obtain ⟨a, ha⟩ := not_forall.mp stuck
        obtain ⟨allowed, taken⟩ := Classical.not_imp.mp ha
        obtain ⟨m, hm⟩ := Option.ne_none_iff_exists'.mp taken
        have paid := pays s a m hs allowed hm
        rw [if_pos rfl] at paid
        obtain ⟨as, t, run, last⟩ := ih (rank m) (by omega) (keeps s a m hs allowed hm) rfl
        exact ⟨a :: as, t, .cons allowed hm run, last⟩

end Transition
