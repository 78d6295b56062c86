import Mathlib.Tactic.Common

/-!
Guarded runs of a partial transition function. A run records the actions it
takes, so a statement can speak of the states passed on the way. The guard
carries the assumptions a theorem makes about every step of a run; the run with
the trivial guard is an arbitrary interleaving.
-/
namespace Transition
universe u v w
variable {σ : Type u} {α : Type v}

/-- The actions lead from the first state to the second, each one allowed by the
guard in the state where it is taken. -/
inductive Run (step : σ → α → Option σ) (allow : σ → α → Prop) : σ → List α → σ → Prop
  | nil (s : σ) : Run step allow s [] s
  | cons {s m t : σ} {a : α} {as : List α} :
      allow s a → step s a = some m → Run step allow m as t → Run step allow s (a :: as) t

def anyStep : σ → α → Prop := fun _ _ => True

def Reachable (step : σ → α → Option σ) (allow : σ → α → Prop) (init : σ → Prop)
    (t : σ) : Prop :=
  ∃ s as, init s ∧ Run step allow s as t

variable {step : σ → α → Option σ} {allow allow' : σ → α → Prop} {init : σ → Prop}

theorem Run.append {s m t : σ} {as bs : List α} (h : Run step allow s as m)
    (k : Run step allow m bs t) : Run step allow s (as ++ bs) t := by
  induction h with
  | nil _ => exact k
  | cons ha hs _ ih => exact .cons ha hs (ih k)

theorem Run.split {s t : σ} {as bs : List α} (h : Run step allow s (as ++ bs) t) :
    ∃ m, Run step allow s as m ∧ Run step allow m bs t := by
  induction as generalizing s with
  | nil => exact ⟨s, .nil s, h⟩
  | cons a as ih =>
      cases h with
      | cons ha hs hr =>
          obtain ⟨m, hl, hr⟩ := ih hr
          exact ⟨m, .cons ha hs hl, hr⟩

theorem Run.mono (weaker : ∀ s a, allow s a → allow' s a) {s t : σ} {as : List α}
    (h : Run step allow s as t) : Run step allow' s as t := by
  induction h with
  | nil s => exact .nil s
  | cons ha hs _ ih => exact .cons (weaker _ _ ha) hs ih

theorem Run.forall_mem {P : α → Prop} {s t : σ} {as : List α} (h : Run step allow s as t)
    (all : ∀ s a, allow s a → P a) : ∀ a ∈ as, P a := by
  induction h with
  | nil s => exact fun a ha => absurd ha List.not_mem_nil
  | cons own _ _ ih => exact List.forall_mem_cons.mpr ⟨all _ _ own, ih⟩

theorem Run.guard {s t : σ} {as : List α} (h : Run step anyStep s as t)
    (all : ∀ a ∈ as, ∀ s, allow s a) : Run step allow s as t := by
  induction h with
  | nil s => exact .nil s
  | cons _ hs _ ih =>
      have rest := ih fun a ha => all a (List.mem_cons_of_mem _ ha)
      exact .cons (all _ List.mem_cons_self _) hs rest

/-- An invariant of the run may serve to show that its steps are allowed. -/
theorem Run.strengthen {P : σ → Prop}
    (keeps : ∀ s a t, P s → allow s a → step s a = some t → P t)
    (allows : ∀ s a, P s → allow s a → allow' s a)
    {s t : σ} {as : List α} (h : Run step allow s as t) (hs : P s) : Run step allow' s as t := by
  induction h with
  | nil s => exact .nil s
  | cons ha hstep _ ih =>
      exact .cons (allows _ _ hs ha) hstep (ih (keeps _ _ _ hs ha hstep))

theorem Run.deterministic {s t t' : σ} {as : List α} (h : Run step allow s as t)
    (k : Run step allow' s as t') : t = t' := by
  induction h with
  | nil _ => cases k; rfl
  | cons _ hs _ ih =>
      cases k with
      | cons _ ks kr =>
          obtain rfl := Option.some.inj (hs.symm.trans ks)
          exact ih kr

theorem Run.and {s t : σ} {as : List α} (h : Run step allow s as t)
    (k : Run step allow' s as t) : Run step (fun s a => allow s a ∧ allow' s a) s as t := by
  induction h with
  | nil s => exact .nil s
  | cons ha hs _ ih =>
      cases k with
      | cons ka ks kr =>
          obtain rfl := Option.some.inj (hs.symm.trans ks)
          exact .cons ⟨ha, ka⟩ hs (ih kr)

theorem Run.invariant {P : σ → Prop}
    (keeps : ∀ s a t, P s → allow s a → step s a = some t → P t)
    {s t : σ} {as : List α} (h : Run step allow s as t) (hs : P s) : P t := by
  induction h with
  | nil _ => exact hs
  | cons ha hstep _ ih => exact ih (keeps _ _ _ hs ha hstep)

/-- A property of the states together with the actions that led to them. -/
theorem Run.history {P : List α → σ → Prop} {s t : σ} {as : List α}
    (keeps : ∀ as m a n, P as m → Run step allow s as m → allow m a → step m a = some n →
      P (as ++ [a]) n)
    (h : Run step allow s as t) (start : P [] s) : P as t := by
  have grow : ∀ {m t' : σ} {as}, Run step allow m as t' → ∀ bs, Run step allow s bs m → P bs m →
      P (bs ++ as) t' := by
    intro m t' as rest
    induction rest with
    | nil _ =>
        intro bs _ hb
        rwa [List.append_nil]
    | @cons m m' _ a _ ha hs _ ih =>
        intro bs before hb
        have longer := ih (bs ++ [a]) (before.append (.cons ha hs (.nil m')))
          (keeps bs m a m' hb before ha hs)
        rwa [List.append_assoc] at longer
  exact grow h [] (.nil s) start

/-- The run takes the action in this state. -/
def TakesIn (step : σ → α → Option σ) (allow : σ → α → Prop) (s : σ) (as : List α) (a : α)
    (m : σ) : Prop :=
  ∃ pre post, as = pre ++ a :: post ∧ Run step allow s pre m ∧ allow m a

theorem Run.takesIn {s m : σ} {as : List α} {a : α} (h : Run step allow s as m)
    (ha : allow m a) : TakesIn step allow s (as ++ [a]) a m :=
  ⟨as, [], rfl, h, ha⟩

theorem TakesIn.snoc {s m : σ} {as : List α} {a b : α} (h : TakesIn step allow s as a m) :
    TakesIn step allow s (as ++ [b]) a m := by
  obtain ⟨pre, post, rfl, rest⟩ := h
  exact ⟨pre, post ++ [b], by rw [List.append_assoc, List.cons_append], rest⟩

theorem TakesIn.lasts {P : σ → Prop} (keeps : ∀ s a t, P s → step s a = some t → P t)
    {s m t : σ} {as : List α} {a : α} (h : TakesIn step allow s as a m)
    (run : Run step allow s as t) (hm : P m) : P t := by
  obtain ⟨pre, post, rfl, before, _⟩ := h
  obtain ⟨m', hpre, rest⟩ := run.split
  obtain rfl := hpre.deterministic before
  exact rest.invariant (fun s a t hs _ => keeps s a t hs) hm

/-- A state along a run that ends where the step relation cannot leave `P` by any
other way than through `Q`: either `P` lasted, or some state on the way had `Q`. -/
theorem Run.passes {P Q : σ → Prop}
    (leaves : ∀ s a t, P s → allow s a → step s a = some t → P t ∨ Q s)
    {s t : σ} {as : List α} (h : Run step allow s as t) (hs : P s) :
    P t ∨ ∃ pre m post, as = pre ++ post ∧ Run step allow s pre m ∧ Q m := by
  induction h with
  | nil _ => exact .inl hs
  | @cons s m t a as ha hstep _ ih =>
      obtain hm | hq := leaves _ _ _ hs ha hstep
      · obtain ht | ⟨pre, m', post, rfl, hpre, hq⟩ := ih hm
        · exact .inl ht
        · exact .inr ⟨a :: pre, m', post, rfl, .cons ha hstep hpre, hq⟩
      · exact .inr ⟨[], s, a :: as, rfl, .nil s, hq⟩

theorem Run.throughout {P : σ → Prop} {s m t : σ} {as pre post : List α}
    (h : Run step (fun s _ => P s) s as t) (ht : P t) (split : as = pre ++ post)
    (k : Run step allow s pre m) : P m := by
  subst split
  obtain ⟨m', hl, hr⟩ := h.split
  obtain rfl := k.deterministic hl
  cases hr with
  | nil _ => exact ht
  | cons ha _ _ => exact ha

theorem Reachable.start {s : σ} (h : init s) : Reachable step allow init s :=
  ⟨s, [], h, .nil s⟩

theorem Reachable.run {s t : σ} {as : List α} (h : Reachable step allow init s)
    (k : Run step allow s as t) : Reachable step allow init t := by
  obtain ⟨r, bs, hr, hb⟩ := h
  exact ⟨r, bs ++ as, hr, hb.append k⟩

theorem Reachable.invariant {P : σ → Prop} (starts : ∀ s, init s → P s)
    (keeps : ∀ s a t, P s → allow s a → step s a = some t → P t)
    {s : σ} (h : Reachable step allow init s) : P s := by
  obtain ⟨r, as, hr, ha⟩ := h
  exact ha.invariant keeps (starts r hr)

section Simulation
variable {τ : Type u} {β : Type w} {step' : τ → β → Option τ} {allow₂ : τ → β → Prop}

/-- A view under which every step is a step of another system or leaves the view
as it was maps runs to runs. The steps may use an invariant of the source. -/
theorem Run.simulate (view : σ → τ) {P : σ → Prop}
    (keeps : ∀ s a t, P s → allow s a → step s a = some t → P t)
    (sim : ∀ s a t, P s → allow s a → step s a = some t →
      view t = view s ∨ ∃ b, allow₂ (view s) b ∧ step' (view s) b = some (view t))
    {s t : σ} {as : List α} (h : Run step allow s as t) (hs : P s) :
    ∃ bs, Run step' allow₂ (view s) bs (view t) := by
  induction h with
  | nil s => exact ⟨[], .nil _⟩
  | cons ha hstep _ ih =>
      obtain ⟨bs, hb⟩ := ih (keeps _ _ _ hs ha hstep)
      obtain same | ⟨b, hallow, hb'⟩ := sim _ _ _ hs ha hstep
      · exact ⟨bs, same ▸ hb⟩
      · exact ⟨b :: bs, .cons hallow hb' hb⟩

theorem Reachable.simulate (view : σ → τ) {P : σ → Prop} {init' : τ → Prop}
    (starts : ∀ s, init s → P s ∧ init' (view s))
    (keeps : ∀ s a t, P s → allow s a → step s a = some t → P t)
    (sim : ∀ s a t, P s → allow s a → step s a = some t →
      view t = view s ∨ ∃ b, allow₂ (view s) b ∧ step' (view s) b = some (view t))
    {s : σ} (h : Reachable step allow init s) :
    Reachable step' allow₂ init' (view s) := by
  obtain ⟨r, as, hr, ha⟩ := h
  obtain ⟨bs, hb⟩ := ha.simulate view keeps sim (starts r hr).1
  exact ⟨view r, bs, (starts r hr).2, hb⟩

/-- What a component does in a run, when each step of the whole makes it do `on`. -/
def project (step : σ → α → Option σ) (on : σ → α → List β) : σ → List α → List β
  | _, [] => []
  | s, a :: as => on s a ++ (step s a).elim [] fun m => project step on m as

theorem Run.project_run {on : σ → α → List β} (view : σ → τ) {P : σ → Prop}
    (keeps : ∀ s a t, P s → allow s a → step s a = some t → P t)
    (sim : ∀ s a t, P s → allow s a → step s a = some t →
      Run step' allow₂ (view s) (on s a) (view t))
    {s t : σ} {as : List α} (h : Run step allow s as t) (hs : P s) :
    Run step' allow₂ (view s) (project step on s as) (view t) := by
  induction h with
  | nil s => exact .nil _
  | cons ha hstep _ ih =>
      rw [project, hstep]
      exact (sim _ _ _ hs ha hstep).append (ih (keeps _ _ _ hs ha hstep))

end Simulation

section Execution

/-- Evaluate a run whose guard is decidable; `none` when an action is refused. -/
def execIf (step : σ → α → Option σ) (allow : σ → α → Prop)
    [∀ s a, Decidable (allow s a)] : σ → List α → Option σ
  | s, [] => some s
  | s, a :: as => if allow s a then (step s a).bind fun m => execIf step allow m as else none

theorem run_of_execIf [∀ s a, Decidable (allow s a)] {s t : σ} {as : List α}
    (h : execIf step allow s as = some t) : Run step allow s as t := by
  induction as generalizing s with
  | nil =>
      obtain rfl : s = t := Option.some.inj h
      exact .nil s
  | cons a as ih =>
      simp only [execIf] at h
      split at h
      · next ha =>
          obtain ⟨m, hm, hrest⟩ := Option.bind_eq_some_iff.mp h
          exact .cons ha hm (ih hrest)
      · cases h

def exec (step : σ → α → Option σ) : σ → List α → Option σ
  | s, [] => some s
  | s, a :: as => (step s a).bind fun m => exec step m as

theorem run_iff_exec {s t : σ} {as : List α} :
    Run step anyStep s as t ↔ exec step s as = some t := by
  induction as generalizing s with
  | nil =>
      refine ⟨fun h => by cases h; rfl, fun h => ?_⟩
      obtain rfl : s = t := Option.some.inj h
      exact .nil s
  | cons a as ih =>
      simp only [exec, Option.bind_eq_some_iff]
      constructor
      · intro h
        cases h with
        | cons _ hs hr => exact ⟨_, hs, ih.mp hr⟩
      · rintro ⟨m, hs, hr⟩
        exact .cons trivial hs (ih.mpr hr)

end Execution
end Transition
