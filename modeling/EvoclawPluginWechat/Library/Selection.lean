import Mathlib.Tactic.Common

/-!
Two selections from one list, cut to the same length, where one predicate is stricter than
the other: they agree as long as no element that the stricter one leaves out comes before
the cut. And the first element that a property leaves out.
-/
namespace Selection
universe u
variable {α : Type u} {p q : α → Bool}

/-- An element is left out with fewer than `n` selected ones before it. -/
def Misplaced (p q : α → Bool) (n : Nat) (l : List α) : Prop :=
  ∃ pre x post, l = pre ++ x :: post ∧ p x = true ∧ q x = false ∧ (pre.filter q).length < n

theorem length_filter_cons (x : α) (l : List α) :
    ((x :: l).filter q).length = ([x].filter q).length + (l.filter q).length := by
  rw [← List.length_append, ← List.filter_append, List.singleton_append]

theorem misplaced_cons {n : Nat} {x : α} {l : List α} :
    Misplaced p q n (x :: l) ↔ p x = true ∧ q x = false ∧ 0 < n ∨
      Misplaced p q (n - ([x].filter q).length) l := by
  constructor
  · rintro ⟨pre, y, post, split, hp, hq, short⟩
    cases pre with
    | nil =>
        obtain ⟨rfl, rfl⟩ := List.cons.inj split
        exact .inl ⟨hp, hq, short⟩
    | cons z pre =>
        obtain ⟨rfl, rfl⟩ := List.cons.inj split
        refine .inr ⟨pre, y, post, rfl, hp, hq, ?_⟩
        rw [length_filter_cons] at short
        omega
  · rintro (⟨hp, hq, short⟩ | ⟨pre, y, post, rfl, hp, hq, short⟩)
    · exact ⟨[], x, l, rfl, hp, hq, short⟩
    · refine ⟨x :: pre, y, post, rfl, hp, hq, ?_⟩
      rw [length_filter_cons]
      omega

theorem filter_eq_iff {l : List α} (stricter : ∀ x ∈ l, q x = true → p x = true) :
    l.filter p = l.filter q ↔ ∀ x ∈ l, p x = true → q x = true := by
  constructor
  · intro same x hx hp
    have selected : x ∈ l.filter p := List.mem_filter.mpr ⟨hx, hp⟩
    rw [same] at selected
    exact (List.mem_filter.mp selected).2
  · intro all
    apply List.filter_congr
    intro x hx
    exact Bool.eq_iff_iff.mpr ⟨all x hx, stricter x hx⟩

theorem take_filter_eq_iff {l : List α} (stricter : ∀ x ∈ l, q x = true → p x = true)
    (n : Nat) : (l.filter p).take n = (l.filter q).take n ↔ ¬ Misplaced p q n l := by
  induction l generalizing n with
  | nil =>
      refine iff_of_true rfl ?_
      rintro ⟨pre, x, post, split, _⟩
      simp at split
  | cons x l ih =>
      have rest := ih (fun y hy => stricter y (List.mem_cons_of_mem _ hy))
      rw [misplaced_cons]
      cases hp : p x with
      | false =>
          have hq : q x = false :=
            Bool.eq_false_iff.mpr fun h => by cases hp.symm.trans (stricter x List.mem_cons_self h)
          simpa [hp, hq] using rest n
      | true =>
          cases n with
          | zero =>
              simpa using rest 0
          | succ n =>
              cases hq : q x with
              | true => simpa [hp, hq] using rest n
              | false =>
                  refine iff_of_false ?_ (fun h => h (.inl ⟨rfl, rfl, Nat.succ_pos n⟩))
                  rw [List.filter_cons_of_pos hp, List.filter_cons_of_neg (by simp [hq]),
                    List.take_succ_cons]
                  intro same
                  have selected : x ∈ (l.filter q).take (n + 1) := same ▸ List.mem_cons_self
                  have := (List.mem_filter.mp (List.mem_of_mem_take selected)).2
                  cases hq.symm.trans this

section First

theorem all_or_first (P : α → Prop) (l : List α) : (∀ x ∈ l, P x) ∨
    ∃ pre x post, l = pre ++ x :: post ∧ (∀ y ∈ pre, P y) ∧ ¬ P x := by
  induction l with
  | nil => exact .inl fun x hx => absurd hx List.not_mem_nil
  | cons x l ih =>
      by_cases hx : P x
      · obtain all | ⟨pre, y, post, rfl, before, hy⟩ := ih
        · exact .inl (List.forall_mem_cons.mpr ⟨hx, all⟩)
        · exact .inr ⟨x :: pre, y, post, rfl, List.forall_mem_cons.mpr ⟨hx, before⟩, hy⟩
      · exact .inr ⟨[], x, l, rfl, fun y hy => absurd hy List.not_mem_nil, hx⟩

end First

section Shortest
variable {P Q : List α → Prop} {l s s' : List α} {x : α}

/-- The shortest beginning of the list that has the property. -/
def Shortest (P : List α → Prop) (l s : List α) : Prop :=
  s <+: l ∧ P s ∧ ∀ p, p <+: s → P p → p = s

theorem shortest_congr (h : ∀ p, P p ↔ Q p) : Shortest P l s ↔ Shortest Q l s := by
  simp only [Shortest, h]

theorem shortest_of_nil (h : P []) : Shortest P l s ↔ s = [] := by
  constructor
  · rintro ⟨_, _, least⟩
    exact (least [] List.nil_prefix h).symm
  · rintro rfl
    exact ⟨List.nil_prefix, h, fun p hp _ => List.prefix_nil.mp hp⟩

theorem not_shortest_nil (h : ¬ P []) : ¬ Shortest P [] s := by
  rintro ⟨start, hs, _⟩
  exact h (List.prefix_nil.mp start ▸ hs)

theorem shortest_cons (h : ¬ P []) : Shortest P (x :: l) s ↔
    ∃ t, Shortest (fun t => P (x :: t)) l t ∧ x :: t = s := by
  constructor
  · rintro ⟨start, hs, least⟩
    obtain rfl | ⟨t, rfl, ht⟩ := List.prefix_cons_iff.mp start
    · exact absurd hs h
    · refine ⟨t, ⟨ht, hs, fun p hp hP => ?_⟩, rfl⟩
      exact (List.cons.inj (least (x :: p) ((List.prefix_cons_inj x).mpr hp) hP)).2
  · rintro ⟨t, ⟨ht, hs, least⟩, rfl⟩
    refine ⟨(List.prefix_cons_inj x).mpr ht, hs, fun p hp hP => ?_⟩
    obtain rfl | ⟨q, rfl, hq⟩ := List.prefix_cons_iff.mp hp
    · exact absurd hP h
    · rw [least q hq hP]

end Shortest

end Selection
