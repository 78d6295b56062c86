import Mathlib.Algebra.GroupWithZero.Nat
import Mathlib.Data.List.Basic

/-!
Search for a pattern in a sequence: the first occurrence, the pieces between the
occurrences found from left to right without overlap, and their replacement.
-/
namespace Pattern
universe u
variable {α : Type u} [DecidableEq α]

def find (pat : List α) : List α → Option Nat
  | [] => if pat = [] then some 0 else none
  | x :: xs => if pat <+: x :: xs then some 0 else (find pat xs).map (· + 1)

/-- The pieces of what follows the next `skip` elements. -/
def splitFrom (pat : List α) : Nat → List α → List (List α)
  | _, [] => [[]]
  | skip + 1, _ :: xs => splitFrom pat skip xs
  | 0, x :: xs =>
      if pat <+: x :: xs then [] :: splitFrom pat (pat.length - 1) xs
      else (splitFrom pat 0 xs).modifyHead (x :: ·)

/-- The pieces between the occurrences of a non-empty pattern. -/
def split (pat : List α) (xs : List α) : List (List α) := splitFrom pat 0 xs

def replace (pat new : List α) (xs : List α) : List α := new.intercalate (split pat xs)

theorem find_of_start {pat xs : List α} (h : pat <+: xs) : find pat xs = some 0 := by
  cases xs with
  | nil => exact if_pos (List.prefix_nil.mp h)
  | cons x xs => exact if_pos h

theorem find_cons {pat xs : List α} {x : α} (h : ¬ pat <+: x :: xs) :
    find pat (x :: xs) = (find pat xs).map (· + 1) :=
  if_neg h

theorem find_append {p : α} {pat xs : List α} (h : p ∉ xs) (ys : List α) :
    find (p :: pat) (xs ++ ys) = (find (p :: pat) ys).map (· + xs.length) := by
  induction xs with
  | nil => simp
  | cons x xs ih =>
      rw [List.mem_cons, not_or] at h
      have not_here : ¬ p :: pat <+: x :: (xs ++ ys) := fun here =>
        h.1 (List.cons_prefix_cons.mp here).1
      rw [List.cons_append, find_cons not_here, ih h.2, Option.map_map, List.length_cons]
      rfl

theorem find_segment {p q : α} {pat xs : List α} (h : p ∉ xs) {ys : List α}
    (next : (xs ++ ys).head? ≠ some q) :
    find (p :: q :: pat) (p :: (xs ++ ys)) =
      (find (p :: q :: pat) ys).map (· + (xs.length + 1)) := by
  have not_here : ¬ p :: q :: pat <+: p :: (xs ++ ys) := by
    rintro ⟨rest, same⟩
    rw [← (List.cons.inj same).2] at next
    exact next rfl
  rw [find_cons not_here, find_append h, Option.map_map]
  rfl

theorem find_block {pat xs ys : List α}
    (h : ∀ c, c <:+ xs → c ≠ [] → ¬ pat <+: c ++ ys) :
    find pat (xs ++ ys) = (find pat ys).map (· + xs.length) := by
  induction xs with
  | nil => simp
  | cons x xs ih =>
      have not_here : ¬ pat <+: x :: (xs ++ ys) := h (x :: xs) List.suffix_rfl (by simp)
      rw [List.cons_append, find_cons not_here,
        ih fun c hc => h c (hc.trans (List.suffix_cons x xs)), Option.map_map, List.length_cons]
      rfl

theorem find_eq_none {pat xs : List α} : find pat xs = none ↔ ¬ pat <:+: xs := by
  induction xs with
  | nil => simp [find]
  | cons x xs ih =>
      rw [List.infix_cons_iff, not_or]
      by_cases here : pat <+: x :: xs
      · simp [find_of_start here, here]
      · rw [find_cons here, Option.map_eq_none_iff, ih]
        simp [here]

theorem find_eq_some {pat xs : List α} {i : Nat} (h : find pat xs = some i) :
    ∃ front back, xs = front ++ (pat ++ back) ∧ front.length = i := by
  induction xs generalizing i with
  | nil =>
      obtain ⟨rfl, rfl⟩ : pat = [] ∧ 0 = i := by simpa [find] using h
      exact ⟨[], [], rfl, rfl⟩
  | cons x xs ih =>
      by_cases here : pat <+: x :: xs
      · obtain ⟨back, whole⟩ := here
        rw [find_of_start ⟨back, whole⟩, Option.some.injEq] at h
        exact ⟨[], back, whole.symm, h⟩
      · rw [find_cons here, Option.map_eq_some_iff] at h
        obtain ⟨j, found, rfl⟩ := h
        obtain ⟨front, back, rfl, rfl⟩ := ih found
        exact ⟨x :: front, back, rfl, rfl⟩

theorem find_le {pat xs : List α} {i : Nat} (h : find pat xs = some i) :
    i + pat.length ≤ xs.length := by
  obtain ⟨front, back, rfl, rfl⟩ := find_eq_some h
  simp only [List.length_append]
  omega

theorem infix_of_find {pat xs : List α} {i : Nat} (h : find pat xs = some i) : pat <:+: xs := by
  obtain ⟨front, back, rfl, _⟩ := find_eq_some h
  exact ⟨front, back, List.append_assoc front pat back⟩

theorem find_of_infix {pat xs : List α} (h : pat <:+: xs) : ∃ i, find pat xs = some i := by
  cases found : find pat xs with
  | none => exact absurd h (find_eq_none.mp found)
  | some i => exact ⟨i, rfl⟩

theorem not_infix_take_of_find {pat xs : List α} {i : Nat} (nonempty : pat ≠ [])
    (h : find pat xs = some i) : ¬ pat <:+: xs.take i := by
  induction xs generalizing i with
  | nil => simpa using nonempty
  | cons x xs ih =>
      by_cases here : pat <+: x :: xs
      · rw [find_of_start here, Option.some.injEq] at h
        simpa [← h] using nonempty
      · rw [find_cons here, Option.map_eq_some_iff] at h
        obtain ⟨j, found, rfl⟩ := h
        rw [List.take_succ_cons, List.infix_cons_iff, not_or]
        refine ⟨fun start => here (start.trans ?_), ih found⟩
        exact List.cons_prefix_cons.mpr ⟨rfl, List.take_prefix j xs⟩

theorem find_append_of_some {pat xs : List α} {i : Nat} (h : find pat xs = some i)
    (ys : List α) : find pat (xs ++ ys) = some i := by
  induction xs generalizing i with
  | nil =>
      obtain ⟨rfl, rfl⟩ : pat = [] ∧ 0 = i := by simpa [find] using h
      exact find_of_start List.nil_prefix
  | cons x xs ih =>
      by_cases here : pat <+: x :: xs
      · rw [find_of_start here] at h
        rw [← h]
        exact find_of_start (here.trans (List.prefix_append _ ys))
      · have found := h
        rw [find_cons here, Option.map_eq_some_iff] at found
        obtain ⟨j, found, rfl⟩ := found
        have not_here : ¬ pat <+: x :: (xs ++ ys) := by
          intro start
          obtain ⟨front, back, whole, _⟩ := find_eq_some h
          have shorter : pat.length ≤ (x :: xs).length := by
            rw [whole, List.length_append, List.length_append]
            omega
          exact here
            (List.prefix_of_prefix_length_le start (List.prefix_append (x :: xs) ys) shorter)
        rw [List.cons_append, find_cons not_here, ih found]
        rfl

omit [DecidableEq α] in
theorem prefix_of_prefix_append_stop {pat xs ys : List α} {stop : α} (h : stop ∉ pat)
    (start : pat <+: xs ++ stop :: ys) : pat <+: xs := by
  obtain inside | ⟨rest, rfl⟩ :=
    List.prefix_or_prefix_of_prefix start (List.prefix_append xs (stop :: ys))
  · exact inside
  · cases rest with
    | nil => simp
    | cons z rest =>
        have next := (List.prefix_append_right_inj xs).mp start
        obtain rfl := (List.cons_prefix_cons.mp next).1
        exact absurd (by simp) h

theorem find_append_stop {pat xs : List α} {stop : α} (h : stop ∉ pat) (ys : List α) :
    find pat (xs ++ stop :: ys) =
      (find pat xs).or ((find pat (stop :: ys)).map (· + xs.length)) := by
  cases found : find pat xs with
  | some i => rw [find_append_of_some found, Option.some_or]
  | none =>
      rw [Option.none_or]
      rw [find_eq_none] at found
      refine find_block fun c hc _ start => found ?_
      exact (prefix_of_prefix_append_stop h start).isInfix.trans hc.isInfix

theorem splitFrom_eq (pat : List α) (skip : Nat) (xs : List α) :
    splitFrom pat skip xs = split pat (xs.drop skip) := by
  induction xs generalizing skip with
  | nil => cases skip <;> rfl
  | cons x xs ih =>
      cases skip with
      | zero => rfl
      | succ skip => exact ih skip

theorem split_nil (pat : List α) : split pat [] = [[]] := rfl

theorem split_append {pat : List α} (nonempty : pat ≠ []) (xs : List α) :
    split pat (pat ++ xs) = [] :: split pat xs := by
  cases pat with
  | nil => exact absurd rfl nonempty
  | cons p pat =>
      change splitFrom (p :: pat) 0 (p :: (pat ++ xs)) = _
      rw [splitFrom, if_pos ⟨xs, rfl⟩, splitFrom_eq, List.length_cons, Nat.add_sub_cancel,
        List.drop_left]

theorem split_cons {pat : List α} {x : α} {xs : List α} (h : ¬ pat <+: x :: xs) :
    split pat (x :: xs) = (split pat xs).modifyHead (x :: ·) := by
  change splitFrom pat 0 (x :: xs) = _
  rw [splitFrom, if_neg h, split]

/-- Induction from one occurrence of the pattern to the next. -/
theorem split_induction {pat : List α} (nonempty : pat ≠ []) {P : List α → Prop} (nil : P [])
    (found : ∀ xs, P xs → P (pat ++ xs))
    (skipped : ∀ x xs, ¬ pat <+: x :: xs → P xs → P (x :: xs)) (xs : List α) : P xs := by
  match xs with
  | [] => exact nil
  | x :: xs =>
      by_cases h : pat <+: x :: xs
      · obtain ⟨rest, hr⟩ := h
        have shorter : rest.length < (x :: xs).length := by
          have := List.length_pos_iff.mpr nonempty
          rw [← hr, List.length_append]
          omega
        rw [← hr]
        exact found rest (split_induction nonempty nil found skipped rest)
      · exact skipped x xs h (split_induction nonempty nil found skipped xs)
termination_by xs.length
decreasing_by
  · exact shorter
  · exact Nat.lt_succ_self _

section
variable {pat : List α} (nonempty : pat ≠ []) (xs : List α)
include nonempty

theorem split_ne_nil : split pat xs ≠ [] := by
  induction xs using split_induction nonempty with
  | nil => simp [split_nil]
  | found xs _ => simp [split_append nonempty]
  | skipped x xs h ih => simpa [split_cons h] using ih

theorem intercalate_split : pat.intercalate (split pat xs) = xs := by
  induction xs using split_induction nonempty with
  | nil => simp [split_nil]
  | found xs ih =>
      rw [split_append nonempty, List.intercalate_cons_of_ne_nil (split_ne_nil nonempty xs), ih]
      simp
  | skipped x xs h ih =>
      rw [split_cons h]
      cases hs : split pat xs with
      | nil => exact absurd hs (split_ne_nil nonempty xs)
      | cons piece pieces =>
          rw [hs] at ih
          rw [List.modifyHead_cons, List.intercalate_cons_cons_left, ih]

theorem head_split_prefix (piece : List α) (pieces : List (List α))
    (h : split pat xs = piece :: pieces) : piece <+: xs := by
  have whole := intercalate_split nonempty xs
  rw [h] at whole
  cases pieces with
  | nil =>
      rw [List.intercalate_singleton] at whole
      exact whole ▸ List.prefix_rfl
  | cons next pieces =>
      rw [List.intercalate_cons_cons, List.append_assoc] at whole
      exact ⟨_, whole⟩

theorem not_infix_of_mem_split {piece : List α} (h : piece ∈ split pat xs) :
    ¬ pat <:+: piece := by
  induction xs using split_induction nonempty generalizing piece with
  | nil =>
      rw [split_nil, List.mem_singleton] at h
      subst h
      rwa [List.infix_nil]
  | found xs ih =>
      rw [split_append nonempty, List.mem_cons] at h
      obtain rfl | h := h
      · rwa [List.infix_nil]
      · exact ih h
  | skipped x xs hx ih =>
      rw [split_cons hx] at h
      cases hs : split pat xs with
      | nil => exact absurd hs (split_ne_nil nonempty xs)
      | cons first rest =>
          rw [hs, List.modifyHead_cons, List.mem_cons] at h
          rw [hs] at ih
          obtain rfl | h := h
          · rw [List.infix_cons_iff]
            rintro (start | inside)
            · have longer := head_split_prefix nonempty xs first rest hs
              exact hx (start.trans (List.cons_prefix_cons.mpr ⟨rfl, longer⟩))
            · exact ih List.mem_cons_self inside
          · exact ih (List.mem_cons_of_mem _ h)

end

theorem split_of_not_infix {pat xs : List α} (h : ¬ pat <:+: xs) : split pat xs = [xs] := by
  induction xs with
  | nil => rfl
  | cons x xs ih =>
      rw [List.infix_cons_iff, not_or] at h
      rw [split_cons h.1, ih h.2, List.modifyHead_cons]

theorem replace_of_not_infix {pat xs : List α} (h : ¬ pat <:+: xs) (new : List α) :
    replace pat new xs = xs := by
  rw [replace, split_of_not_infix h, List.intercalate_singleton]

section Replace
variable {pat : List α} (nonempty : pat ≠ []) (new : List α)
include nonempty

theorem replace_append (xs : List α) :
    replace pat new (pat ++ xs) = new ++ replace pat new xs := by
  rw [replace, split_append nonempty, List.intercalate_cons_of_ne_nil (split_ne_nil nonempty xs),
    List.nil_append]
  rfl

theorem replace_cons {x : α} {xs : List α} (h : ¬ pat <+: x :: xs) :
    replace pat new (x :: xs) = x :: replace pat new xs := by
  rw [replace, replace, split_cons h]
  cases hs : split pat xs with
  | nil => exact absurd hs (split_ne_nil nonempty xs)
  | cons piece pieces => rw [List.modifyHead_cons, List.intercalate_cons_cons_left]

theorem replace_block {xs ys : List α}
    (h : ∀ c, c <:+ xs → c ≠ [] → ¬ pat <+: c ++ ys) :
    replace pat new (xs ++ ys) = xs ++ replace pat new ys := by
  induction xs with
  | nil => rfl
  | cons x xs ih =>
      have not_here : ¬ pat <+: x :: (xs ++ ys) := h (x :: xs) List.suffix_rfl (by simp)
      rw [List.cons_append, replace_cons nonempty new not_here, List.cons_append,
        ih fun c hc => h c (hc.trans (List.suffix_cons x xs))]

end Replace

section Occurrences

/-- The number of occurrences that are found. -/
def occurrences (pat xs : List α) : Nat := (split pat xs).length - 1

theorem occurrences_nil (pat : List α) : occurrences pat [] = 0 := rfl

theorem occurrences_of_not_infix {pat xs : List α} (h : ¬ pat <:+: xs) :
    occurrences pat xs = 0 := by
  rw [occurrences, split_of_not_infix h]
  rfl

theorem occurrences_cons {pat : List α} {x : α} {xs : List α} (h : ¬ pat <+: x :: xs) :
    occurrences pat (x :: xs) = occurrences pat xs := by
  rw [occurrences, occurrences, split_cons h, List.length_modifyHead]

theorem occurrences_block {pat xs ys : List α}
    (h : ∀ c, c <:+ xs → c ≠ [] → ¬ pat <+: c ++ ys) :
    occurrences pat (xs ++ ys) = occurrences pat ys := by
  induction xs with
  | nil => rfl
  | cons x xs ih =>
      have not_here : ¬ pat <+: x :: (xs ++ ys) := h (x :: xs) List.suffix_rfl (by simp)
      rw [List.cons_append, occurrences_cons not_here,
        ih fun c hc => h c (hc.trans (List.suffix_cons x xs))]

section
variable {pat : List α} (nonempty : pat ≠ [])
include nonempty

theorem occurrences_append (xs : List α) :
    occurrences pat (pat ++ xs) = occurrences pat xs + 1 := by
  have some_piece := List.length_pos_iff.mpr (split_ne_nil nonempty xs)
  rw [occurrences, occurrences, split_append nonempty, List.length_cons]
  omega

theorem occurrences_concat {c : α} (h : c ∉ pat) (xs : List α) :
    occurrences pat (xs ++ [c]) = occurrences pat xs := by
  have not_whole : ∀ ys : List α, pat ≠ ys ++ [c] := fun ys same => h (same ▸ by simp)
  induction xs using split_induction nonempty with
  | nil =>
      have not_here : ¬ pat <+: [] ++ [c] := fun here => by
        obtain whole | empty := List.prefix_concat_iff.mp here
        · exact not_whole [] whole
        · exact nonempty (List.prefix_nil.mp empty)
      exact occurrences_cons not_here
  | found xs ih =>
      rw [List.append_assoc, occurrences_append nonempty, occurrences_append nonempty, ih]
  | skipped x xs hx ih =>
      have not_here : ¬ pat <+: (x :: xs) ++ [c] := fun here => by
        obtain whole | inside := List.prefix_concat_iff.mp here
        · exact not_whole _ whole
        · exact hx inside
      rw [occurrences_cons hx, ← ih]
      exact occurrences_cons not_here

/-- Each replacement changes the total weight by that of the new piece less the old one. -/
theorem sum_map_replace (new xs : List α) (weight : α → Nat) :
    ((replace pat new xs).map weight).sum + occurrences pat xs * (pat.map weight).sum =
      (xs.map weight).sum + occurrences pat xs * (new.map weight).sum := by
  induction xs using split_induction nonempty with
  | nil => simp [replace, split_nil, occurrences_nil]
  | found xs ih =>
      rw [replace_append nonempty, occurrences_append nonempty, List.map_append, List.sum_append,
        List.map_append, List.sum_append, Nat.succ_mul, Nat.succ_mul]
      omega
  | skipped x xs h ih =>
      rw [replace_cons nonempty new h, occurrences_cons h, List.map_cons, List.sum_cons,
        List.map_cons, List.sum_cons]
      omega

end

section
variable {p : α} {pat : List α} (once : p ∉ pat)
include once

/-- A pattern that has its first element once never overlaps itself. -/
theorem occurrences_of_start {x : α} {xs : List α} (h : p :: pat <+: x :: xs) :
    occurrences (p :: pat) (x :: xs) = occurrences (p :: pat) xs + 1 := by
  obtain ⟨rfl, ys, rfl⟩ := List.cons_prefix_cons.mp h
  have inside : occurrences (p :: pat) (pat ++ ys) = occurrences (p :: pat) ys := by
    refine occurrences_block fun c hc nonempty start => ?_
    obtain ⟨d, c, rfl⟩ := List.exists_cons_of_ne_nil nonempty
    obtain rfl := (List.cons_prefix_cons.mp start).1
    exact once (hc.subset List.mem_cons_self)
  rw [inside]
  exact occurrences_append (by simp) ys

theorem occurrences_le_append (xs ys : List α) :
    occurrences (p :: pat) ys ≤ occurrences (p :: pat) (xs ++ ys) := by
  induction xs with
  | nil => exact Nat.le_refl _
  | cons x xs ih =>
      by_cases h : p :: pat <+: x :: (xs ++ ys)
      · exact Nat.le_trans ih (occurrences_of_start once h ▸ Nat.le_succ _)
      · exact Nat.le_trans ih (occurrences_cons h ▸ Nat.le_refl _)

theorem occurrences_lt_append {c xs ys : List α} (hc : c <:+ xs) (nonempty : c ≠ [])
    (start : p :: pat <+: c ++ ys) :
    occurrences (p :: pat) ys < occurrences (p :: pat) (xs ++ ys) := by
  obtain ⟨front, rfl⟩ := hc
  obtain ⟨x, c, rfl⟩ := List.exists_cons_of_ne_nil nonempty
  have more : occurrences (p :: pat) ys < occurrences (p :: pat) (x :: (c ++ ys)) :=
    Nat.lt_of_le_of_lt (occurrences_le_append once c ys)
      (occurrences_of_start once start ▸ Nat.lt_succ_self _)
  rw [List.append_assoc]
  exact Nat.lt_of_lt_of_le more (occurrences_le_append once front _)

end

end Occurrences

end Pattern
