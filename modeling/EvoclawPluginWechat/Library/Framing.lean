import Mathlib.Data.List.Basic

/-!
Separator-terminated framing of a stream: the complete frames received so far and
the unfinished one. The stream grows by pieces of a frame and by separators.
-/
namespace Framing
universe u
variable {α : Type u} [DecidableEq α]

/-- One more element: it ends the current frame or becomes part of it. -/
def feed (sep : α) (s : List (List α) × List α) (x : α) : List (List α) × List α :=
  if x = sep then (s.1 ++ [s.2], []) else (s.1, s.2 ++ [x])

def scan (sep : α) (s : List (List α) × List α) (xs : List α) : List (List α) × List α :=
  xs.foldl (feed sep) s

/-- The complete frames, without their separators. -/
def frames (sep : α) (xs : List α) : List (List α) := (scan sep ([], []) xs).1

/-- What follows the last separator. -/
def rest (sep : α) (xs : List α) : List α := (scan sep ([], []) xs).2

theorem scan_piece (sep : α) (s : List (List α) × List α) (piece : List α)
    (h : sep ∉ piece) : scan sep s piece = (s.1, s.2 ++ piece) := by
  induction piece generalizing s with
  | nil => simp [scan]
  | cons x piece ih =>
      have hx : x ≠ sep := fun same => h (same ▸ List.mem_cons_self)
      have ih := ih (s.1, s.2 ++ [x]) fun hm => h (List.mem_cons_of_mem _ hm)
      simpa [scan, feed, hx] using ih

theorem scan_append (sep : α) (s : List (List α) × List α) (xs ys : List α) :
    scan sep s (xs ++ ys) = scan sep (scan sep s xs) ys :=
  List.foldl_append

theorem frames_append_piece (sep : α) (xs : List α) {piece : List α} (h : sep ∉ piece) :
    frames sep (xs ++ piece) = frames sep xs := by
  rw [frames, scan_append, scan_piece sep _ piece h, frames]

theorem rest_append_piece (sep : α) (xs : List α) {piece : List α} (h : sep ∉ piece) :
    rest sep (xs ++ piece) = rest sep xs ++ piece := by
  rw [rest, scan_append, scan_piece sep _ piece h, rest]

theorem scan_front (sep : α) (s : List (List α) × List α) (xs : List α) :
    scan sep s xs = (s.1 ++ (scan sep ([], s.2) xs).1, (scan sep ([], s.2) xs).2) := by
  induction xs generalizing s with
  | nil => simp [scan]
  | cons x xs ih =>
      change scan sep (feed sep s x) xs = (s.1 ++ (scan sep (feed sep ([], s.2) x) xs).1,
        (scan sep (feed sep ([], s.2) x) xs).2)
      rw [ih (feed sep s x), ih (feed sep ([], s.2) x)]
      by_cases hx : x = sep
      · simp [feed, hx]
      · simp [feed, hx]

theorem frames_append {sep : α} {xs : List α} (whole : rest sep xs = []) (ys : List α) :
    frames sep (xs ++ ys) = frames sep xs ++ frames sep ys := by
  have cut := scan_front sep (scan sep ([], []) xs) ys
  change (scan sep ([], []) xs).2 = [] at whole
  rw [whole] at cut
  rw [frames, scan_append, cut]
  rfl

theorem scan_grows (sep : α) (s : List (List α) × List α) (xs : List α) :
    s.1 <+: (scan sep s xs).1 := by
  induction xs generalizing s with
  | nil => exact List.prefix_rfl
  | cons x xs ih =>
      refine List.IsPrefix.trans ?_ (ih (feed sep s x))
      unfold feed
      split
      · exact List.prefix_append _ _
      · exact List.prefix_rfl

theorem frames_prefix {sep : α} {xs ys : List α} (h : xs <+: ys) :
    frames sep xs <+: frames sep ys := by
  obtain ⟨more, rfl⟩ := h
  rw [frames, frames, scan_append]
  exact scan_grows sep _ more

@[simp] theorem frames_append_sep (sep : α) (xs : List α) :
    frames sep (xs ++ [sep]) = frames sep xs ++ [rest sep xs] := by
  simp [frames, rest, scan, feed]

@[simp] theorem rest_append_sep (sep : α) (xs : List α) : rest sep (xs ++ [sep]) = [] := by
  simp [rest, scan, feed]

theorem scan_join (sep : α) (s : List (List α) × List α) (xs : List α) :
    ((scan sep s xs).1.map (· ++ [sep])).flatten ++ (scan sep s xs).2 =
      (s.1.map (· ++ [sep])).flatten ++ s.2 ++ xs := by
  induction xs generalizing s with
  | nil => simp [scan]
  | cons x xs ih =>
      have ih := ih (feed sep s x)
      by_cases hx : x = sep
      · simpa [scan, feed, hx] using ih
      · simpa [scan, feed, hx] using ih

theorem scan_separatorFree (sep : α) (s : List (List α) × List α) (xs : List α)
    (hs : (∀ f ∈ s.1, sep ∉ f) ∧ sep ∉ s.2) :
    (∀ f ∈ (scan sep s xs).1, sep ∉ f) ∧ sep ∉ (scan sep s xs).2 := by
  induction xs generalizing s with
  | nil => exact hs
  | cons x xs ih =>
      refine ih (feed sep s x) ?_
      by_cases hx : x = sep
      · simp only [feed, hx, if_true, List.mem_append, List.mem_singleton]
        refine ⟨fun f hf => ?_, List.not_mem_nil⟩
        cases hf with
        | inl hf => exact hs.1 f hf
        | inr hf => exact hf ▸ hs.2
      · simp only [feed, hx, if_false, List.mem_append, List.mem_singleton, not_or]
        exact ⟨hs.1, hs.2, Ne.symm hx⟩

/-- The frames and the rest make up the stream, and none of them holds a separator: they
are its maximal separator-terminated pieces. -/
theorem frames_join (sep : α) (xs : List α) :
    ((frames sep xs).map (· ++ [sep])).flatten ++ rest sep xs = xs ∧
      (∀ f ∈ frames sep xs, sep ∉ f) ∧ sep ∉ rest sep xs := by
  have join := scan_join sep ([], []) xs
  have free := scan_separatorFree sep ([], []) xs (by simp)
  simp only [List.map_nil, List.flatten_nil, List.nil_append] at join
  exact ⟨join, free⟩

end Framing
