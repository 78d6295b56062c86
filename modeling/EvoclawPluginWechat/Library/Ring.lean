import Mathlib.Algebra.Group.Int.Defs
import Mathlib.Algebra.GroupWithZero.Nat
import Mathlib.Data.List.DropRight

/-!
A queue of bounded length that forgets its oldest entry for a new one.
-/
namespace Ring
variable {α : Type} {cap : Nat} {q xs : List α}

/-- Put an entry at the end; a full queue loses the one at its front. -/
def push (cap : Nat) (q : List α) (x : α) : List α :=
  (if cap ≤ q.length then q.tail else q) ++ [x]

theorem length_rtake (xs : List α) (k : Nat) : (xs.rtake k).length = min k xs.length := by
  rw [List.rtake, List.length_drop]
  omega

theorem tail_rtake {k : Nat} (more : k + 1 ≤ xs.length) : (xs.rtake (k + 1)).tail = xs.rtake k := by
  rw [List.rtake, List.rtake, List.tail_drop]
  congr 1
  omega

theorem push_rtake (pos : 0 < cap) (x : α) : push cap (xs.rtake cap) x = (xs ++ [x]).rtake cap := by
  obtain ⟨k, rfl⟩ : ∃ k, cap = k + 1 := ⟨cap - 1, by omega⟩
  rw [List.rtake_concat_succ, push, length_rtake]
  congr 1
  split
  · next full => exact tail_rtake (by omega)
  · rw [List.rtake, List.rtake]
    congr 1
    omega

end Ring
