import Mathlib.Algebra.Group.Int.Defs
import Mathlib.Algebra.GroupWithZero.Nat
import Mathlib.Data.Int.CardIntervalMod

/-!
Numbers in a row, taken modulo a positive number: every residue comes up equally often, up
to one.
-/
namespace Rotation

/-- How many of the `k` numbers from `a` on have this residue. -/
def hits (m a v k : Nat) : Nat := Nat.count (fun i => (a + i) % m = v) k

variable {m a v k : Nat}

theorem hits_zero : hits m a v 0 = 0 := Nat.count_zero _

theorem hits_succ : hits m a v (k + 1) = hits m (a + 1) v k + if a % m = v then 1 else 0 := by
  have shift : (fun i => (a + (i + 1)) % m = v) = fun i => (a + 1 + i) % m = v := by
    funext i
    rw [Nat.add_right_comm, Nat.add_assoc]
  rw [hits, Nat.count_succ', hits]
  simp only [shift, Nat.add_zero]

theorem mod_eq_iff (hv : v < m) (i : Nat) : (a + i) % m = v ↔ i ≡ v + (m - a % m) [MOD m] := by
  have back : a + i + (m - a % m) = i + m * (a / m + 1) := by
    have split := Nat.div_add_mod a m
    have below := Nat.mod_lt a (Nat.lt_of_le_of_lt (Nat.zero_le v) hv)
    rw [Nat.mul_add, Nat.mul_one]
    omega
  calc (a + i) % m = v
    _ ↔ a + i ≡ v [MOD m] := by rw [Nat.ModEq, Nat.mod_eq_of_lt hv]
    _ ↔ a + i + (m - a % m) ≡ v + (m - a % m) [MOD m] :=
        ⟨fun h => h.add_right _, fun h => h.add_right_cancel' _⟩
    _ ↔ i ≡ v + (m - a % m) [MOD m] := by
        rw [back, Nat.ModEq, Nat.ModEq, Nat.add_mul_mod_self_left]

theorem exists_hit (hv : v < m) (a : Nat) : ∃ k < m, (a + k) % m = v :=
  ⟨(v + (m - a % m)) % m, Nat.mod_lt _ (Nat.lt_of_le_of_lt (Nat.zero_le v) hv),
    (mod_eq_iff hv _).mpr (Nat.mod_modEq _ _)⟩

/-- A counter that wraps meets every residue within two rounds, wherever the wrap falls. -/
theorem exists_hit_wrapping {w : Nat} (few : m ≤ w) (ha : a < w) (hv : v < m) :
    ∃ k < m * 2, (a + k) % w % m = v := by
  by_cases room : a + m ≤ w
  · obtain ⟨k, below, hit⟩ := exists_hit hv a
    have unwrapped : (a + k) % w = a + k := Nat.mod_eq_of_lt (by omega)
    exact ⟨k, by omega, by rw [unwrapped, hit]⟩
  · -- the round that begins at the wrap is over in time
    refine ⟨w - a + v, by omega, ?_⟩
    have wrapped : (a + (w - a + v)) % w = v := by
      rw [← Nat.add_assoc, Nat.add_sub_cancel' ha.le, Nat.add_mod_left,
        Nat.mod_eq_of_lt (hv.trans_le few)]
    rw [wrapped, Nat.mod_eq_of_lt hv]

theorem hits_bounds (hv : v < m) : k / m ≤ hits m a v k ∧ hits m a v k ≤ k / m + 1 := by
  have pos : 0 < m := Nat.lt_of_le_of_lt (Nat.zero_le v) hv
  have shifted : hits m a v k = k.count (· ≡ v + (m - a % m) [MOD m]) := by
    simp only [hits, mod_eq_iff hv]
  rw [shifted, Nat.count_modEq_card k pos]
  split
  · exact ⟨Nat.le_add_right _ _, le_rfl⟩
  · exact ⟨le_rfl, Nat.le_succ _⟩

end Rotation
