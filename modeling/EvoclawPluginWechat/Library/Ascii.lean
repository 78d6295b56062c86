import Mathlib.Tactic.Common

/-!
ASCII characters: the codes of the letters, and the bytes of UTF-8, of which those below 128 are
ASCII characters and nothing else.
-/
namespace Ascii

section Letters
variable {c : Char}

theorem isUpper_iff : c.isUpper = true ↔ 65 ≤ c.toNat ∧ c.toNat ≤ 90 := by
  change decide ('A'.val ≤ c.val ∧ c.val ≤ 'Z'.val) = true ↔ _
  rw [decide_eq_true_iff, UInt32.le_iff_toNat_le, UInt32.le_iff_toNat_le]
  rfl

theorem isLower_iff : c.isLower = true ↔ 97 ≤ c.toNat ∧ c.toNat ≤ 122 := by
  change (decide ('a'.val ≤ c.val) && decide (c.val ≤ 'z'.val)) = true ↔ _
  rw [Bool.and_eq_true, decide_eq_true_iff, decide_eq_true_iff, UInt32.le_iff_toNat_le,
    UInt32.le_iff_toNat_le]
  rfl

theorem isDigit_iff : c.isDigit = true ↔ 48 ≤ c.toNat ∧ c.toNat ≤ 57 := Char.isDigit_iff_toNat

theorem isAlphanum_eq (c : Char) : c.isAlphanum = (c.isUpper || c.isLower || c.isDigit) := rfl

theorem isAlphanum_iff : c.isAlphanum = true ↔
    (65 ≤ c.toNat ∧ c.toNat ≤ 90 ∨ 97 ≤ c.toNat ∧ c.toNat ≤ 122) ∨
      48 ≤ c.toNat ∧ c.toNat ≤ 57 := by
  rw [isAlphanum_eq, Bool.or_eq_true, Bool.or_eq_true, isUpper_iff, isLower_iff, isDigit_iff]

end Letters

section Bytes
variable {b : UInt8} {c d : Char}

/-- A byte that is no part of an ASCII character. -/
def High (b : UInt8) : Prop := 128 ≤ b.toNat

instance (b : UInt8) : Decidable (High b) := inferInstanceAs (Decidable (_ ≤ _))

theorem High.ne {b' : UInt8} (h : High b) (low : ¬ High b') : b ≠ b' := fun same => low (same ▸ h)

theorem utf8EncodeChar_cases (c : Char) :
    (c.val.toNat < 128 ∧ String.utf8EncodeChar c = [UInt8.ofNat c.val.toNat]) ∨
    (128 ≤ c.val.toNat ∧ String.utf8EncodeChar c ≠ [] ∧
      ∀ b ∈ String.utf8EncodeChar c, High b) := by
  have high : ∀ n, 128 ≤ n → n < 256 → High (UInt8.ofNat n) := by
    intro n lo hi
    rw [High, UInt8.toNat_ofNat_of_lt' hi]
    exact lo
  have range : c.val.toNat < 1114112 := by
    obtain below | ⟨_, above⟩ := c.valid
    · exact Nat.lt_trans below (by decide)
    · exact above
  rw [String.utf8EncodeChar]
  split
  · next ascii => exact .inl ⟨by omega, rfl⟩
  · refine .inr ⟨by omega, ?_⟩
    split
    · refine ⟨by simp, ?_⟩
      simp only [List.mem_cons, List.not_mem_nil, or_false, forall_eq_or_imp, forall_eq]
      refine ⟨high _ ?_ ?_, high _ ?_ ?_⟩ <;> omega
    · split
      · refine ⟨by simp, ?_⟩
        simp only [List.mem_cons, List.not_mem_nil, or_false, forall_eq_or_imp, forall_eq]
        refine ⟨high _ ?_ ?_, high _ ?_ ?_, high _ ?_ ?_⟩ <;> omega
      · refine ⟨by simp, ?_⟩
        simp only [List.mem_cons, List.not_mem_nil, or_false, forall_eq_or_imp, forall_eq]
        refine ⟨high _ ?_ ?_, high _ ?_ ?_, high _ ?_ ?_, high _ ?_ ?_⟩ <;> omega

theorem ofNat_eq_iff (hc : c.val.toNat < 128) (hd : d.val.toNat < 128) :
    UInt8.ofNat c.val.toNat = UInt8.ofNat d.val.toNat ↔ c = d := by
  constructor
  · intro same
    have codes := congrArg UInt8.toNat same
    have small : ∀ n, n < 128 → n < UInt8.size := fun n hn => Nat.lt_trans hn (by decide)
    rw [UInt8.toNat_ofNat_of_lt' (small _ hc), UInt8.toNat_ofNat_of_lt' (small _ hd)] at codes
    exact Char.ext (UInt32.toNat_inj.mp codes)
  · rintro rfl
    rfl

theorem notMem_utf8EncodeChar (hd : d.val.toNat < 128) (h : c ≠ d) :
    UInt8.ofNat d.val.toNat ∉ String.utf8EncodeChar c := by
  obtain ⟨ascii, single⟩ | ⟨_, _, high⟩ := utf8EncodeChar_cases c
  · rw [single, List.mem_singleton]
    exact fun same => h ((ofNat_eq_iff ascii hd).mp same.symm)
  · intro mem
    have above := high _ mem
    rw [High, UInt8.toNat_ofNat_of_lt' (Nat.lt_trans hd (by decide))] at above
    exact Nat.not_lt.mpr above hd

end Bytes
end Ascii
