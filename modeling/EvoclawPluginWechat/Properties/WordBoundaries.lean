import EvoclawPluginWechat.Core.Intent
import EvoclawPluginWechat.Library.Encoding

/-!
`word_matches` on characters: its scan over bytes finds an ASCII word where the word stands with
no ASCII letter or digit next to it, and finds it still in any text around that one.
-/
namespace EvoclawPluginWechat
open Ascii Encoding

def IsAscii (s : String) : Prop := ∀ c ∈ s.toList, c.val.toNat < 128

theorem all_ascii_iff {s : String} : (utf8 s.toList).all (· < 128) = true ↔ IsAscii s := by
  simp only [List.all_eq_true, decide_eq_true_eq, UInt8.lt_iff_toNat_lt, utf8, List.mem_flatMap]
  constructor
  · intro low c hc
    obtain ⟨ascii, _⟩ | ⟨_, nonempty, high⟩ := utf8EncodeChar_cases c
    · exact ascii
    · obtain ⟨b, hb⟩ := List.exists_mem_of_ne_nil _ nonempty
      exact absurd (low b ⟨c, hc, hb⟩) (Nat.not_lt.mpr (high b hb))
  · rintro ascii b ⟨c, hc, hb⟩
    obtain ⟨_, single⟩ | ⟨above, _⟩ := utf8EncodeChar_cases c
    · rw [single, List.mem_singleton] at hb
      rw [hb, UInt8.toNat_ofNat_of_lt' (Nat.lt_trans (ascii c hc) (by decide))]
      exact ascii c hc
    · exact absurd (ascii c hc) (Nat.not_lt.mpr above)

namespace Dict

theorem isAsciiAlphanumeric_of_mem {c : Char} {b : UInt8} (h : b ∈ String.utf8EncodeChar c) :
    isAsciiAlphanumeric b = c.isAlphanum := by
  have range : isAsciiAlphanumeric b = true ↔ (48 ≤ b.toNat ∧ b.toNat ≤ 57 ∨
      65 ≤ b.toNat ∧ b.toNat ≤ 90) ∨ 97 ≤ b.toNat ∧ b.toNat ≤ 122 := by
    simp only [isAsciiAlphanumeric, Bool.or_eq_true, Bool.and_eq_true, decide_eq_true_eq,
      UInt8.le_iff_toNat_le]
    rfl
  have value : c.toNat = c.val.toNat := rfl
  rw [Bool.eq_iff_iff, range, isAlphanum_iff]
  obtain ⟨ascii, single⟩ | ⟨above, _, high⟩ := utf8EncodeChar_cases c
  · rw [single, List.mem_singleton] at h
    rw [h, UInt8.toNat_ofNat_of_lt' (Nat.lt_trans ascii (by decide))]
    omega
  · have high : 128 ≤ b.toNat := high b h
    omega

theorem shows_alphanumeric : utf8Code.Shows (fun c => c.isAlphanum = true)
    (fun b => isAsciiAlphanumeric b = true) where
  first c b hb := by
    rw [isAsciiAlphanumeric_of_mem (List.mem_of_mem_head? hb)]
  last c b hb := by
    rw [isAsciiAlphanumeric_of_mem (List.mem_of_mem_getLast? hb)]

section Scan
variable {needle bytes : List UInt8} {i : Nat}

theorem clear_iff_any {α : Type} {p : α → Bool} {next : Option α} :
    (!next.any p) = true ↔ Clear (p · = true) next := by
  cases next with
  | none => exact iff_of_true rfl clear_none
  | some x => simp [clear_some]

theorem standsAt_append (a needle b : List UInt8) :
    standsAt needle (a ++ (needle ++ b)) a.length = true ↔
      Clear (isAsciiAlphanumeric · = true) a.getLast? ∧
        Clear (isAsciiAlphanumeric · = true) b.head? := by
  have here : ((a ++ (needle ++ b)).drop a.length).take needle.length = needle := by
    rw [List.drop_left, List.take_left]
  have before : (a.length == 0 ||
      !((a ++ (needle ++ b))[a.length - 1]?.any isAsciiAlphanumeric)) = true ↔
        Clear (isAsciiAlphanumeric · = true) a.getLast? := by
    rw [← clear_iff_any]
    obtain rfl | ⟨a, x, rfl⟩ := List.eq_nil_or_concat' a
    · exact iff_of_true rfl rfl
    · simp
  have next : (a ++ (needle ++ b))[a.length + needle.length]? = b.head? := by
    rw [← List.append_assoc, ← List.length_append, List.getElem?_append_right (Nat.le_refl _),
      Nat.sub_self, List.head?_eq_getElem?]
  have after : (a.length + needle.length == (a ++ (needle ++ b)).length ||
      !((a ++ (needle ++ b))[a.length + needle.length]?.any isAsciiAlphanumeric)) = true ↔
        Clear (isAsciiAlphanumeric · = true) b.head? := by
    rw [next, ← clear_iff_any]
    cases b with
    | nil => simp
    | cons x b => simp
  rw [standsAt, here, Bool.and_eq_true, Bool.and_eq_true, before, after]
  simp

theorem split_of_standsAt (h : standsAt needle bytes i = true) :
    bytes = bytes.take i ++ (needle ++ bytes.drop (i + needle.length)) := by
  rw [standsAt, Bool.and_eq_true, Bool.and_eq_true] at h
  have here : (bytes.drop i).take needle.length = needle := eq_of_beq h.1.1
  conv_lhs => rw [← List.take_append_drop i bytes,
    ← List.take_append_drop needle.length (bytes.drop i), here, List.drop_drop]

/-- The loop tries every place where the word can stand. -/
theorem scan_iff (short : needle.length ≤ bytes.length) :
    (List.range (bytes.length - needle.length + 1)).any (standsAt needle bytes) = true ↔
      StandsAlone (isAsciiAlphanumeric · = true) needle bytes := by
  rw [List.any_eq_true]
  constructor
  · rintro ⟨i, hi, stands⟩
    have split := split_of_standsAt stands
    have length : (bytes.take i).length = i := by
      rw [List.mem_range] at hi
      rw [List.length_take]
      omega
    refine ⟨bytes.take i, _, split, (standsAt_append _ needle _).mp ?_⟩
    rw [← split, length]
    exact stands
  · rintro ⟨a, b, rfl, clear⟩
    refine ⟨a.length, ?_, (standsAt_append a needle b).mpr clear⟩
    rw [List.mem_range, List.length_append, List.length_append]
    omega

end Scan

variable {haystack word : String}

theorem wordMatches_ascii_iff (ascii : IsAscii word) (nonempty : word ≠ "") :
    wordMatches haystack word = true ↔
      StandsAlone (fun c => c.isAlphanum = true) word.toList haystack.toList := by
  have nonempty' : word.toList ≠ [] := fun h => nonempty (String.toList_eq_nil_iff.mp h)
  have marked : ∀ c ∈ word.toList, utf8Code.IsMarked c := fun c hc => isMarked_of_ascii (ascii c hc)
  rw [← shows_alphanumeric.standsAlone_iff marked nonempty' haystack.toList]
  unfold wordMatches
  dsimp only
  rw [if_neg (by simp [nonempty]), if_neg (by simp [all_ascii_iff.mpr ascii])]
  split_ifs with long
  · refine iff_of_false not_false ?_
    rintro ⟨a, b, split, _⟩
    have lengths := congrArg List.length split
    rw [List.length_append, List.length_append] at lengths
    change (utf8 _).length = a.length + ((utf8 word.toList).length + b.length) at lengths
    omega
  · exact scan_iff (Nat.not_lt.mp long)

theorem wordMatches_pad (h : wordMatches haystack word = true) (p s : String) :
    wordMatches (p ++ " " ++ haystack ++ " " ++ s) word = true := by
  have nonempty : word ≠ "" := by
    rintro rfl
    cases h
  have padded : (p ++ " " ++ haystack ++ " " ++ s).toList =
      p.toList ++ ' ' :: (haystack.toList ++ ' ' :: s.toList) := by
    simp
  by_cases ascii : IsAscii word
  · rw [wordMatches_ascii_iff ascii nonempty] at h ⊢
    rw [padded]
    exact h.pad (by decide) (by decide) p.toList s.toList
  · have wide : ¬ (utf8 word.toList).all (· < 128) = true := fun all =>
      ascii (all_ascii_iff.mp all)
    have found : ∀ text, wordMatches text word = true ↔ word.toList <:+: text.toList := by
      intro text
      unfold wordMatches
      dsimp only
      rw [if_neg (by simp [nonempty]), if_pos (by simpa using wide), Option.isSome_iff_exists]
      exact ⟨fun ⟨_, hi⟩ => Pattern.infix_of_find hi, Pattern.find_of_infix⟩
    rw [found] at h ⊢
    rw [padded]
    exact h.trans ⟨p.toList ++ [' '], ' ' :: s.toList, by simp⟩

/-- The scan over bytes is the rule on characters. -/
theorem wordMatches_at_boundaries :
    (∀ haystack word : String, IsAscii word → word ≠ "" →
      (wordMatches haystack word = true ↔ ∃ a b : String, haystack = a ++ word ++ b ∧
        (∀ c ∈ a.toList.getLast?, c.isAlphanum = false) ∧
        ∀ c ∈ b.toList.head?, c.isAlphanum = false)) ∧
    ∀ haystack word : String, wordMatches haystack word = true →
      ∀ p s : String, wordMatches (p ++ " " ++ haystack ++ " " ++ s) word = true := by
  refine ⟨fun haystack word ascii nonempty => ?_, fun haystack word h p s => wordMatches_pad h p s⟩
  rw [wordMatches_ascii_iff ascii nonempty]
  constructor
  · rintro ⟨a, b, split, before, after⟩
    refine ⟨String.ofList a, String.ofList b, ?_, ?_, ?_⟩
    · rw [← String.toList_inj, split]
      simp
    · rw [String.toList_ofList]
      exact fun c hc => Bool.eq_false_iff.mpr (before c hc)
    · rw [String.toList_ofList]
      exact fun c hc => Bool.eq_false_iff.mpr (after c hc)
  · rintro ⟨a, b, rfl, before, after⟩
    refine ⟨a.toList, b.toList, by simp, fun c hc => ?_, fun c hc => ?_⟩
    · exact Bool.eq_false_iff.mp (before c hc)
    · exact Bool.eq_false_iff.mp (after c hc)

/-- The occurrence in the first word fails the test, the one before the Chinese text does not. -/
example : wordMatches "今天smart art展" "art" = true := by decide

end Dict
end EvoclawPluginWechat
