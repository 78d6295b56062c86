import EvoclawPluginWechat.Library.Ascii
import Mathlib.Data.List.Basic
import Mathlib.Data.List.Infix

/-!
Texts encoded symbol by symbol, in a code that marks some of its letters: a marked letter is the
whole code of the one symbol it occurs in. A word of such symbols is found in the letters of a
text exactly where it stands in the text.
-/
namespace Encoding
universe u v
variable {α : Type u} {β : Type v}

section Words

/-- What is next to a word is nothing, or without the property. -/
def Clear (P : α → Prop) (next : Option α) : Prop := ∀ x ∈ next, ¬ P x

/-- The word stands in the text and has nothing with the property next to it. -/
def StandsAlone (P : α → Prop) (word text : List α) : Prop :=
  ∃ a b, text = a ++ (word ++ b) ∧ Clear P a.getLast? ∧ Clear P b.head?

variable {P : α → Prop} {word text : List α} {x y : α}

theorem clear_none : Clear P none := nofun

theorem clear_some : Clear P (some x) ↔ ¬ P x := by
  simp [Clear]

theorem StandsAlone.pad (h : StandsAlone P word text) (hx : ¬ P x) (hy : ¬ P y)
    (pre post : List α) : StandsAlone P word (pre ++ x :: (text ++ y :: post)) := by
  obtain ⟨a, b, rfl, before, after⟩ := h
  refine ⟨pre ++ x :: a, b ++ y :: post, by simp, ?_, ?_⟩
  · obtain rfl | ⟨a, z, rfl⟩ := List.eq_nil_or_concat' a
    · rw [List.getLast?_concat]
      exact clear_some.mpr hx
    · rw [← List.cons_append, ← List.append_assoc, List.getLast?_concat]
      rwa [List.getLast?_concat] at before
  · cases b with
    | nil => exact clear_some.mpr hy
    | cons z b => exact after

end Words

/-- A code with marked letters. -/
structure MarkedCode (α : Type u) (β : Type v) where
  code : α → List β
  Marked : β → Prop
  nonempty : ∀ x, code x ≠ []
  whole : ∀ x, ∀ b ∈ code x, Marked b → code x = [b]
  unique : ∀ x y b, Marked b → code x = [b] → code y = [b] → x = y

namespace MarkedCode
variable (C : MarkedCode α β)

def encode (xs : List α) : List β := xs.flatMap C.code

def IsMarked (x : α) : Prop := ∃ b, C.Marked b ∧ C.code x = [b]

variable {x : α} {xs ys cs word : List α} {b : β} {bs pre post : List β}

theorem encode_cons (x : α) (xs : List α) : C.encode (x :: xs) = C.code x ++ C.encode xs := rfl

theorem encode_append (xs ys : List α) : C.encode (xs ++ ys) = C.encode xs ++ C.encode ys :=
  List.flatMap_append

theorem encode_eq_nil : C.encode xs = [] ↔ xs = [] := by
  cases xs with
  | nil => exact iff_of_true rfl rfl
  | cons x xs =>
      refine iff_of_false (fun h => ?_) (List.cons_ne_nil x xs)
      exact C.nonempty x (List.append_eq_nil_iff.mp h).1

theorem split_of_marked (h : C.encode cs = pre ++ b :: post) (marked : C.Marked b) :
    ∃ xs x ys, cs = xs ++ x :: ys ∧ pre = C.encode xs ∧ C.code x = [b] ∧ post = C.encode ys := by
  induction cs generalizing pre with
  | nil => exact absurd h.symm (List.append_ne_nil_of_right_ne_nil pre (List.cons_ne_nil b post))
  | cons c cs ih =>
      rw [encode_cons] at h
      obtain ⟨rest, rfl, later⟩ | ⟨rest, code, here⟩ := List.append_eq_append_iff.mp h
      · obtain ⟨xs, x, ys, rfl, rfl, single, rfl⟩ := ih later
        exact ⟨c :: xs, x, ys, rfl, rfl, single, rfl⟩
      · cases rest with
        | nil =>
            obtain ⟨xs, x, ys, rfl, nothing, single, rfl⟩ := ih
              (show C.encode cs = [] ++ b :: post from here.symm)
            have none := C.encode_eq_nil.mp nothing.symm
            refine ⟨c :: xs, x, ys, rfl, ?_, single, rfl⟩
            rw [none, encode_cons, code]
            simp [encode]
        | cons b' rest =>
            obtain ⟨rfl, rfl⟩ := List.cons.inj here
            have mem : b ∈ C.code c := by
              rw [code]
              simp
            have single := C.whole c b mem marked
            rw [single] at code
            obtain ⟨rfl, rfl⟩ : pre = [] ∧ rest = [] := by
              cases pre with
              | nil => exact ⟨rfl, (List.cons.inj code).2.symm⟩
              | cons b' pre => simp at code
            exact ⟨[], c, cs, rfl, rfl, single, rfl⟩

theorem split_of_front (marked : ∀ x ∈ word, C.IsMarked x)
    (h : C.encode cs = C.encode word ++ post) : ∃ ys, cs = word ++ ys ∧ post = C.encode ys := by
  induction word generalizing cs with
  | nil => exact ⟨cs, rfl, h.symm⟩
  | cons w word ih =>
      obtain ⟨b, hb, code⟩ := marked w List.mem_cons_self
      rw [encode_cons, code] at h
      obtain ⟨xs, x, ys, rfl, nothing, single, rest⟩ := C.split_of_marked
        (show C.encode cs = [] ++ b :: (C.encode word ++ post) from h) hb
      obtain rfl := C.encode_eq_nil.mp nothing.symm
      obtain rfl := C.unique x w b hb single code
      obtain ⟨zs, rfl, rfl⟩ := ih (fun x hx => marked x (List.mem_cons_of_mem _ hx)) rest.symm
      exact ⟨zs, rfl, rfl⟩

/-- A word of marked symbols is found among the letters where it stands in the text. -/
theorem split_of_word (marked : ∀ x ∈ word, C.IsMarked x) (nonempty : word ≠ [])
    (h : C.encode cs = pre ++ (C.encode word ++ post)) :
    ∃ xs ys, cs = xs ++ (word ++ ys) ∧ pre = C.encode xs ∧ post = C.encode ys := by
  obtain ⟨w, word, rfl⟩ := List.exists_cons_of_ne_nil nonempty
  obtain ⟨b, hb, code⟩ := marked w List.mem_cons_self
  rw [encode_cons, code] at h
  obtain ⟨xs, x, ys, rfl, rfl, single, rest⟩ := C.split_of_marked h hb
  obtain rfl := C.unique x w b hb single code
  obtain ⟨zs, rfl, rfl⟩ :=
    C.split_of_front (fun x hx => marked x (List.mem_cons_of_mem _ hx)) rest.symm
  exact ⟨xs, zs, rfl, rfl, rfl⟩

section Alone
variable {P : α → Prop} {Q : β → Prop}

/-- The first and the last letter of a code have the property if the symbol does. -/
structure Shows (P : α → Prop) (Q : β → Prop) : Prop where
  first : ∀ x, ∀ b ∈ (C.code x).head?, Q b ↔ P x
  last : ∀ x, ∀ b ∈ (C.code x).getLast?, Q b ↔ P x

variable {C}

theorem Shows.clear_head (h : C.Shows P Q) (xs : List α) :
    Clear Q (C.encode xs).head? ↔ Clear P xs.head? := by
  cases xs with
  | nil => exact iff_of_true clear_none clear_none
  | cons x xs =>
      obtain ⟨b, bs, code⟩ := List.exists_cons_of_ne_nil (C.nonempty x)
      have shown := h.first x b (by rw [code]; rfl)
      rw [encode_cons, code, List.cons_append, List.head?_cons, List.head?_cons, clear_some,
        clear_some, shown]

theorem Shows.clear_last (h : C.Shows P Q) (xs : List α) :
    Clear Q (C.encode xs).getLast? ↔ Clear P xs.getLast? := by
  obtain rfl | ⟨xs, x, rfl⟩ := List.eq_nil_or_concat' xs
  · exact iff_of_true clear_none clear_none
  · obtain ⟨bs, b, code⟩ := (List.eq_nil_or_concat' (C.code x)).resolve_left (C.nonempty x)
    have shown := h.last x b (by rw [code, List.getLast?_concat]; rfl)
    have single : C.encode [x] = C.code x := List.append_nil _
    rw [encode_append, single, code, ← List.append_assoc, List.getLast?_concat,
      List.getLast?_concat, clear_some, clear_some, shown]

/-- Alone among the letters is alone in the text. -/
theorem Shows.standsAlone_iff (h : C.Shows P Q) (marked : ∀ x ∈ word, C.IsMarked x)
    (nonempty : word ≠ []) (text : List α) :
    StandsAlone Q (C.encode word) (C.encode text) ↔ StandsAlone P word text := by
  constructor
  · rintro ⟨a, b, split, before, after⟩
    obtain ⟨xs, ys, rfl, rfl, rfl⟩ := C.split_of_word marked nonempty split
    exact ⟨xs, ys, rfl, (h.clear_last xs).mp before, (h.clear_head ys).mp after⟩
  · rintro ⟨a, b, rfl, before, after⟩
    refine ⟨C.encode a, C.encode b, ?_, (h.clear_last a).mpr before, (h.clear_head b).mpr after⟩
    rw [encode_append, encode_append]

end Alone
end MarkedCode

section Utf8
open Ascii

/-- UTF-8, whose marked bytes are the ASCII ones. -/
def utf8Code : MarkedCode Char UInt8 where
  code := String.utf8EncodeChar
  Marked b := ¬ High b
  nonempty c := by
    obtain ⟨_, single⟩ | ⟨_, nonempty, _⟩ := utf8EncodeChar_cases c
    · rw [single]
      exact List.cons_ne_nil _ _
    · exact nonempty
  whole c b mem low := by
    obtain ⟨_, single⟩ | ⟨_, _, high⟩ := utf8EncodeChar_cases c
    · rw [single] at mem ⊢
      rw [List.mem_singleton.mp mem]
    · exact absurd (high b mem) low
  unique c d b low hc hd := by
    have code : ∀ x : Char, String.utf8EncodeChar x = [b] →
        x.val.toNat < 128 ∧ UInt8.ofNat x.val.toNat = b := by
      intro x hx
      obtain ⟨ascii, single⟩ | ⟨_, _, high⟩ := utf8EncodeChar_cases x
      · exact ⟨ascii, (List.cons.inj (single.symm.trans hx)).1⟩
      · exact absurd (high b (by simp [hx])) low
    obtain ⟨asciiC, codeC⟩ := code c hc
    obtain ⟨asciiD, codeD⟩ := code d hd
    exact (ofNat_eq_iff asciiC asciiD).mp (codeC.trans codeD.symm)

theorem isMarked_of_ascii {c : Char} (h : c.val.toNat < 128) : utf8Code.IsMarked c := by
  obtain ⟨_, single⟩ | ⟨above, _⟩ := utf8EncodeChar_cases c
  · refine ⟨UInt8.ofNat c.val.toNat, ?_, single⟩
    change ¬ 128 ≤ (UInt8.ofNat c.val.toNat).toNat
    rw [UInt8.toNat_ofNat_of_lt' (Nat.lt_trans h (by decide))]
    exact Nat.not_le.mpr h
  · exact absurd h (Nat.not_lt.mpr above)

end Utf8
end Encoding
