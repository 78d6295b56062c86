import EvoclawPluginWechat.Library.Json
import Mathlib.Data.List.Infix
import Mathlib.Data.List.TakeWhile
import Mathlib.Order.Basic

/-!
Compact JSON texts and a reader for them: null, booleans, integers, strings and objects. How
a writer escapes a character is its own choice among the spellings JSON has for it. The
reader takes all of them but the escapes of surrogates.
-/
namespace Json

mutual
inductive Value
  | null
  | bool (b : Bool)
  | int (z : Int)
  | string (s : String)
  | object (fields : Fields)

inductive Fields
  | nil
  | cons (key : String) (value : Value) (rest : Fields)
end

def Fields.get? (key : String) : Fields → Option Value
  | .nil => none
  | .cons k v rest => if k = key then some v else rest.get? key

def Value.get? (key : String) : Value → Option Value
  | .object fields => fields.get? key
  | _ => none

def Value.bool? : Value → Option Bool
  | .bool b => some b
  | _ => none

def Value.int? : Value → Option Int
  | .int z => some z
  | _ => none

def Value.string? : Value → Option String
  | .string s => some s
  | _ => none

section Characters

def hexValue (c : Char) : Option Nat :=
  if c.isDigit then some (c.toNat - '0'.toNat)
  else if 'a' ≤ c ∧ c ≤ 'f' then some (c.toNat - 'a'.toNat + 10)
  else if 'A' ≤ c ∧ c ≤ 'F' then some (c.toNat - 'A'.toNat + 10)
  else none

/-- The character of a code unit; a surrogate is none. -/
def codeChar (a b c d : Char) : Option Char :=
  (hexValue a).bind fun a => (hexValue b).bind fun b => (hexValue c).bind fun c =>
    (hexValue d).bind fun d =>
      let code := ((a * 16 + b) * 16 + c) * 16 + d
      if code.isValidChar then some (Char.ofNat code) else none

/-- The escapes of one letter. -/
def named (c : Char) : Option Char :=
  if c = '"' ∨ c = '\\' ∨ c = '/' then some c
  else if c = 'b' then some (Char.ofNat 8)
  else if c = 'f' then some (Char.ofNat 12)
  else if c = 'n' then some '\n'
  else if c = 'r' then some '\r'
  else if c = 't' then some '\t'
  else none

/-- The ways to write a character between quotes. -/
inductive Spells (c : Char) : List Char → Prop
  | plain : c ≠ '"' → c ≠ '\\' → 0x20 ≤ c.toNat → Spells c [c]
  | named {e : Char} : e ≠ 'u' → named e = some c → Spells c ['\\', e]
  | code {x y z w : Char} : codeChar x y z w = some c → Spells c ['\\', 'u', x, y, z, w]

/-- What stands up to the closing quote, and what stands behind it. -/
def literal : List Char → Option (List Char × List Char)
  | [] => none
  | c :: cs =>
      if c = '"' then some ([], cs)
      else if c = '\\' then
        match cs with
        | e :: cs =>
            if e = 'u' then
              match cs with
              | x :: y :: z :: w :: cs =>
                  (codeChar x y z w).bind fun c => (literal cs).map (Prod.map (c :: ·) id)
              | _ => none
            else (named e).bind fun c => (literal cs).map (Prod.map (c :: ·) id)
        | [] => none
      else if c.toNat < 0x20 then none
      else (literal cs).map (Prod.map (c :: ·) id)

theorem literal_spells {c : Char} {spelling : List Char} (h : Spells c spelling)
    (rest : List Char) :
    literal (spelling ++ rest) = (literal rest).map (Prod.map (c :: ·) id) := by
  cases h with
  | plain quote backslash printed =>
      rw [List.singleton_append, literal.eq_def]
      dsimp only
      rw [if_neg quote, if_neg backslash, if_neg (Nat.not_lt.mpr printed)]
  | named short spelled =>
      rw [List.cons_append, List.singleton_append, literal.eq_def]
      dsimp only
      rw [if_neg (by decide), if_pos rfl, if_neg short, spelled, Option.bind_some]
  | code spelled =>
      rw [literal.eq_def]
      dsimp only [List.cons_append, List.nil_append]
      rw [if_neg (by decide), if_pos rfl, if_pos rfl, spelled, Option.bind_some]

end Characters

section Texts
variable (escape : Char → List Char)

def quote (s : String) : List Char := '"' :: (s.toList.flatMap escape ++ ['"'])

def intText (z : Int) : List Char :=
  if z < 0 then '-' :: Nat.toDigits 10 z.natAbs else Nat.toDigits 10 z.natAbs

mutual
def Value.text : Value → List Char
  | .null => "null".toList
  | .bool b => (if b then "true" else "false").toList
  | .int z => intText z
  | .string s => quote escape s
  | .object fields => '\x7b' :: (fields.text ++ ['\x7d'])

def Fields.text : Fields → List Char
  | .nil => []
  | .cons key value .nil => quote escape key ++ ':' :: value.text
  | .cons key value (.cons key' value' rest) =>
      quote escape key ++ ':' :: value.text ++ ',' :: (Fields.cons key' value' rest).text
end

end Texts

section Reader

def natural (cs : List Char) : Option (Nat × List Char) :=
  if cs.takeWhile Char.isDigit = [] then none
  else some (Nat.ofDigitChars 10 (cs.takeWhile Char.isDigit) 0, cs.dropWhile Char.isDigit)

def integer : List Char → Option (Int × List Char)
  | [] => none
  | c :: cs =>
      if c = '-' then (natural cs).map (Prod.map (fun k : Nat => -(k : Int)) id)
      else (natural (c :: cs)).map (Prod.map Int.ofNat id)

def word (w : String) (v : Value) (cs : List Char) : Option (Value × List Char) :=
  (cs.dropPrefix? w.toList).map fun rest => (v, rest)

def key : List Char → Option (String × List Char)
  | '"' :: cs =>
      match literal cs with
      | some (k, ':' :: rest) => some (String.ofList k, rest)
      | _ => none
  | _ => none

mutual
/-- A value at the head of the text; the number bounds how many values it holds. -/
def value : Nat → List Char → Option (Value × List Char)
  | _, [] | 0, _ => none
  | n + 1, c :: cs =>
      if c = '"' then (literal cs).map (Prod.map (fun s => .string (String.ofList s)) id)
      else if c = '\x7b' then
        if cs.head? = some '\x7d' then some (.object .nil, cs.tail)
        else (members n cs).map (Prod.map .object id)
      else if c = 'n' then word "null" .null (c :: cs)
      else if c = 't' then word "true" (.bool true) (c :: cs)
      else if c = 'f' then word "false" (.bool false) (c :: cs)
      else (integer (c :: cs)).map (Prod.map .int id)

def members : Nat → List Char → Option (Fields × List Char)
  | 0, _ => none
  | n + 1, cs =>
      (key cs).bind fun k => (value n k.2).bind fun v =>
        if v.2.head? = some '\x7d' then some (.cons k.1 v.1 .nil, v.2.tail)
        else if v.2.head? = some ',' then (members n v.2.tail).map (Prod.map (.cons k.1 v.1) id)
        else none
end

def read (cs : List Char) : Option Value :=
  match value cs.length cs with
  | some (v, []) => some v
  | _ => none

end Reader

section RoundTrip

mutual
def Value.size : Value → Nat
  | .object fields => fields.size + 1
  | _ => 1

def Fields.size : Fields → Nat
  | .nil => 0
  | .cons _ v rest => v.size + rest.size + 1
end

/-- A number ends before this text. -/
def Stops (rest : List Char) : Prop := ∀ c ∈ rest.head?, c.isDigit = false

theorem stops_cons {c : Char} {rest : List Char} (h : c.isDigit = false) : Stops (c :: rest) := by
  rintro _ ⟨⟩
  exact h

theorem natural_toDigits (k : Nat) {rest : List Char} (stops : Stops rest) :
    natural (Nat.toDigits 10 k ++ rest) = some (k, rest) := by
  have digits : ∀ c ∈ Nat.toDigits 10 k, c.isDigit = true := fun c h =>
    Nat.isDigit_of_mem_toDigits (by decide) (by decide) h
  have taken : rest.takeWhile Char.isDigit = [] ∧ rest.dropWhile Char.isDigit = rest := by
    cases rest with
    | nil => exact ⟨rfl, rfl⟩
    | cons c rest => simp [stops c rfl]
  rw [natural, List.takeWhile_append_of_pos digits, List.dropWhile_append_of_pos digits, taken.1,
    taken.2, List.append_nil, if_neg Nat.toDigits_ne_nil, Nat.ofDigitChars_ten_toDigits]

theorem intText_head (z : Int) : ∃ c cs, intText z = c :: cs ∧ (c = '-' ∨ c.isDigit = true) := by
  rw [intText]
  split
  · exact ⟨'-', _, rfl, .inl rfl⟩
  · cases h : Nat.toDigits 10 z.natAbs with
    | nil => exact absurd h Nat.toDigits_ne_nil
    | cons c cs =>
        exact ⟨c, cs, rfl, .inr (Nat.isDigit_of_mem_toDigits (by decide) (by decide)
          (h ▸ List.mem_cons_self))⟩

theorem integer_intText (z : Int) {rest : List Char} (stops : Stops rest) :
    integer (intText z ++ rest) = some (z, rest) := by
  have digits := natural_toDigits z.natAbs stops
  rw [intText]
  split
  · next negative =>
      rw [List.cons_append, integer, if_pos rfl, digits, Option.map_some, Prod.map,
        Int.ofNat_natAbs_of_nonpos (Int.le_of_lt negative), Int.neg_neg]
      rfl
  · next positive =>
      cases h : Nat.toDigits 10 z.natAbs with
      | nil => exact absurd h Nat.toDigits_ne_nil
      | cons c cs =>
          have digit : c.isDigit = true :=
            Nat.isDigit_of_mem_toDigits (by decide) (by decide) (h ▸ List.mem_cons_self)
          have sign : c ≠ '-' := by
            rintro rfl
            cases digit
          rw [h] at digits
          rw [List.cons_append, integer, if_neg sign, ← List.cons_append, digits, Option.map_some,
            Prod.map, Int.ofNat_eq_natCast, Int.natAbs_of_nonneg (Int.not_lt.mp positive)]
          rfl

theorem Value.size_pos (v : Value) : 0 < v.size := by
  cases v with
  | object fields => exact Nat.succ_pos _
  | _ => exact Nat.one_pos

variable {escape : Char → List Char}

mutual
theorem Value.size_le_text : (v : Value) → v.size ≤ (v.text escape).length
  | .null => Nat.succ_le_succ (Nat.zero_le 3)
  | .bool true => Nat.succ_le_succ (Nat.zero_le 3)
  | .bool false => Nat.succ_le_succ (Nat.zero_le 4)
  | .int z => by
      obtain ⟨c, cs, text, _⟩ := intText_head z
      rw [Value.text, text]
      exact Nat.succ_le_succ (Nat.zero_le _)
  | .string s => Nat.succ_le_succ (Nat.zero_le _)
  | .object fields => by
      have := fields.size_le_text
      simp only [Value.size, Value.text, List.length_cons, List.length_append]
      omega

theorem Fields.size_le_text : (fields : Fields) → fields.size ≤ (fields.text escape).length
  | .nil => Nat.zero_le _
  | .cons key v .nil => by
      have := v.size_le_text
      simp only [Fields.size, Fields.text, List.length_cons, List.length_append, quote]
      omega
  | .cons key v (.cons key' v' rest) => by
      have := v.size_le_text
      have := (Fields.cons key' v' rest).size_le_text
      simp only [Fields.text, List.length_cons, List.length_append, quote] at this ⊢
      rw [Fields.size]
      omega
end

variable (spells : ∀ c, Spells c (escape c))
include spells

theorem literal_quoted (cs rest : List Char) :
    literal (cs.flatMap escape ++ '"' :: rest) = some (cs, rest) := by
  induction cs with
  | nil =>
      rw [List.flatMap_nil, List.nil_append, literal.eq_def]
      exact if_pos rfl
  | cons c cs ih =>
      rw [List.flatMap_cons, List.append_assoc, literal_spells (spells c), ih]
      rfl

theorem key_quote (k : String) (rest : List Char) :
    key (quote escape k ++ ':' :: rest) = some (k, rest) := by
  rw [quote, List.cons_append, List.append_assoc, List.singleton_append, key,
    literal_quoted spells]
  exact congrArg (fun k => some (k, rest)) String.ofList_toList

omit spells in
theorem Fields.text_head (k : String) (v : Value) (fields : Fields) :
    ∃ cs, (Fields.cons k v fields).text escape = '"' :: cs := by
  cases fields with
  | nil => exact ⟨_, rfl⟩
  | cons _ _ _ => exact ⟨_, rfl⟩

theorem value_members_text (n : Nat) :
    (∀ v rest, v.size ≤ n → Stops rest → value n (v.text escape ++ rest) = some (v, rest)) ∧
    ∀ k v fields rest, (Fields.cons k v fields).size ≤ n →
      members n ((Fields.cons k v fields).text escape ++ '\x7d' :: rest) =
        some (.cons k v fields, rest) := by
  induction n with
  | zero =>
      refine ⟨fun v rest small _ => ?_, fun k v fields rest small => ?_⟩
      · exact absurd small (Nat.not_le.mpr v.size_pos)
      · cases small
  | succ n ih =>
      refine ⟨fun v rest small stops => ?_, fun k v fields rest small => ?_⟩
      · cases v with
        | null => simp [Value.text, value, word, List.dropPrefix?]
        | bool b => cases b <;> simp [Value.text, value, word, List.dropPrefix?]
        | int z =>
            obtain ⟨c, cs, text, first⟩ := intText_head z
            have number := integer_intText z stops
            have other : c ≠ '"' ∧ c ≠ '\x7b' ∧ c ≠ 'n' ∧ c ≠ 't' ∧ c ≠ 'f' := by
              obtain rfl | digit := first
              · decide
              · refine ⟨?_, ?_, ?_, ?_, ?_⟩ <;> (rintro rfl; cases digit)
            obtain ⟨notQuote, notBrace, notN, notT, notF⟩ := other
            rw [text] at number
            rw [Value.text, text, List.cons_append, value, if_neg notQuote, if_neg notBrace,
              if_neg notN, if_neg notT, if_neg notF, ← List.cons_append, number]
            rfl
        | string s =>
            rw [Value.text, quote, List.cons_append, List.append_assoc, value, if_pos rfl,
              List.singleton_append, literal_quoted spells, Option.map_some, Prod.map,
              String.ofList_toList]
            rfl
        | object fields =>
            rw [Value.text, List.cons_append, List.append_assoc, List.singleton_append, value,
              if_neg (by decide), if_pos rfl]
            cases fields with
            | nil => rfl
            | cons k v fields =>
                have inner := ih.2 k v fields rest (Nat.le_of_succ_le_succ small)
                obtain ⟨cs, head⟩ : ∃ cs, (Fields.cons k v fields).text escape = '"' :: cs :=
                  Fields.text_head k v fields
                rw [head] at inner
                have quoted : ('"' :: (cs ++ '\x7d' :: rest)).head? ≠ some '\x7d' := by
                  rw [List.head?_cons]
                  decide
                rw [head, List.cons_append, if_neg quoted, ← List.cons_append, inner]
                rfl
      · have room : v.size + fields.size ≤ n := Nat.le_of_succ_le_succ small
        cases fields with
        | nil =>
            rw [Fields.text, List.append_assoc, List.cons_append, members, key_quote spells,
              Option.bind_some, ih.1 v _ (by omega) (stops_cons (by decide)), Option.bind_some]
            exact if_pos rfl
        | cons k' v' fields =>
            rw [Fields.text, List.append_assoc, List.append_assoc, List.cons_append, members,
              key_quote spells, Option.bind_some, List.cons_append,
              ih.1 v _ (by omega) (stops_cons (by decide)), Option.bind_some, List.head?_cons,
              if_neg (by decide), if_pos rfl, List.tail_cons, ih.2 k' v' fields rest (by omega)]
            rfl

/-- Reading undoes writing, however the writer escapes. -/
theorem read_text (v : Value) : read (v.text escape) = some v := by
  have size : v.size ≤ (v.text escape).length := v.size_le_text
  have whole := (value_members_text spells _).1 v [] size fun c h => by cases h
  rw [List.append_nil] at whole
  rw [read, whole]

end RoundTrip

end Json
