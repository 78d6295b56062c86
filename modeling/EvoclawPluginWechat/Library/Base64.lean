import EvoclawPluginWechat.Library.Ascii
import Mathlib.Algebra.GroupWithZero.Nat
import Mathlib.Tactic.Common

/-!
Base64 over the standard alphabet, with padding: three bytes are four symbols. The decoder
takes canonical text only, with all of its padding and with zeros in the bits of the last
symbol that are left over.
-/
namespace Base64

/-- The symbol of a number below 64. -/
def symbol (n : Nat) : Char :=
  if n < 26 then Char.ofNat (n + 65)
  else if n < 52 then Char.ofNat (n + 71)
  else if n < 62 then Char.ofNat (n - 4)
  else if n = 62 then '+' else '/'

def value (c : Char) : Option Nat :=
  if c.isUpper then some (c.toNat - 65)
  else if c.isLower then some (c.toNat - 71)
  else if c.isDigit then some (c.toNat + 4)
  else if c = '+' then some 62
  else if c = '/' then some 63
  else none

def isSymbol (c : Char) : Bool := c.isAlphanum || c == '+' || c == '/'

def encode : List UInt8 → List Char
  | [] => []
  | [a] => [symbol (a.toNat / 4), symbol (a.toNat % 4 * 16), '=', '=']
  | [a, b] =>
      [symbol (a.toNat / 4), symbol (a.toNat % 4 * 16 + b.toNat / 16),
        symbol (b.toNat % 16 * 4), '=']
  | a :: b :: c :: rest =>
      symbol (a.toNat / 4) :: symbol (a.toNat % 4 * 16 + b.toNat / 16) ::
        symbol (b.toNat % 16 * 4 + c.toNat / 64) :: symbol (c.toNat % 64) :: encode rest

/-- Four symbols are three bytes. -/
def quantum (x y z w : Char) : Option (List UInt8) := do
  let x ← value x
  let y ← value y
  let z ← value z
  let w ← value w
  return [UInt8.ofNat (x * 4 + y / 16), UInt8.ofNat (y % 16 * 16 + z / 4),
    UInt8.ofNat (z % 4 * 64 + w)]

/-- The last four symbols, one or two of which may be padding. -/
def lastQuantum (x y z w : Char) : Option (List UInt8) :=
  if z = '=' ∧ w = '=' then do
    let x ← value x
    let y ← value y
    if y % 16 = 0 then some [UInt8.ofNat (x * 4 + y / 16)] else none
  else if w = '=' then do
    let x ← value x
    let y ← value y
    let z ← value z
    if z % 4 = 0 then
      some [UInt8.ofNat (x * 4 + y / 16), UInt8.ofNat (y % 16 * 16 + z / 4)]
    else none
  else quantum x y z w

def decode : List Char → Option (List UInt8)
  | [] => some []
  | [x, y, z, w] => lastQuantum x y z w
  | x :: y :: z :: w :: rest => do
      let bytes ← quantum x y z w
      let more ← decode rest
      return bytes ++ more
  | _ => none

theorem value_symbol {n : Nat} (h : n < 64) : value (symbol n) = some n := by
  have all : ∀ n < 64, value (symbol n) = some n := by decide
  exact all n h

theorem isSymbol_symbol {n : Nat} (h : n < 64) : isSymbol (symbol n) = true := by
  have all : ∀ n < 64, isSymbol (symbol n) = true := by decide
  exact all n h

theorem symbol_ne_padding {n : Nat} (h : n < 64) : symbol n ≠ '=' := by
  intro same
  have := isSymbol_symbol h
  rw [same] at this
  revert this
  decide

theorem forall_mem_encode {P : Char → Prop} (symbols : ∀ n < 64, P (symbol n)) (padding : P '=')
    (bytes : List UInt8) : ∀ c ∈ encode bytes, P c := by
  intro c h
  fun_induction encode bytes with
  | case1 => exact absurd h List.not_mem_nil
  | case2 a =>
      have := a.toNat_lt
      simp only [List.mem_cons, List.not_mem_nil, or_false] at h
      obtain rfl | rfl | rfl | rfl := h
      · exact symbols _ (by omega)
      · exact symbols _ (by omega)
      · exact padding
      · exact padding
  | case3 a b =>
      have := a.toNat_lt
      have := b.toNat_lt
      simp only [List.mem_cons, List.not_mem_nil, or_false] at h
      obtain rfl | rfl | rfl | rfl := h
      · exact symbols _ (by omega)
      · exact symbols _ (by omega)
      · exact symbols _ (by omega)
      · exact padding
  | case4 a b c' rest ih =>
      have := a.toNat_lt
      have := b.toNat_lt
      have := c'.toNat_lt
      simp only [List.mem_cons] at h
      obtain rfl | rfl | rfl | rfl | h := h
      · exact symbols _ (by omega)
      · exact symbols _ (by omega)
      · exact symbols _ (by omega)
      · exact symbols _ (by omega)
      · exact ih h

theorem ofNat_eq {a : UInt8} {n : Nat} (h : n = a.toNat) : UInt8.ofNat n = a := by
  rw [h, UInt8.ofNat_toNat]

theorem quantum_symbols (a b c : UInt8) :
    quantum (symbol (a.toNat / 4)) (symbol (a.toNat % 4 * 16 + b.toNat / 16))
      (symbol (b.toNat % 16 * 4 + c.toNat / 64)) (symbol (c.toNat % 64)) = some [a, b, c] := by
  have ha := a.toNat_lt
  have hb := b.toNat_lt
  have hc := c.toNat_lt
  rw [quantum, value_symbol (by omega), value_symbol (by omega), value_symbol (by omega),
    value_symbol (by omega)]
  simp only [Option.bind_eq_bind, Option.bind_some, Option.pure_def, Option.some.injEq,
    List.cons.injEq, and_true]
  refine ⟨ofNat_eq ?_, ofNat_eq ?_, ofNat_eq ?_⟩ <;> omega

theorem decode_encode (bytes : List UInt8) : decode (encode bytes) = some bytes := by
  fun_induction encode bytes with
  | case1 => rfl
  | case2 a =>
      have ha := a.toNat_lt
      rw [decode, lastQuantum, if_pos ⟨rfl, rfl⟩, value_symbol (by omega), value_symbol (by omega)]
      simp only [Option.bind_eq_bind, Option.bind_some]
      rw [if_pos (by omega), ofNat_eq (a := a) (by omega)]
  | case3 a b =>
      have ha := a.toNat_lt
      have hb := b.toNat_lt
      have third : ¬ (symbol (b.toNat % 16 * 4) = '=' ∧ '=' = '=') :=
        fun h => symbol_ne_padding (by omega) h.1
      rw [decode, lastQuantum, if_neg third, if_pos rfl, value_symbol (by omega),
        value_symbol (by omega), value_symbol (by omega)]
      simp only [Option.bind_eq_bind, Option.bind_some]
      rw [if_pos (by omega), ofNat_eq (a := a) (by omega), ofNat_eq (a := b) (by omega)]
  | case4 a b c rest ih =>
      have hc := c.toNat_lt
      have whole := quantum_symbols a b c
      cases hr : encode rest with
      | nil =>
          rw [hr] at ih
          obtain rfl := Option.some.inj ih
          have last : symbol (c.toNat % 64) ≠ '=' := symbol_ne_padding (by omega)
          rw [decode, lastQuantum, if_neg fun h => last h.2, if_neg last, whole]
      | cons x xs =>
          rw [hr] at ih
          rw [decode, whole, ih]
          · rfl
          · simp

theorem isSome_value (c : Char) : (value c).isSome = isSymbol c := by
  simp only [value, isSymbol, Ascii.isAlphanum_eq]
  split_ifs <;> simp_all

theorem isSymbol_of_value {c : Char} {v : Nat} (h : value c = some v) : isSymbol c = true := by
  rw [← isSome_value, h]
  rfl

theorem quantum_eq_some {x y z w : Char} {bytes : List UInt8} (h : quantum x y z w = some bytes) :
    (∀ c ∈ [x, y, z, w], isSymbol c = true) ∧ bytes.length = 3 := by
  simp only [quantum, Option.bind_eq_bind, Option.bind_eq_some_iff, Option.pure_def,
    Option.some.injEq] at h
  obtain ⟨a, ha, b, hb, c, hc, d, hd, rfl⟩ := h
  simp [isSymbol_of_value ha, isSymbol_of_value hb, isSymbol_of_value hc, isSymbol_of_value hd]

theorem quantum_of_symbols {x y z w : Char} (h : ∀ c ∈ [x, y, z, w], isSymbol c = true) :
    ∃ bytes, quantum x y z w = some bytes ∧ bytes.length = 3 := by
  have some_value : ∀ c ∈ [x, y, z, w], ∃ v, value c = some v := by
    intro c hc
    have := h c hc
    rwa [← isSome_value, Option.isSome_iff_exists] at this
  obtain ⟨a, ha⟩ := some_value x (by simp)
  obtain ⟨b, hb⟩ := some_value y (by simp)
  obtain ⟨c, hc⟩ := some_value z (by simp)
  obtain ⟨d, hd⟩ := some_value w (by simp)
  simp [quantum, ha, hb, hc, hd]

theorem lastQuantum_padded_iff {x y z : Char} :
    (∃ bytes, lastQuantum x y z '=' = some bytes ∧ bytes.length = 2) ↔
      (∀ c ∈ [x, y, z], isSymbol c = true) ∧ ∃ v, value z = some v ∧ v % 4 = 0 := by
  rw [lastQuantum]
  by_cases padded : z = '='
  · subst padded
    rw [if_pos ⟨rfl, rfl⟩]
    simp only [Option.bind_eq_bind, Option.bind_eq_some_iff, Option.ite_none_right_eq_some,
      Option.some.injEq]
    constructor
    · rintro ⟨_, ⟨a, _, b, _, _, rfl⟩, short⟩
      cases short
    · rintro ⟨_, v, hv, _⟩
      cases hv
  · rw [if_neg fun h => padded h.1, if_pos rfl]
    simp only [Option.bind_eq_bind, Option.bind_eq_some_iff, Option.ite_none_right_eq_some,
      Option.some.injEq]
    constructor
    · rintro ⟨_, ⟨a, ha, b, hb, c, hc, zeros, rfl⟩, _⟩
      simp [isSymbol_of_value ha, isSymbol_of_value hb, isSymbol_of_value hc, hc, zeros]
    · rintro ⟨symbols, c, hc, zeros⟩
      have hx := symbols x (by simp)
      have hy := symbols y (by simp)
      rw [← isSome_value, Option.isSome_iff_exists] at hx hy
      obtain ⟨a, ha⟩ := hx
      obtain ⟨b, hb⟩ := hy
      exact ⟨_, ⟨a, ha, b, hb, c, hc, zeros, rfl⟩, rfl⟩

theorem decode_cons {x y z w : Char} {rest : List Char} (h : rest ≠ []) :
    decode (x :: y :: z :: w :: rest) =
      (quantum x y z w).bind fun bytes => (decode rest).bind fun more => some (bytes ++ more) := by
  rw [decode]
  · rfl
  · exact h

/-- A text without its padding character decodes to full length just when it consists of
symbols and the last one has no bits left over. -/
theorem decode_unpadded_iff {n : Nat} {cs : List Char} (h : cs.length = 4 * n + 3) :
    (∃ bytes, decode (cs ++ ['=']) = some bytes ∧ bytes.length = 3 * n + 2) ↔
      (∀ c ∈ cs, isSymbol c = true) ∧ ∃ v, cs.getLast?.bind value = some v ∧ v % 4 = 0 := by
  induction n generalizing cs with
  | zero =>
      match cs, h with
      | [x, y, z], _ => exact lastQuantum_padded_iff
  | succ n ih =>
      match cs, h with
      | x :: y :: z :: w :: v :: rest, h =>
        have size : (v :: rest).length = 4 * n + 3 := by
          simp only [List.length_cons] at h ⊢
          omega
        have ih := ih size
        have last : (x :: y :: z :: w :: v :: rest).getLast? = (v :: rest).getLast? := rfl
        have split : (∀ c ∈ x :: y :: z :: w :: v :: rest, isSymbol c = true) ↔
            (∀ c ∈ [x, y, z, w], isSymbol c = true) ∧ ∀ c ∈ v :: rest, isSymbol c = true := by
          simp only [List.forall_mem_cons, List.not_mem_nil, false_imp_iff, implies_true, and_true,
            and_assoc]
        rw [last, split, and_assoc, ← ih, List.cons_append, List.cons_append, List.cons_append,
          List.cons_append, decode_cons (by simp)]
        constructor
        · rintro ⟨bytes, decoded, size⟩
          obtain ⟨first, hfirst, decoded⟩ := Option.bind_eq_some_iff.mp decoded
          obtain ⟨more, hmore, same⟩ := Option.bind_eq_some_iff.mp decoded
          obtain rfl := Option.some.inj same
          obtain ⟨symbols, three⟩ := quantum_eq_some hfirst
          rw [List.length_append, three] at size
          exact ⟨symbols, more, hmore, by omega⟩
        · rintro ⟨symbols, more, hmore, size⟩
          obtain ⟨first, hfirst, three⟩ := quantum_of_symbols symbols
          refine ⟨first ++ more, by rw [hfirst, hmore]; rfl, ?_⟩
          rw [List.length_append, three]
          omega

theorem mem_of_lastQuantum {x y z w c : Char} {bytes : List UInt8}
    (h : lastQuantum x y z w = some bytes) (hc : c ∈ [x, y, z, w]) :
    isSymbol c = true ∨ c = '=' := by
  rw [lastQuantum] at h
  simp only [List.mem_cons, List.not_mem_nil, or_false] at hc
  split_ifs at h with two one
  · simp only [Option.bind_eq_bind, Option.bind_eq_some_iff] at h
    obtain ⟨a, ha, b, hb, _⟩ := h
    obtain rfl | rfl | rfl | rfl := hc
    · exact .inl (isSymbol_of_value ha)
    · exact .inl (isSymbol_of_value hb)
    · exact .inr two.1
    · exact .inr two.2
  · simp only [Option.bind_eq_bind, Option.bind_eq_some_iff] at h
    obtain ⟨a, ha, b, hb, d, hd, _⟩ := h
    obtain rfl | rfl | rfl | rfl := hc
    · exact .inl (isSymbol_of_value ha)
    · exact .inl (isSymbol_of_value hb)
    · exact .inl (isSymbol_of_value hd)
    · exact .inr one
  · exact .inl ((quantum_eq_some h).1 c (by simpa using hc))

theorem mem_of_decode {cs : List Char} {bytes : List UInt8} (h : decode cs = some bytes) :
    ∀ c ∈ cs, isSymbol c = true ∨ c = '=' := by
  fun_induction decode cs generalizing bytes with
  | case1 => exact fun c hc => absurd hc List.not_mem_nil
  | case2 x y z w => exact fun c hc => mem_of_lastQuantum h hc
  | case3 x y z w rest _ ih =>
      simp only [Option.bind_eq_bind, Option.bind_eq_some_iff] at h
      obtain ⟨first, hfirst, more, hmore, _⟩ := h
      intro c hc
      obtain quad | tail := (List.mem_append (s := [x, y, z, w])).mp hc
      · exact .inl ((quantum_eq_some hfirst).1 c quad)
      · exact ih hmore c tail
  | case4 => cases h

section Bits

/-- The lowest `w` bits of a number, the highest of them first. -/
def bits : Nat → Nat → List Bool
  | 0, _ => []
  | w + 1, n => n.testBit w :: bits w n

def byteBits (b : UInt8) : List Bool := bits 8 b.toNat

def symbolBits (c : Char) : List Bool := bits 6 ((value c).getD 0)

theorem length_bits (w n : Nat) : (bits w n).length = w := by
  induction w with
  | zero => rfl
  | succ w ih => rw [bits, List.length_cons, ih]

theorem bits_below {w b lo : Nat} (hi : Nat) (h : lo < 2 ^ b) (narrow : w ≤ b) :
    bits w (2 ^ b * hi + lo) = bits w lo := by
  induction w with
  | zero => rfl
  | succ w ih =>
      rw [bits, bits, ih (by omega), Nat.testBit_two_pow_mul_add hi h, if_pos (by omega)]

theorem bits_add {a b hi lo : Nat} (h : lo < 2 ^ b) :
    bits (a + b) (2 ^ b * hi + lo) = bits a hi ++ bits b lo := by
  induction a with
  | zero => rw [Nat.zero_add, bits_below hi h (Nat.le_refl b), bits, List.nil_append]
  | succ a ih =>
      have top : (2 ^ b * hi + lo).testBit (a + b) = hi.testBit a := by
        rw [Nat.testBit_two_pow_mul_add hi h, if_neg (by omega), Nat.add_sub_cancel]
      rw [Nat.succ_add, bits, bits, top, ih, List.cons_append]

theorem bits_split {a b n : Nat} : bits (a + b) n = bits a (n / 2 ^ b) ++ bits b (n % 2 ^ b) := by
  rw [← bits_add (Nat.mod_lt n (Nat.two_pow_pos b)), Nat.div_add_mod]

theorem byteBits_ofNat {n : Nat} (h : n < 256) : byteBits (UInt8.ofNat n) = bits 8 n := by
  rw [byteBits, UInt8.toNat_ofNat_of_lt' h]

theorem value_lt {c : Char} {v : Nat} (h : value c = some v) : v < 64 := by
  simp only [value, Ascii.isUpper_iff, Ascii.isLower_iff, Ascii.isDigit_iff] at h
  split_ifs at h with upper lower digit
  all_goals
    obtain rfl := Option.some.inj h
    omega

theorem symbolBits_eq {c : Char} {v : Nat} (h : value c = some v) : symbolBits c = bits 6 v := by
  rw [symbolBits, h, Option.getD_some]

theorem byteBits_first {x y : Nat} (hx : x < 64) (hy : y < 64) :
    byteBits (UInt8.ofNat (x * 4 + y / 16)) ++ bits 4 (y % 16) = bits 6 x ++ bits 6 y := by
  have join : bits 8 (x * 4 + y / 16) = bits 6 x ++ bits 2 (y / 16) := by
    rw [Nat.mul_comm]
    exact bits_add (a := 6) (b := 2) (by omega)
  have whole : bits 6 y = bits 2 (y / 16) ++ bits 4 (y % 16) := bits_split (a := 2) (b := 4)
  rw [byteBits_ofNat (by omega), join, List.append_assoc, whole]

theorem byteBits_second {y z : Nat} (hz : z < 64) :
    byteBits (UInt8.ofNat (y % 16 * 16 + z / 4)) ++ bits 2 (z % 4) =
      bits 4 (y % 16) ++ bits 6 z := by
  have join : bits 8 (y % 16 * 16 + z / 4) = bits 4 (y % 16) ++ bits 4 (z / 4) := by
    rw [Nat.mul_comm]
    exact bits_add (a := 4) (b := 4) (by omega)
  have whole : bits 6 z = bits 4 (z / 4) ++ bits 2 (z % 4) := bits_split (a := 4) (b := 2)
  rw [byteBits_ofNat (by omega), join, List.append_assoc, whole]

theorem byteBits_third {z w : Nat} (hw : w < 64) :
    byteBits (UInt8.ofNat (z % 4 * 64 + w)) = bits 2 (z % 4) ++ bits 6 w := by
  have join : bits 8 (z % 4 * 64 + w) = bits 2 (z % 4) ++ bits 6 w := by
    rw [Nat.mul_comm]
    exact bits_add (a := 2) (b := 6) hw
  rw [byteBits_ofNat (by omega), join]

theorem quantum_bits {x y z w : Char} {bytes : List UInt8} (h : quantum x y z w = some bytes) :
    bytes.flatMap byteBits = [x, y, z, w].flatMap symbolBits := by
  simp only [quantum, Option.bind_eq_bind, Option.bind_eq_some_iff, Option.pure_def,
    Option.some.injEq] at h
  obtain ⟨a, ha, b, hb, c, hc, d, hd, rfl⟩ := h
  simp only [List.flatMap_cons, List.flatMap_nil, List.append_nil, symbolBits_eq ha,
    symbolBits_eq hb, symbolBits_eq hc, symbolBits_eq hd]
  rw [byteBits_third (value_lt hd), ← List.append_assoc (byteBits _) (bits 2 _),
    byteBits_second (value_lt hc), List.append_assoc (bits 4 _),
    ← List.append_assoc (byteBits _) (bits 4 _), byteBits_first (value_lt ha) (value_lt hb),
    List.append_assoc]

theorem lastQuantum_padded_bits {x y z : Char} {bytes : List UInt8}
    (h : lastQuantum x y z '=' = some bytes) (full : bytes.length = 2) :
    bytes.flatMap byteBits = ([x, y, z].flatMap symbolBits).take 16 := by
  rw [lastQuantum] at h
  split_ifs at h with two one
  · simp only [Option.bind_eq_bind, Option.bind_eq_some_iff, Option.ite_none_right_eq_some,
      Option.some.injEq] at h
    obtain ⟨_, _, _, _, _, rfl⟩ := h
    cases full
  · simp only [Option.bind_eq_bind, Option.bind_eq_some_iff, Option.ite_none_right_eq_some,
      Option.some.injEq] at h
    obtain ⟨a, ha, b, hb, c, hc, _, rfl⟩ := h
    have whole : bits 6 a ++ (bits 6 b ++ bits 6 c) =
        (byteBits (UInt8.ofNat (a * 4 + b / 16)) ++
          byteBits (UInt8.ofNat (b % 16 * 16 + c / 4))) ++ bits 2 (c % 4) := by
      rw [List.append_assoc, byteBits_second (value_lt hc),
        ← List.append_assoc (byteBits _) (bits 4 _), byteBits_first (value_lt ha) (value_lt hb),
        List.append_assoc]
    simp only [List.flatMap_cons, List.flatMap_nil, List.append_nil, symbolBits_eq ha,
      symbolBits_eq hb, symbolBits_eq hc, whole]
    rw [List.take_left' (by simp only [List.length_append, byteBits, length_bits])]
  · exact absurd rfl one

/-- The bytes of an unpadded text are the bits of its symbols, less the two left over. -/
theorem decode_unpadded_bits {n : Nat} {cs : List Char} {bytes : List UInt8}
    (h : cs.length = 4 * n + 3) (decoded : decode (cs ++ ['=']) = some bytes)
    (full : bytes.length = 3 * n + 2) :
    bytes.flatMap byteBits = (cs.flatMap symbolBits).take (8 * (3 * n + 2)) := by
  induction n generalizing cs bytes with
  | zero =>
      match cs, h with
      | [x, y, z], _ => exact lastQuantum_padded_bits decoded full
  | succ n ih =>
      match cs, h with
      | x :: y :: z :: w :: v :: rest, h =>
        have size : (v :: rest).length = 4 * n + 3 := by
          simp only [List.length_cons] at h ⊢
          omega
        rw [List.cons_append, List.cons_append, List.cons_append, List.cons_append,
          decode_cons (by simp)] at decoded
        obtain ⟨first, hfirst, decoded⟩ := Option.bind_eq_some_iff.mp decoded
        obtain ⟨more, hmore, same⟩ := Option.bind_eq_some_iff.mp decoded
        obtain rfl := Option.some.inj same
        have three := (quantum_eq_some hfirst).2
        rw [List.length_append, three] at full
        have tail := ih size hmore (by omega)
        have split : (x :: y :: z :: w :: v :: rest).flatMap symbolBits =
            [x, y, z, w].flatMap symbolBits ++ (v :: rest).flatMap symbolBits := by
          rw [← List.flatMap_append]
          rfl
        have count : ([x, y, z, w].flatMap symbolBits).length = 24 := by
          simp only [List.flatMap_cons, List.flatMap_nil, List.length_append, List.length_nil,
            symbolBits, length_bits]
        have front : ([x, y, z, w].flatMap symbolBits).take (8 * (3 * (n + 1) + 2)) =
            [x, y, z, w].flatMap symbolBits := List.take_of_length_le (by omega)
        have left : 8 * (3 * (n + 1) + 2) - 24 = 8 * (3 * n + 2) := by omega
        rw [split, List.flatMap_append, quantum_bits hfirst, tail, List.take_append, front, count,
          left]

end Bits

end Base64
