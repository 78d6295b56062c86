import Mathlib.Algebra.Group.Int.Defs
import Mathlib.Algebra.GroupWithZero.Nat
import Mathlib.Tactic.Common

/-!
The parts of the Rust standard library the plugin leans on: the two clocks,
64-bit integers, integer parsing and Unicode white space. Time is counted in
nanoseconds: an `Instant` is an `Int` from an arbitrary origin, a `SystemTime` an
`Int` from the unix epoch and negative before it, a `Duration` a `Nat`.
-/
namespace EvoclawPluginWechat

def Duration.fromSecs (secs : Nat) : Nat := secs * 1000000000

/-- The least instant the platform can represent: its seconds are an `i64`. -/
def Instant.least : Int := -(2 ^ 63 * 1000000000)

/-- `instant - duration`, which panics below the least representable instant. -/
def Instant.sub (t : Int) (d : Nat) : Option Int :=
  if Instant.least ≤ t - d then some (t - d) else none

theorem Instant.sub_eq_some {t c : Int} {d : Nat} :
    Instant.sub t d = some c ↔ Instant.least ≤ t - (d : Int) ∧ t - (d : Int) = c := by
  simp only [Instant.sub, Option.ite_none_right_eq_some, Option.some.injEq]

/-- A span of at most that many seconds may be taken from any instant after the origin. -/
theorem Instant.sub_of_nonneg {t : Int} {d : Nat} (h : 0 ≤ t)
    (span : (d : Int) ≤ 2 ^ 63 * 1000000000) : Instant.sub t d = some (t - (d : Int)) := by
  have least : Instant.least = -(2 ^ 63 * 1000000000) := rfl
  exact Instant.sub_eq_some.mpr ⟨by omega, rfl⟩

/-- Two's-complement reduction to an `i64`, as release builds compute it. -/
def wrapI64 (z : Int) : Int := z.bmod (2 ^ 64)

theorem wrapI64_eq (z : Int) (lo : -2 ^ 63 ≤ z) (hi : z < 2 ^ 63) : wrapI64 z = z := by
  simp only [wrapI64, Int.bmod]
  split <;> omega

theorem wrapI64_above (z : Int) (lo : 2 ^ 63 ≤ z) (hi : z < 2 ^ 64) :
    wrapI64 z = z - 2 ^ 64 := by
  simp only [wrapI64, Int.bmod]
  split <;> omega

def i64Min : Int := -2 ^ 63
def i64Max : Int := 2 ^ 63 - 1

def inI64 (z : Int) : Prop := i64Min ≤ z ∧ z ≤ i64Max

instance (z : Int) : Decidable (inI64 z) := inferInstanceAs (Decidable (_ ∧ _))

/-- An `i64` result in a build that checks for overflow; `none` is the panic. -/
def checkedI64 (z : Int) : Option Int := if inI64 z then some z else none

theorem checkedI64_of_inI64 {z : Int} (h : inI64 z) : checkedI64 z = some z := if_pos h

theorem checkedI64_of_not_inI64 {z : Int} (h : ¬ inI64 z) : checkedI64 z = none := if_neg h

/-- The same for an `i32`. -/
def wrapI32 (z : Int) : Int := z.bmod (2 ^ 32)

/-- `i64::abs` in a release build: the least value is its own absolute value. -/
def absI64 (z : Int) : Int := if z < 0 then wrapI64 (-z) else z

/-- `current_unix_secs` at a reading of the wall clock. -/
def currentUnixSecs (t : Int) : Int :=
  if t < 0 then 0 else wrapI64 (t / 1000000000)

def currentUnixNanos (t : Int) : Nat := t.toNat

/-- `std::sync::Mutex`: a panic under the lock poisons it for good. -/
structure StdMutex (α : Type) where
  value : α
  poisoned : Bool

def StdMutex.new {α : Type} (value : α) : StdMutex α := ⟨value, false⟩

/-- The value of a non-empty run of ASCII digits. -/
def digitsValue (cs : List Char) : Option Nat :=
  if cs = [] then none
  else cs.foldl (fun acc c => acc.bind fun n =>
    if c.isDigit then some (n * 10 + (c.toNat - '0'.toNat)) else none) (some 0)

theorem foldl_digits {cs : List Char} (h : ∀ c ∈ cs, c.isDigit = true) (m : Nat) :
    cs.foldl (fun acc c => acc.bind fun n =>
      if c.isDigit then some (n * 10 + (c.toNat - '0'.toNat)) else none) (some m) =
      some (Nat.ofDigitChars 10 cs m) := by
  induction cs generalizing m with
  | nil => rfl
  | cons c cs ih =>
      have rest := ih (fun d hd => h d (List.mem_cons_of_mem _ hd))
        (m * 10 + (c.toNat - '0'.toNat))
      simpa [h c List.mem_cons_self, Nat.ofDigitChars_cons, Nat.mul_comm 10] using rest

theorem digitsValue_repr (n : Nat) : digitsValue n.repr.toList = some n := by
  rw [Nat.toList_repr, digitsValue, if_neg Nat.toDigits_ne_nil, foldl_digits fun c hc =>
    Nat.isDigit_of_mem_toDigits (by decide) (by decide) hc]
  rw [Nat.ofDigitChars_toDigits (by decide) (by decide)]

/-- `str::parse::<i64>`: an optional sign, at least one digit, no overflow. -/
def parseI64 (s : String) : Option Int :=
  let value : Option Int :=
    match s.toList with
    | '+' :: ds => (digitsValue ds).map Int.ofNat
    | '-' :: ds => (digitsValue ds).map fun n => -Int.ofNat n
    | ds => (digitsValue ds).map Int.ofNat
  value.bind fun z => if inI64 z then some z else none

theorem parseI64_inI64 {s : String} {z : Int} (h : parseI64 s = some z) : inI64 z := by
  obtain ⟨w, _, hw⟩ := Option.bind_eq_some_iff.mp h
  split at hw
  · next hin => exact Option.some.inj hw ▸ hin
  · cases hw

/-- `char::is_whitespace`, the Unicode `White_Space` property. -/
def isWhitespace (c : Char) : Bool :=
  let n := c.toNat
  (9 ≤ n && n ≤ 13) || n == 0x20 || n == 0x85 || n == 0xA0 || n == 0x1680 ||
    (0x2000 ≤ n && n ≤ 0x200A) || n == 0x2028 || n == 0x2029 || n == 0x202F ||
    n == 0x205F || n == 0x3000

/-- `str::trim`. -/
def trim (cs : List Char) : List Char :=
  ((cs.dropWhile isWhitespace).reverse.dropWhile isWhitespace).reverse

theorem trim_eq_self {cs : List Char} (first : ∀ c ∈ cs.head?, isWhitespace c = false)
    (last : ∀ c ∈ cs.getLast?, isWhitespace c = false) : trim cs = cs := by
  have keep : ∀ ds : List Char, (∀ c ∈ ds.head?, isWhitespace c = false) →
      ds.dropWhile isWhitespace = ds := by
    intro ds h
    cases ds with
    | nil => rfl
    | cons d ds => rw [List.dropWhile_cons_of_neg (by simp [h d rfl])]
  rw [trim, keep cs first, keep cs.reverse (by rwa [List.head?_reverse]), List.reverse_reverse]

theorem trim_within (cs : List Char) : trim cs <:+: cs := by
  have inner : (cs.dropWhile isWhitespace).reverse.dropWhile isWhitespace <:+:
      (cs.dropWhile isWhitespace).reverse := (List.dropWhile_suffix isWhitespace).isInfix
  have outer : trim cs <:+: cs.dropWhile isWhitespace := by
    rw [trim, ← List.reverse_infix, List.reverse_reverse]
    exact inner
  exact outer.trans (List.dropWhile_suffix isWhitespace).isInfix

theorem infix_dropWhile {x : Char} {xs cs : List Char} (first : isWhitespace x = false)
    (h : x :: xs <:+: cs) : x :: xs <:+: cs.dropWhile isWhitespace := by
  induction cs with
  | nil => exact h
  | cons c cs ih =>
      cases white : isWhitespace c with
      | false => rwa [List.dropWhile_cons_of_neg (by simp [white])]
      | true =>
          rw [List.dropWhile_cons_of_pos white]
          obtain start | later := List.infix_cons_iff.mp h
          · obtain rfl := (List.cons_prefix_cons.mp start).1
            rw [first] at white
            cases white
          · exact ih later

theorem infix_trim {x y : Char} {xs ys cs : List Char} (same : x :: xs = ys ++ [y])
    (first : isWhitespace x = false) (last : isWhitespace y = false) (h : x :: xs <:+: cs) :
    x :: xs <:+: trim cs := by
  have dropped := infix_dropWhile first h
  rw [same, ← List.reverse_infix, List.reverse_append, List.reverse_singleton,
    List.singleton_append] at dropped
  rw [trim, ← List.reverse_infix, List.reverse_reverse, same, List.reverse_append,
    List.reverse_singleton, List.singleton_append]
  exact infix_dropWhile last dropped

theorem trim_trim (cs : List Char) : trim (trim cs) = trim cs := by
  have dropped : ∀ ds : List Char, ∀ c ∈ (ds.dropWhile isWhitespace).head?,
      isWhitespace c = false := by
    intro ds c hc
    have first := List.head?_dropWhile_not isWhitespace ds
    rwa [Option.mem_def.mp hc] at first
  have front : trim cs <+: cs.dropWhile isWhitespace := by
    rw [trim, ← List.reverse_suffix, List.reverse_reverse]
    exact List.dropWhile_suffix isWhitespace
  apply trim_eq_self
  · intro c hc
    obtain ⟨ds, eq⟩ := List.head?_eq_some_iff.mp hc
    rw [eq] at front
    obtain ⟨rest, whole⟩ := front
    exact dropped cs c (by rw [← whole]; rfl)
  · intro c hc
    rw [trim, List.getLast?_reverse] at hc
    exact dropped _ c hc

/-- `s.trim().is_empty()`. -/
def isBlank (s : String) : Bool := s.toList.all isWhitespace

end EvoclawPluginWechat
