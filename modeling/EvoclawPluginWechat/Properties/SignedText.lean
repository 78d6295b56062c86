import EvoclawPluginWechat.Properties.MessageFrames
import EvoclawPluginWechat.Properties.TimestampWindow
import Mathlib.Data.List.Sort
import Mathlib.Data.String.Basic

/-!
What a plain signature says about the request it was made for. The signed text is the token,
the timestamp and the nonce in lexicographic order with nothing between them, so the nonce can
be read off only where one knows the order and where the timestamp ends.
-/
namespace EvoclawPluginWechat

theorem utf8_injective : Function.Injective utf8 := by
  intro cs ds same
  have decoded : ∀ cs, fromUtf8 (utf8 cs) = some (String.ofList cs) := fun cs =>
    fromUtf8_eq_some.mpr (by rw [String.toList_ofList])
  have strings := Option.some.inj ((decoded cs).symm.trans (same ▸ decoded ds))
  simpa using congrArg String.toList strings

namespace Signature

theorem digitChar_injective {m n : Nat} (hm : m < 16) (hn : n < 16)
    (same : Nat.digitChar m = Nat.digitChar n) : m = n := by
  have all : ∀ m < 16, ∀ n < 16, Nat.digitChar m = Nat.digitChar n → m = n := by decide
  exact all m hm n hn same

theorem hex_injective : Function.Injective hex := by
  intro bytes bytes' same
  have lists : ∀ bytes bytes' : List UInt8,
      (bytes.flatMap fun b => [Nat.digitChar (b.toNat / 16), Nat.digitChar (b.toNat % 16)]) =
        (bytes'.flatMap fun b => [Nat.digitChar (b.toNat / 16), Nat.digitChar (b.toNat % 16)]) →
      bytes = bytes' := by
    intro bytes
    induction bytes with
    | nil =>
        intro bytes' same
        cases bytes' with
        | nil => rfl
        | cons b bytes' => cases same
    | cons b bytes ih =>
        intro bytes' same
        cases bytes' with
        | nil => cases same
        | cons b' bytes' =>
            simp only [List.flatMap_cons, List.cons_append, List.nil_append,
              List.cons.injEq] at same
            obtain ⟨high, low, rest⟩ := same
            have hb := b.toNat_lt
            have hb' := b'.toNat_lt
            have high := digitChar_injective (by omega) (by omega) high
            have low := digitChar_injective (by omega) (by omega) low
            have first : b = b' := UInt8.toNat_inj.mp (by omega)
            rw [first, ih bytes' rest]
  apply lists
  simpa [hex] using congrArg String.toList same

/-- The token and the timestamp in order. -/
def tokenAndTimestamp (token timestamp : String) : List Char :=
  if token ≤ timestamp then token.toList ++ timestamp.toList else timestamp.toList ++ token.toList

/-- What is signed, by the place of the nonce. -/
def signedText (token timestamp nonce : String) : List Char :=
  if timestamp ≤ nonce then
    if token ≤ nonce then tokenAndTimestamp token timestamp ++ nonce.toList
    else timestamp.toList ++ (nonce.toList ++ token.toList)
  else if token ≤ nonce then token.toList ++ (nonce.toList ++ timestamp.toList)
  else nonce.toList ++ tokenAndTimestamp token timestamp

theorem flatMap_sorted (token timestamp nonce : String) :
    (([token, timestamp, nonce].mergeSort fun a b => decide (a ≤ b)).flatMap String.toList) =
      signedText token timestamp nonce := by
  rw [List.mergeSort_eq_insertionSort]
  simp only [List.insertionSort, List.foldr, List.orderedInsert, signedText, tokenAndTimestamp]
  by_cases after : timestamp ≤ nonce
  · by_cases below : token ≤ timestamp
    · simp [after, below, le_trans below after]
    · by_cases last : token ≤ nonce
      · simp [after, below, last]
      · simp [after, below, last]
  · by_cases last : token ≤ nonce
    · simp [after, last]
    · by_cases below : token ≤ timestamp
      · simp [after, below, last]
      · simp [after, below, last]

theorem plainSignature_eq (crates : CryptoCrates) (token timestamp nonce : String) :
    plainSignature crates token timestamp nonce =
      sha1Hex crates (utf8 (signedText token timestamp nonce)) := by
  rw [plainSignature, signatureOf, flatMap_sorted]

theorem plainSignature_eq_iff {crates : CryptoCrates} (injective : Function.Injective crates.sha1)
    {token timestamp nonce timestamp' nonce' : String} :
    plainSignature crates token timestamp nonce = plainSignature crates token timestamp' nonce' ↔
      signedText token timestamp nonce = signedText token timestamp' nonce' := by
  rw [plainSignature_eq, plainSignature_eq]
  refine ⟨fun same => ?_, fun same => by rw [same]⟩
  exact utf8_injective (injective (hex_injective same))

section
variable {token timestamp nonce timestamp' nonce' : String}

theorem length_tokenAndTimestamp :
    (tokenAndTimestamp token timestamp).length = token.length + timestamp.length := by
  rw [tokenAndTimestamp]
  split
  · rw [List.length_append, String.length_toList, String.length_toList]
  · rw [List.length_append, String.length_toList, String.length_toList, Nat.add_comm]

/-- The two nonces stand at the same place among the sorted parts. -/
structure SamePlace (token timestamp nonce timestamp' nonce' : String) : Prop where
  timestamp : timestamp ≤ nonce ↔ timestamp' ≤ nonce'
  token : token ≤ nonce ↔ token ≤ nonce'

theorem nonce_eq_of_length (place : SamePlace token timestamp nonce timestamp' nonce')
    (length : timestamp.length = timestamp'.length)
    (same : signedText token timestamp nonce = signedText token timestamp' nonce') :
    nonce = nonce' := by
  have lists : timestamp.toList.length = timestamp'.toList.length := by
    rw [String.length_toList, String.length_toList, length]
  have pairs : (tokenAndTimestamp token timestamp).length =
      (tokenAndTimestamp token timestamp').length := by
    rw [length_tokenAndTimestamp, length_tokenAndTimestamp, length]
  simp only [signedText, place.timestamp, place.token] at same
  apply String.toList_inj.mp
  split_ifs at same
  · exact (List.append_inj same pairs).2
  · exact List.append_cancel_right (List.append_inj same lists).2
  · exact (List.append_inj' (List.append_cancel_left same) lists).1
  · exact (List.append_inj' same pairs).1

/-- One of the texts begins or ends with the other. -/
def Nested (xs ys : List Char) : Prop := (xs <+: ys ∨ ys <+: xs) ∨ xs <:+ ys ∨ ys <:+ xs

theorem Nested.of_append_left {xs ys xs' ys' : List Char} (h : xs ++ ys = xs' ++ ys') :
    Nested xs xs' :=
  .inl (List.prefix_or_prefix_of_prefix (List.prefix_append xs ys) (h ▸ List.prefix_append xs' ys'))

theorem Nested.of_append_right {xs ys xs' ys' : List Char} (h : ys ++ xs = ys' ++ xs') :
    Nested xs xs' :=
  .inr (List.suffix_or_suffix_of_suffix (List.suffix_append ys xs) (h ▸ List.suffix_append ys' xs'))

/-- Where the parts are sorted alike, the timestamps begin or end at the same place. -/
theorem nested_timestamps (place : SamePlace token timestamp nonce timestamp' nonce')
    (order : token ≤ timestamp ↔ token ≤ timestamp')
    (same : signedText token timestamp nonce = signedText token timestamp' nonce') :
    Nested timestamp.toList timestamp'.toList := by
  simp only [signedText, tokenAndTimestamp, place.timestamp, place.token, order] at same
  split_ifs at same
  · rw [List.append_assoc, List.append_assoc] at same
    exact .of_append_left (List.append_cancel_left same)
  · rw [List.append_assoc, List.append_assoc] at same
    exact .of_append_left same
  · exact .of_append_left same
  · exact .of_append_right (List.append_cancel_left same)
  · rw [← List.append_assoc, ← List.append_assoc] at same
    exact .of_append_right same
  · rw [← List.append_assoc, ← List.append_assoc] at same
    exact .of_append_right (List.append_cancel_right same)

end
end Signature

section Decimals

theorem lt_pow_length_toDigits (n : Nat) : n < 10 ^ (Nat.toDigits 10 n).length := by
  induction n using Nat.strongRecOn with
  | ind n ih =>
      by_cases small : n < 10
      · rw [Nat.toDigits_of_lt_base small]
        exact small
      · rw [Nat.toDigits_of_base_le (by decide) (by omega), List.length_append,
          List.length_singleton, Nat.pow_succ]
        have quotient := ih (n / 10) (by omega)
        omega

theorem eq_of_toDigits_starts {m n : Nat} (h : Nat.toDigits 10 m <+: Nat.toDigits 10 n)
    (near : n < 10 * m) : m = n := by
  obtain ⟨rest, digits⟩ := h
  have value : n = 10 ^ rest.length * m + Nat.ofDigitChars 10 rest 0 := by
    have read := congrArg (Nat.ofDigitChars 10 · 0) digits
    rw [Nat.ofDigitChars_append, Nat.ofDigitChars_ten_toDigits, Nat.ofDigitChars_ten_toDigits,
      Nat.ofDigitChars_eq_ofDigitChars_zero] at read
    exact read.symm
  cases rest with
  | nil => simpa using value.symm
  | cons c rest =>
      have large : 10 * m ≤ 10 ^ (c :: rest).length * m := by
        rw [List.length_cons, Nat.pow_succ, Nat.mul_comm _ 10, Nat.mul_assoc]
        exact Nat.mul_le_mul_left 10 (Nat.le_mul_of_pos_left m (Nat.pow_pos (by decide)))
      omega

theorem eq_of_toDigits_ends {m n : Nat} (h : Nat.toDigits 10 m <:+ Nat.toDigits 10 n)
    (near : n ≤ 2 * m) : m = n := by
  obtain ⟨first, digits⟩ := h
  have value : n = 10 ^ (Nat.toDigits 10 m).length * Nat.ofDigitChars 10 first 0 + m := by
    have read := congrArg (Nat.ofDigitChars 10 · 0) digits
    rw [Nat.ofDigitChars_append, Nat.ofDigitChars_eq_ofDigitChars_zero,
      Nat.ofDigitChars_ten_toDigits, Nat.ofDigitChars_ten_toDigits] at read
    exact read.symm
  have bound := lt_pow_length_toDigits m
  cases hv : Nat.ofDigitChars 10 first 0 with
  | zero =>
      rw [hv] at value
      omega
  | succ v =>
      rw [hv, Nat.mul_succ] at value
      have := Nat.zero_le (10 ^ (Nat.toDigits 10 m).length * v)
      omega

theorem eq_of_nested {m n : Nat} (h : Signature.Nested m.repr.toList n.repr.toList)
    (hm : m ≤ 2 * n) (hn : n ≤ 2 * m) (pos : 0 < m) : m = n := by
  rw [Nat.toList_repr, Nat.toList_repr] at h
  obtain (start | start) | tail | tail := h
  · exact eq_of_toDigits_starts start (by omega)
  · exact (eq_of_toDigits_starts start (by omega)).symm
  · exact eq_of_toDigits_ends tail hn
  · exact (eq_of_toDigits_ends tail hm).symm

end Decimals

theorem parseI64_repr (n : Nat) : parseI64 n.repr = if inI64 n then some (n : Int) else none := by
  have value := digitsValue_repr n
  rw [parseI64]
  split
  · next ds sign =>
      have digit :=
        Nat.isDigit_of_mem_toDigits (c := '+') (b := 10) (n := n) (by decide) (by decide)
      rw [← Nat.toList_repr, sign] at digit
      exact absurd (digit List.mem_cons_self) (by decide)
  · next ds sign =>
      have digit :=
        Nat.isDigit_of_mem_toDigits (c := '-') (b := 10) (n := n) (by decide) (by decide)
      rw [← Nat.toList_repr, sign] at digit
      exact absurd (digit List.mem_cons_self) (by decide)
  · next ds _ _ =>
      rw [value]
      rfl

/-- The timestamp passes the window test at this reading of the clock (`pastWindow_iff`). -/
def InWindow (wall : Int) (timestamp : String) : Prop :=
  ∃ tsNum, parseI64 timestamp = some tsNum ∧ outsideWindow (currentUnixSecs wall) tsNum = false

theorem currentUnixSecs_le (wall : Int) : currentUnixSecs wall ≤ i64Max := by
  rw [currentUnixSecs]
  split
  · decide
  · have below : wrapI64 (wall / 1000000000) ≤ ((2 ^ 64 - 1 : Nat) : Int) / 2 :=
      Int.bmod_le (by decide)
    exact below

theorem natAbs_le_of_inWindow {wall : Int} {n : Nat} (h : InWindow wall n.repr)
    (clock : 0 ≤ currentUnixSecs wall) : (currentUnixSecs wall - n).natAbs ≤ 300 := by
  obtain ⟨tsNum, parsed, inside⟩ := h
  rw [parseI64_repr] at parsed
  split_ifs at parsed with fits
  cases parsed
  have limit := currentUnixSecs_le wall
  have range : (n : Int) ≤ 2 ^ 63 - 1 := fits.2
  have limit : currentUnixSecs wall ≤ 2 ^ 63 - 1 := limit
  rw [outsideWindow, wrapI64_eq _ (by omega) (by omega), decide_eq_false_iff_not, absI64] at inside
  simp only [replayWindowSecs] at inside
  split at inside
  · rw [wrapI64_eq _ (by omega) (by omega)] at inside
    omega
  · omega

/-- Where the timestamps end: they have one length, or both are decimals as one writes them,
which sort alike and are read at a clock that is some minutes past the epoch. -/
inductive EndsKnown (wall : Int) (token timestamp timestamp' : String) : Prop
  | length : timestamp.length = timestamp'.length → EndsKnown wall token timestamp timestamp'
  | decimals (n n' : Nat) : timestamp = n.repr → timestamp' = n'.repr →
      (token ≤ timestamp ↔ token ≤ timestamp') → 1000 ≤ currentUnixSecs wall →
      EndsKnown wall token timestamp timestamp'

open Signature in
theorem signature_pins_nonce (crates : CryptoCrates) (injective : Function.Injective crates.sha1)
    (wall : Int) (token timestamp nonce timestamp' nonce' : String)
    (window : InWindow wall timestamp) (window' : InWindow wall timestamp')
    (place : SamePlace token timestamp nonce timestamp' nonce')
    (ends : EndsKnown wall token timestamp timestamp')
    (same : plainSignature crates token timestamp nonce =
      plainSignature crates token timestamp' nonce') : nonce = nonce' := by
  have text := (plainSignature_eq_iff injective).mp same
  cases ends with
  | length length => exact nonce_eq_of_length place length text
  | decimals n n' decimal decimal' order clock =>
      have nested := nested_timestamps place order text
      subst decimal decimal'
      have near := natAbs_le_of_inWindow window (by omega)
      have near' := natAbs_le_of_inWindow window' (by omega)
      obtain rfl : n = n' := eq_of_nested nested (by omega) (by omega) (by omega)
      exact nonce_eq_of_length place rfl text

/-- SHA-1 of the text of the example below. -/
def exampleDigest : List UInt8 :=
  [0x44, 0xaa, 0xe8, 0x65, 0x58, 0xde, 0xa7, 0x19, 0x94, 0xcd, 0x4c, 0x4c, 0xdb, 0x4d, 0xc2,
    0x08, 0x02, 0x8b, 0xee, 0x44]

/-- SHA-1 on that text, something injective elsewhere. -/
def exampleSha1 (bytes : List UInt8) : List UInt8 :=
  if bytes = utf8 "1717171617171717161717171716abc".toList then exampleDigest
  else List.replicate 21 0 ++ bytes

theorem exampleSha1_injective : Function.Injective exampleSha1 := by
  have shorter : ∀ bytes, exampleDigest ≠ List.replicate 21 0 ++ bytes := by
    intro bytes same
    have lengths := congrArg List.length same
    rw [List.length_append, List.length_replicate] at lengths
    change 20 = 21 + bytes.length at lengths
    omega
  intro xs ys same
  unfold exampleSha1 at same
  split_ifs at same with hx hy hy
  · exact hx.trans hy.symm
  · exact absurd same (shorter ys)
  · exact absurd same.symm (shorter xs)
  · exact List.append_cancel_left same

def exampleCrates : CryptoCrates where
  aes256 := ⟨fun _ block => block, fun _ block => block, fun _ _ => rfl⟩
  sha1 := exampleSha1
  base64Error := id
  unpadError := "Unpad Error"
  utf8Error _ := "invalid utf-8"

open Signature in
/-- Two timestamps with one signature, under a token of digits that sorts between them. -/
theorem signature_pins_nonce_example : ∃ nonce nonce' : String,
    plainSignature exampleCrates "171717161717171716" "1717171617" nonce =
      "44aae86558dea71994cd4c4cdb4dc208028bee44" ∧
    plainSignature exampleCrates "171717161717171716" "1717171716" nonce' =
      "44aae86558dea71994cd4c4cdb4dc208028bee44" ∧ nonce = nonce' := by
  have same : plainSignature exampleCrates "171717161717171716" "1717171617" "abc" =
      plainSignature exampleCrates "171717161717171716" "1717171716" "abc" :=
    (plainSignature_eq_iff exampleSha1_injective).mpr (by decide)
  have digest : plainSignature exampleCrates "171717161717171716" "1717171617" "abc" =
      "44aae86558dea71994cd4c4cdb4dc208028bee44" := by
    rw [plainSignature_eq]
    decide +kernel
  refine ⟨"abc", "abc", digest, same.symm.trans digest, ?_⟩
  exact signature_pins_nonce exampleCrates exampleSha1_injective 1717171650000000000
    "171717161717171716" "1717171617" "abc" "1717171716" "abc"
    ⟨1717171617, by decide +kernel, by decide +kernel⟩
    ⟨1717171716, by decide +kernel, by decide +kernel⟩ ⟨by decide, by decide⟩
    (.length (by decide)) same

open Signature in
/-- A nonce that is a timestamp may change places with it, and a leading zero of a timestamp
may go to a nonce before it. -/
theorem signature_leaves_nonce_open :
    InWindow 1700000000000000000 "1700000000" ∧ InWindow 1700000000000000000 "1700000001" ∧
    InWindow 1700000000000000000 "01700000000" ∧ ∀ crates : CryptoCrates,
      (plainSignature crates "token" "1700000000" "1700000001" =
        plainSignature crates "token" "1700000001" "1700000000" ∧ "1700000001" ≠ "1700000000") ∧
      (plainSignature crates "token" "1700000000" "000" =
        plainSignature crates "token" "01700000000" "00" ∧ "000" ≠ "00") := by
  refine ⟨⟨1700000000, by decide +kernel, by decide⟩, ⟨1700000001, by decide +kernel, by decide⟩,
    ⟨1700000000, by decide +kernel, by decide⟩, fun crates => ⟨⟨?_, by decide⟩, ?_, by decide⟩⟩
  · have text : signedText "token" "1700000000" "1700000001" =
        signedText "token" "1700000001" "1700000000" := by decide
    rw [plainSignature_eq, plainSignature_eq, text]
  · have text : signedText "token" "1700000000" "000" = signedText "token" "01700000000" "00" := by
      decide
    rw [plainSignature_eq, plainSignature_eq, text]

end EvoclawPluginWechat
