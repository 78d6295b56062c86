import EvoclawPluginWechat.Core.Intent
import EvoclawPluginWechat.Library.Json
import EvoclawPluginWechat.Library.Selection

/-!
`extract_json` on characters: its loop over bytes never sees a part of a character as a quote,
a backslash or a brace, and what it returns is the first text whose braces balance, as long as
they nest less deep than the counter wraps.
-/
namespace EvoclawPluginWechat
namespace Ai
open Ascii Json Selection

/-- The flags of the loop. -/
def inString : Mode → Bool
  | .outside => false
  | .inside | .escaped => true

def escaped : Mode → Bool
  | .outside | .inside => false
  | .escaped => true

/-- The loop over characters: what it reads, up to the closing brace that brings `depth` to
zero. -/
def readObject (depth : Int) (m : Mode) : List Char → Option (List Char)
  | [] => none
  | c :: cs =>
      (if m = .outside ∧ c = '{' then readObject (wrapI32 (depth + 1)) .outside cs
      else if m = .outside ∧ c = '}' then
        if wrapI32 (depth - 1) = 0 then some [] else readObject (wrapI32 (depth - 1)) .outside cs
      else readObject depth (m.next c) cs).map (c :: ·)

section Bytes
variable {c : Char} {rest : List UInt8}

theorem scanObject_high_plain {bs : List UInt8} (depth : Int) (inside : Bool)
    (h : ∀ b ∈ bs, High b) :
    scanObject depth inside false (bs ++ rest) =
      (scanObject depth inside false rest).map (· + bs.length) := by
  induction bs with
  | nil => simp
  | cons b bs ih =>
      have other : ∀ b', ¬ High b' → b ≠ b' := fun _ => (h b List.mem_cons_self).ne
      have quote := other 34 (by decide)
      have backslash := other 92 (by decide)
      have opening := other 123 (by decide)
      have closing := other 125 (by decide)
      rw [List.cons_append, scanObject]
      simp only [quote, backslash, opening, closing, false_and, if_false, Bool.false_eq_true,
        ih fun b hb => h b (List.mem_cons_of_mem _ hb), Option.map_map]
      rfl

/-- What the loop does on a character, at the flags of `m`. -/
def scanChar (depth : Int) (m : Mode) (c : Char) (rest : List UInt8) : Option Nat :=
  let scan (depth : Int) (m : Mode) := scanObject depth (inString m) (escaped m) rest
  if m = .outside ∧ c = '{' then scan (wrapI32 (depth + 1)) .outside
  else if m = .outside ∧ c = '}' then
    if wrapI32 (depth - 1) = 0 then some 0 else scan (wrapI32 (depth - 1)) .outside
  else scan depth (m.next c)

theorem scanObject_ascii (depth : Int) (m : Mode) (h : c.val.toNat < 128) :
    scanObject depth (inString m) (escaped m) (UInt8.ofNat c.val.toNat :: rest) =
      (scanChar depth m c rest).map (· + 1) := by
  have code : ∀ (d : Char) (b : UInt8), d.val.toNat < 128 → UInt8.ofNat d.val.toNat = b →
      (UInt8.ofNat c.val.toNat = b ↔ c = d) := by
    rintro d _ hd rfl
    exact ofNat_eq_iff h hd
  have quote := code '"' 34 (by decide) rfl
  have backslash := code '\\' 92 (by decide) rfl
  have opening := code '{' 123 (by decide) rfl
  have closing := code '}' 125 (by decide) rfl
  rw [scanObject]
  simp only [quote, backslash, opening, closing, scanChar]
  cases m with
  | outside =>
      by_cases hc : c = '"'
      · simp [hc, inString, escaped, Mode.next]
      · simp [hc, inString, escaped, Mode.next]
  | inside =>
      by_cases hb : c = '\\'
      · simp [hb, inString, escaped, Mode.next]
      · by_cases hc : c = '"'
        · simp [hc, inString, escaped, Mode.next]
        · simp [hb, hc, inString, escaped, Mode.next]
  | escaped => simp [inString, escaped, Mode.next]

theorem scanObject_char (depth : Int) (m : Mode) (c : Char) (rest : List UInt8) :
    scanObject depth (inString m) (escaped m) (String.utf8EncodeChar c ++ rest) =
      (scanChar depth m c rest).map (· + (String.utf8EncodeChar c).length) := by
  obtain ⟨ascii, single⟩ | ⟨above, nonempty, high⟩ := utf8EncodeChar_cases c
  · rw [single]
    exact scanObject_ascii depth m ascii
  · -- none of its bytes is one that the loop looks for
    have other : ∀ d : Char, d.val.toNat < 128 → c ≠ d := by
      rintro d hd rfl
      exact absurd hd (Nat.not_lt.mpr above)
    have quote := other '"' (by decide)
    have backslash := other '\\' (by decide)
    have opening := other '{' (by decide)
    have closing := other '}' (by decide)
    cases m with
    | outside =>
        simp only [scanChar, opening, closing, and_false, if_false, Mode.next, quote]
        exact scanObject_high_plain depth false high
    | inside =>
        simp only [scanChar, reduceCtorEq, false_and, if_false, Mode.next, quote, backslash]
        exact scanObject_high_plain depth true high
    | escaped =>
        obtain ⟨b, bs, split⟩ := List.exists_cons_of_ne_nil nonempty
        have tail : ∀ b ∈ bs, High b := fun b hb => high b (split ▸ List.mem_cons_of_mem _ hb)
        simp only [scanChar, reduceCtorEq, false_and, if_false, Mode.next, split]
        rw [List.cons_append, scanObject]
        simp only [inString, escaped, if_true, scanObject_high_plain depth _ tail,
          Option.map_map]
        rfl

theorem scanObject_utf8 (depth : Int) (m : Mode) (cs : List Char) :
    scanObject depth (inString m) (escaped m) (utf8 cs) =
      (readObject depth m cs).map fun s => (utf8 s).length := by
  induction cs generalizing depth m with
  | nil => rfl
  | cons c cs ih =>
      have lengths : (· + (String.utf8EncodeChar c).length) ∘ (fun s => (utf8 s).length) =
          (fun s => (utf8 s).length) ∘ (c :: ·) := by
        funext s
        simp only [utf8, Function.comp_apply, List.flatMap_cons, List.length_append, Nat.add_comm]
      have bytes : utf8 (c :: cs) = String.utf8EncodeChar c ++ utf8 cs := rfl
      rw [bytes, scanObject_char, scanChar, readObject]
      simp only [ih]
      split_ifs
      · rw [Option.map_map, Option.map_map, lengths]
      · exact congrArg some (congrFun lengths [])
      · rw [Option.map_map, Option.map_map, lengths]
      · rw [Option.map_map, Option.map_map, lengths]

end Bytes

section Loop
variable {m : Mode} {c : Char} {cs s t : List Char} {D : Int}

/-- The loop that has read `s` from the depth `D` on returns. -/
def Ends (D : Int) (m : Mode) (s : List Char) : Prop :=
  Closes m s ∧ wrapI32 (D + depth m s) = 0

theorem not_ends_nil (D : Int) (m : Mode) : ¬ Ends D m [] := fun h => not_closes_nil m h.1

theorem ends_open : Ends D .outside ('{' :: t) ↔ Ends (D + 1) .outside t := by
  have closes : Closes .outside ('{' :: t) ↔ Closes .outside t := by
    simp [closes_cons, Mode.next]
  rw [Ends, Ends, closes, depth_open, Int.add_assoc]

theorem ends_close : Ends D .outside ('}' :: t) ↔
    (t = [] ∧ wrapI32 (D - 1) = 0) ∨ Ends (D - 1) .outside t := by
  have closes : Closes .outside ('}' :: t) ↔ t = [] ∨ Closes .outside t := by
    simp [closes_cons, Mode.next]
  have total : D + depth .outside ('}' :: t) = D - 1 + depth .outside t := by
    rw [depth_close]
    omega
  rw [Ends, Ends, closes, total, or_and_right]
  refine or_congr_left (and_congr_right ?_)
  rintro rfl
  rw [depth_nil, Int.add_zero]

theorem ends_cons (h : ¬ (m = .outside ∧ (c = '{' ∨ c = '}'))) :
    Ends D m (c :: t) ↔ Ends D (m.next c) t := by
  have closes : Closes m (c :: t) ↔ Closes (m.next c) t := by
    rw [closes_cons, or_iff_right]
    exact fun last => h ⟨last.1, .inr last.2.1⟩
  rw [Ends, Ends, closes, depth_cons h]

theorem readObject_eq_some (D : Int) (m : Mode) (cs s : List Char) :
    readObject (wrapI32 D) m cs = some s ↔ Shortest (Ends D m) cs s := by
  have up : ∀ D, wrapI32 (wrapI32 D + 1) = wrapI32 (D + 1) :=
    fun _ => Int.bmod_add_bmod
  have down : ∀ D, wrapI32 (wrapI32 D - 1) = wrapI32 (D - 1) :=
    fun _ => Int.bmod_sub_bmod
  induction cs generalizing D m s with
  | nil => exact iff_of_false (fun h => nomatch h) (not_shortest_nil (not_ends_nil D m))
  | cons c cs ih =>
      rw [shortest_cons (not_ends_nil D m), readObject, Option.map_eq_some_iff]
      refine exists_congr fun t => and_congr_left' ?_
      by_cases brace : m = .outside ∧ (c = '{' ∨ c = '}')
      · obtain ⟨rfl, rfl | rfl⟩ := brace
        · rw [if_pos ⟨rfl, rfl⟩, up]
          exact (ih (D + 1) .outside t).trans (shortest_congr fun t => ends_open.symm)
        · rw [if_neg (by decide), if_pos ⟨rfl, rfl⟩, down]
          by_cases zero : wrapI32 (D - 1) = 0
          · rw [if_pos zero, shortest_of_nil (ends_close.mpr (.inl ⟨rfl, zero⟩)), Option.some_inj,
              eq_comm]
          · rw [if_neg zero]
            refine (ih (D - 1) .outside t).trans (shortest_congr fun t => ?_)
            rw [ends_close, or_iff_right fun last => zero last.2]
      · have opening : ¬ (m = .outside ∧ c = '{') := fun h => brace ⟨h.1, .inl h.2⟩
        have closing : ¬ (m = .outside ∧ c = '}') := fun h => brace ⟨h.1, .inr h.2⟩
        rw [if_neg opening, if_neg closing]
        exact (ih D (m.next c) t).trans (shortest_congr fun t => (ends_cons brace).symm)

end Loop

section Slices
variable {raw : String} {front rest : List Char}

theorem splitAtByte_utf8 (xs ys : List Char) :
    splitAtByte (utf8 xs).length (xs ++ ys) = some (xs, ys) := by
  induction xs with
  | nil => cases ys <;> rfl
  | cons c xs ih =>
      have size : (utf8 (c :: xs)).length = c.utf8Size + (utf8 xs).length := by
        simp [utf8]
      obtain ⟨n, hn⟩ := Nat.exists_eq_succ_of_ne_zero (Nat.ne_of_gt c.utf8Size_pos)
      have succ : (utf8 (c :: xs)).length = (n + (utf8 xs).length) + 1 := by omega
      have left : n + (utf8 xs).length + 1 - c.utf8Size = (utf8 xs).length := by omega
      rw [succ, List.cons_append, splitAtByte, if_pos (by omega), left, ih]
      rfl

theorem slice_utf8 (front s back : List Char) (h : raw.toList = front ++ (s ++ back)) :
    slice raw (utf8 front).length (utf8 s).length = some (String.ofList s) := by
  have outer := splitAtByte_utf8 front (s ++ back)
  have inner := splitAtByte_utf8 s back
  simp only [slice, h, outer, Option.bind_eq_bind, Option.bind_some, inner]
  rfl

theorem findIdx?_opening {cs : List Char} (h : '{' ∉ cs) :
    (utf8 cs).findIdx? (· == 123) = none := by
  rw [List.findIdx?_eq_none_iff]
  intro b hb
  rw [beq_eq_false_iff_ne]
  rintro rfl
  exact notMem_utf8 (d := '{') (by decide) h hb

theorem extractJson_of_notMem (h : '{' ∉ raw.toList) : extractJson raw = .returned none := by
  simp only [extractJson, findIdx?_opening h]

/-- The loop starts at the first opening brace, and its slice never cuts a character. -/
theorem extractJson_of_mem (hraw : raw.toList = front ++ '{' :: rest) (h : '{' ∉ front) :
    extractJson raw =
      .returned ((readObject 0 .outside ('{' :: rest)).map String.ofList) := by
  have split : utf8 raw.toList = utf8 front ++ utf8 ('{' :: rest) := by
    rw [hraw, utf8, List.flatMap_append]
    rfl
  have start : (utf8 raw.toList).findIdx? (· == 123) = some (utf8 front).length := by
    have first : (utf8 ('{' :: rest)).findIdx? (· == 123) = some 0 := rfl
    rw [split, List.findIdx?_append, findIdx?_opening h, first]
    simp
  have scan : scanObject 0 false false (utf8 ('{' :: rest)) =
      (readObject 0 .outside ('{' :: rest)).map fun s => (utf8 s).length :=
    scanObject_utf8 0 .outside ('{' :: rest)
  have dropped : (utf8 raw.toList).drop (utf8 front).length = utf8 ('{' :: rest) := by
    rw [split, List.drop_left]
  simp only [extractJson, start, dropped, scan]
  cases read : readObject 0 .outside ('{' :: rest) with
  | none => rfl
  | some s =>
      obtain ⟨⟨back, hback⟩, _⟩ := (readObject_eq_some 0 _ _ _).mp read
      rw [← hback] at hraw
      simp only [Option.map_some, slice_utf8 front s back hraw]

theorem extractJson_eq_some (hraw : raw.toList = front ++ '{' :: rest) (h : '{' ∉ front)
    (s : String) : extractJson raw = .returned (some s) ↔
      Shortest (Ends 0 .outside) ('{' :: rest) s.toList := by
  rw [extractJson_of_mem hraw h, Outcome.returned.injEq, Option.map_eq_some_iff,
    ← readObject_eq_some 0 .outside ('{' :: rest) s.toList]
  constructor
  · rintro ⟨t, read, rfl⟩
    rw [String.toList_ofList]
    exact read
  · exact fun read => ⟨s.toList, read, String.ofList_toList⟩

theorem extractJson_returned (raw : String) : ∃ found, extractJson raw = .returned found := by
  by_cases opening : '{' ∈ raw.toList
  · obtain ⟨front, rest, split, first⟩ := List.eq_append_cons_of_mem opening
    exact ⟨_, extractJson_of_mem split first⟩
  · exact ⟨none, extractJson_of_notMem opening⟩

end Slices

section Objects
variable {s t cs rest : List Char}

/-- The braces nest no deeper than the counter counts. -/
def Shallow (cs : List Char) : Prop := ∀ p, p <+: cs → depth .outside p ≤ 2 ^ 32

theorem Ends.depth_eq (h : Ends 0 .outside s) : ∃ k : Int, depth .outside s = 2 ^ 32 * k := by
  have zero := h.2
  rw [Int.zero_add] at zero
  exact Int.dvd_of_bmod_eq_zero zero

theorem ends_of_depth {k : Int} (closes : Closes .outside s)
    (h : depth .outside s = 2 ^ 32 * k) : Ends 0 .outside s := by
  refine ⟨closes, ?_⟩
  rw [Int.zero_add]
  exact Int.bmod_eq_zero_of_dvd ⟨k, h⟩

theorem Ends.depth_nonpos (h : Ends 0 .outside s) (shallow : Shallow s) :
    depth .outside s ≤ 0 := by
  obtain ⟨k, hk⟩ := h.depth_eq
  obtain ⟨p, hp, deeper⟩ := h.1.deeper
  have := shallow p hp
  omega

theorem eq_of_depth_nonpos {p : List Char} (h : Shortest (Ends 0 .outside) cs ('{' :: t))
    (hp : p <+: '{' :: t) (nonempty : p ≠ []) (closed : depth .outside p ≤ 0) :
    p = '{' :: t ∧ depth .outside p = 0 := by
  obtain rfl | ⟨q, rfl, hq⟩ := List.prefix_cons_iff.mp hp
  · exact absurd rfl nonempty
  · rw [depth_open] at closed
    obtain ⟨r, hr, closes, eq⟩ := exists_closes (by decide)
      (show depth .outside q ≤ -1 by omega)
    have balanced : depth .outside ('{' :: r) = 0 := by
      rw [depth_open, eq]
      rfl
    have within : '{' :: r <+: '{' :: q := (List.prefix_cons_inj '{').mpr hr
    have whole : '{' :: r = '{' :: t := h.2.2 _ (within.trans hp)
      (ends_of_depth (k := 0) (closes_cons.mpr (.inr closes)) (by rw [balanced]; rfl))
    have same : '{' :: q = '{' :: t :=
      hp.eq_of_length_le (by rw [← whole]; exact within.length_le)
    exact ⟨same, by rw [same, ← whole, balanced]⟩

theorem firstBalanced_of_shallow (h : Shortest (Ends 0 .outside) cs ('{' :: t))
    (shallow : Shallow ('{' :: t)) : FirstBalanced ('{' :: t) := by
  have closed := h.2.1.depth_nonpos shallow
  refine ⟨List.cons_ne_nil _ _, ?_, fun p hp nonempty proper zero => ?_⟩
  · exact (eq_of_depth_nonpos h List.prefix_rfl (List.cons_ne_nil _ _) closed).2
  · exact proper (eq_of_depth_nonpos h hp nonempty (Int.le_of_eq zero)).1

/-- From a depth beyond the counter's the loop returns on the way back. -/
theorem shallow_of_balanced (h : Shortest (Ends 0 .outside) cs s)
    (balanced : depth .outside s = 0) : Shallow s := by
  rintro p ⟨r, rfl⟩
  by_contra deep
  rw [depth_append] at balanced
  obtain ⟨q, hq, closes, eq⟩ := exists_closes (by omega)
    (show depth (Mode.run .outside p) r ≤ 2 ^ 32 - depth .outside p by omega)
  have wrapped : depth .outside (p ++ q) = 2 ^ 32 := by
    rw [depth_append, eq]
    omega
  have early : Ends 0 .outside (p ++ q) :=
    ends_of_depth (k := 1) closes.append (by rw [wrapped]; rfl)
  have whole := h.2.2 _ ((List.prefix_append_right_inj p).mpr hq) early
  rw [whole, depth_append, balanced] at wrapped
  exact absurd wrapped (by decide)

theorem shortest_of_object {j back : List Char} (object : IsObject j) (shallow : Shallow j) :
    Shortest (Ends 0 .outside) (j ++ back) j := by
  obtain ⟨balanced, before⟩ := object.firstBalanced
  refine ⟨List.prefix_append j back, ?_, fun p hp ends => ?_⟩
  · exact ends_of_depth (k := 0) object.closes (by rw [balanced]; rfl)
  · by_contra proper
    have nonempty : p ≠ [] := by
      rintro rfl
      exact not_ends_nil _ _ ends
    have closed := ends.depth_nonpos fun q hq => shallow q (hq.trans hp)
    have := before p hp nonempty proper
    omega

/-- An object is found, whatever stands around it, if and only if its braces nest no deeper
than the counter counts. -/
theorem extractJson_object {front j : String} (back : String) (h : '{' ∉ front.toList)
    (object : IsObject j.toList) :
    extractJson (front ++ j ++ back) = .returned (some j) ↔ Shallow j.toList := by
  obtain ⟨inner, hj, content⟩ := object
  have split : (front ++ j ++ back).toList =
      front.toList ++ '{' :: (inner ++ ['}'] ++ back.toList) := by
    rw [String.toList_append, String.toList_append, hj, List.append_assoc]
    rfl
  have whole : '{' :: (inner ++ ['}'] ++ back.toList) = j.toList ++ back.toList := by
    rw [hj]
    rfl
  have object : IsObject j.toList := ⟨inner, hj, content⟩
  rw [extractJson_eq_some split h, whole]
  constructor
  · exact fun found => shallow_of_balanced found object.firstBalanced.1
  · exact fun shallow => shortest_of_object object shallow

theorem extractJson_amid_noise :
    (∀ front j back : String, '{' ∉ front.toList → IsObject j.toList →
      (extractJson (front ++ j ++ back) = .returned (some j) ↔ Shallow j.toList)) ∧
    ∀ raw s : String, extractJson raw = .returned (some s) →
      ∃ front back, raw = front ++ s ++ back ∧ '{' ∉ front.toList ∧
        s.toList.head? = some '{' ∧ (FirstBalanced s.toList ↔ Shallow s.toList) := by
  refine ⟨fun front j back h object => extractJson_object back h object, fun raw s found => ?_⟩
  have opening : '{' ∈ raw.toList := by
    by_contra absent
    rw [extractJson_of_notMem absent] at found
    cases found
  obtain ⟨front, rest, split, first⟩ := List.eq_append_cons_of_mem opening
  have shortest := (extractJson_eq_some split first s).mp found
  obtain ⟨back, hback⟩ := shortest.1
  obtain ⟨t, ht⟩ : ∃ t, s.toList = '{' :: t := by
    obtain empty | ⟨t, ht, _⟩ := List.prefix_cons_iff.mp shortest.1
    · exact absurd (empty ▸ shortest.2.1) (not_ends_nil _ _)
    · exact ⟨t, ht⟩
  refine ⟨String.ofList front, String.ofList back, ?_, ?_, ?_, ?_, ?_⟩
  · rw [← String.toList_inj, split, ← hback]
    simp
  · rw [String.toList_ofList]
    exact first
  · rw [ht]
    rfl
  · exact fun balanced => shallow_of_balanced shortest balanced.2.1
  · rw [ht] at shortest ⊢
    exact firstBalanced_of_shallow shortest

end Objects

section Deep

/-- Objects within an object, as the values of an empty key. -/
def nested : Nat → List Char
  | 0 => ['{', '}']
  | n + 1 => '{' :: '"' :: '"' :: ':' :: (nested n ++ ['}'])

theorem isObject_nested (n : Nat) : IsObject (nested n) := by
  have blank : Blank [] := fun _ h => absurd h List.not_mem_nil
  induction n with
  | zero => exact ⟨[], rfl, .inl blank⟩
  | succ n ih =>
      have key : IsString ['"', '"'] := ⟨[], .nil, rfl⟩
      have value : Text .element (nested n ++ []) := .element blank ih.value blank
      rw [List.append_nil] at value
      exact ⟨_, rfl, .inr (.lastMember (.member blank key blank value))⟩

theorem exists_deep (n : Nat) : ∃ p, p <+: nested n ∧ depth .outside p = n + 1 := by
  induction n with
  | zero => exact ⟨['{'], ⟨['}'], rfl⟩, rfl⟩
  | succ n ih =>
      obtain ⟨p, hp, eq⟩ := ih
      refine ⟨'{' :: '"' :: '"' :: ':' :: p, ?_, ?_⟩
      · have inner := hp.trans (List.prefix_append (nested n) ['}'])
        simpa only [nested, List.prefix_cons_inj] using inner
      · have quiet : depth .outside ('"' :: '"' :: ':' :: p) = depth .outside p := rfl
        rw [depth_open, quiet, eq]
        push_cast
        omega

theorem not_shallow_nested {n : Nat} (h : 2 ^ 32 ≤ n) : ¬ Shallow (nested n) := by
  intro shallow
  obtain ⟨p, hp, eq⟩ := exists_deep n
  have := shallow p hp
  omega

theorem nested_missed {n : Nat} (h : 2 ^ 32 ≤ n) :
    IsObject (String.ofList (nested n)).toList ∧
      extractJson ("" ++ String.ofList (nested n) ++ "") ≠
        .returned (some (String.ofList (nested n))) := by
  have object : IsObject (String.ofList (nested n)).toList := by
    rw [String.toList_ofList]
    exact isObject_nested n
  refine ⟨object, fun found => ?_⟩
  have shallow := (extractJson_object "" List.not_mem_nil object).mp found
  rw [String.toList_ofList] at shallow
  exact not_shallow_nested h shallow

theorem deep_object_missed : '{' ∉ "".toList ∧
    IsObject (String.ofList (nested (2 ^ 32))).toList ∧
    extractJson ("" ++ String.ofList (nested (2 ^ 32)) ++ "") ≠
      .returned (some (String.ofList (nested (2 ^ 32)))) :=
  ⟨List.not_mem_nil, nested_missed (Nat.le_refl (2 ^ 32))⟩

end Deep

end Ai
end EvoclawPluginWechat
