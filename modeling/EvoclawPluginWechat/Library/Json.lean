import Mathlib.Data.List.Basic
import Mathlib.Data.List.Infix
import Mathlib.Tactic.Common

/-!
The grammar of JSON texts, and the depth of braces in a text that has string literals: the
opening less the closing ones, of those outside the literals.
-/
namespace Json

section Grammar

def isBlank (c : Char) : Bool := c == ' ' || c == '\t' || c == '\n' || c == '\r'

def Blank (cs : List Char) : Prop := ∀ c ∈ cs, isBlank c = true

def isHex (c : Char) : Bool := c.isDigit || ('a' ≤ c && c ≤ 'f') || ('A' ≤ c && c ≤ 'F')

/-- What stands between the quotes of a string literal. -/
inductive StringBody : List Char → Prop
  | nil : StringBody []
  | plain {c : Char} {cs : List Char} : c ≠ '"' → c ≠ '\\' → 0x20 ≤ c.toNat →
      StringBody cs → StringBody (c :: cs)
  | escape {c : Char} {cs : List Char} : c ∈ ['"', '\\', '/', 'b', 'f', 'n', 'r', 't'] →
      StringBody cs → StringBody ('\\' :: c :: cs)
  | unicode {a b c d : Char} {cs : List Char} : (∀ x ∈ [a, b, c, d], isHex x = true) →
      StringBody cs → StringBody ('\\' :: 'u' :: a :: b :: c :: d :: cs)

def IsString (cs : List Char) : Prop := ∃ body, StringBody body ∧ cs = '"' :: (body ++ ['"'])

def Digits (cs : List Char) : Prop := cs ≠ [] ∧ ∀ c ∈ cs, c.isDigit = true

def IsInteger (cs : List Char) : Prop :=
  cs = ['0'] ∨ ∃ d ds, cs = d :: ds ∧ d ≠ '0' ∧ Digits (d :: ds)

def IsFraction (cs : List Char) : Prop := cs = [] ∨ ∃ ds, Digits ds ∧ cs = '.' :: ds

def IsExponent (cs : List Char) : Prop :=
  cs = [] ∨ ∃ e sign ds, (e = 'e' ∨ e = 'E') ∧ (sign = [] ∨ sign = ['+'] ∨ sign = ['-']) ∧
    Digits ds ∧ cs = e :: (sign ++ ds)

def IsNumber (cs : List Char) : Prop :=
  ∃ sign int frac exp, (sign = [] ∨ sign = ['-']) ∧ IsInteger int ∧ IsFraction frac ∧
    IsExponent exp ∧ cs = sign ++ (int ++ (frac ++ exp))

inductive Kind
  | value
  /-- A value with the white space around it. -/
  | element
  | elements
  | member
  | members

/-- The texts of a kind. -/
inductive Text : Kind → List Char → Prop
  | literal {cs : List Char} : cs ∈ ["null".toList, "true".toList, "false".toList] →
      Text .value cs
  | number {cs : List Char} : IsNumber cs → Text .value cs
  | string {cs : List Char} : IsString cs → Text .value cs
  | emptyArray {gap : List Char} : Blank gap → Text .value ('[' :: (gap ++ [']']))
  | array {cs : List Char} : Text .elements cs → Text .value ('[' :: (cs ++ [']']))
  | emptyObject {gap : List Char} : Blank gap → Text .value ('{' :: (gap ++ ['}']))
  | object {cs : List Char} : Text .members cs → Text .value ('{' :: (cs ++ ['}']))
  | element {gap cs gap' : List Char} : Blank gap → Text .value cs → Blank gap' →
      Text .element (gap ++ (cs ++ gap'))
  | lastElement {cs : List Char} : Text .element cs → Text .elements cs
  | elements {cs rest : List Char} : Text .element cs → Text .elements rest →
      Text .elements (cs ++ ',' :: rest)
  | member {gap key gap' cs : List Char} : Blank gap → IsString key → Blank gap' →
      Text .element cs → Text .member (gap ++ (key ++ (gap' ++ ':' :: cs)))
  | lastMember {cs : List Char} : Text .member cs → Text .members cs
  | members {cs rest : List Char} : Text .member cs → Text .members rest →
      Text .members (cs ++ ',' :: rest)

def IsObject (cs : List Char) : Prop :=
  ∃ inner, cs = '{' :: (inner ++ ['}']) ∧ (Blank inner ∨ Text .members inner)

theorem IsObject.value {cs : List Char} (h : IsObject cs) : Text .value cs := by
  obtain ⟨inner, rfl, blank | members⟩ := h
  · exact .emptyObject blank
  · exact .object members

end Grammar

section Depth

/-- Where a reader is that knows string literals and nothing else. -/
inductive Mode
  | outside
  | inside
  | escaped
  deriving DecidableEq

def Mode.next : Mode → Char → Mode
  | .outside, c => if c = '"' then .inside else .outside
  | .inside, c => if c = '\\' then .escaped else if c = '"' then .outside else .inside
  | .escaped, _ => .inside

def Mode.run (m : Mode) (cs : List Char) : Mode := cs.foldl Mode.next m

/-- What is read outside the literals. -/
def bare : Mode → List Char → List Char
  | _, [] => []
  | m, c :: cs => if m = .outside then c :: bare (m.next c) cs else bare (m.next c) cs

/-- The braces that are open after the text. -/
def depth (m : Mode) (cs : List Char) : Int :=
  (bare m cs).count '{' - (bare m cs).count '}'

/-- The braces outside the literals balance, and in no shorter beginning of the text. -/
def FirstBalanced (cs : List Char) : Prop :=
  cs ≠ [] ∧ depth .outside cs = 0 ∧
    ∀ p, p <+: cs → p ≠ [] → p ≠ cs → depth .outside p ≠ 0

variable {m : Mode} {c : Char} {cs ds p : List Char}

theorem Mode.run_append (m : Mode) (cs ds : List Char) : m.run (cs ++ ds) = (m.run cs).run ds :=
  List.foldl_append

theorem bare_append (m : Mode) (cs ds : List Char) :
    bare m (cs ++ ds) = bare m cs ++ bare (m.run cs) ds := by
  induction cs generalizing m with
  | nil => rfl
  | cons c cs ih =>
      simp only [List.cons_append, bare, ih, Mode.run, List.foldl_cons]
      split_ifs
      · rfl
      · rfl

theorem depth_nil (m : Mode) : depth m [] = 0 := rfl

theorem depth_append (m : Mode) (cs ds : List Char) :
    depth m (cs ++ ds) = depth m cs + depth (m.run cs) ds := by
  simp only [depth, bare_append, List.count_append]
  omega

theorem depth_open (cs : List Char) : depth .outside ('{' :: cs) = 1 + depth .outside cs := by
  simp [depth, bare, Mode.next]
  omega

theorem depth_close (cs : List Char) : depth .outside ('}' :: cs) = -1 + depth .outside cs := by
  simp [depth, bare, Mode.next]
  omega

theorem depth_cons (h : ¬ (m = .outside ∧ (c = '{' ∨ c = '}'))) (cs : List Char) :
    depth m (c :: cs) = depth (m.next c) cs := by
  by_cases out : m = .outside
  · have other : c ≠ '{' ∧ c ≠ '}' := not_or.mp fun brace => h ⟨out, brace⟩
    simp [depth, bare, out, other.1, other.2]
  · simp [depth, bare, out]

/-- The text ends with a closing brace outside the literals. -/
def Closes (m : Mode) (cs : List Char) : Prop := ∃ p, cs = p ++ ['}'] ∧ m.run p = .outside

theorem not_closes_nil (m : Mode) : ¬ Closes m [] := by
  rintro ⟨p, split, _⟩
  exact List.append_ne_nil_of_right_ne_nil p (List.cons_ne_nil _ _) split.symm

theorem closes_cons : Closes m (c :: cs) ↔
    (m = .outside ∧ c = '}' ∧ cs = []) ∨ Closes (m.next c) cs := by
  constructor
  · rintro ⟨_ | ⟨d, p⟩, split, run⟩
    · obtain ⟨rfl, rfl⟩ := List.cons.inj split
      exact .inl ⟨run, rfl, rfl⟩
    · obtain ⟨rfl, rest⟩ := List.cons.inj split
      exact .inr ⟨p, rest, run⟩
  · rintro (⟨rfl, rfl, rfl⟩ | ⟨p, rfl, run⟩)
    · exact ⟨[], rfl, rfl⟩
    · exact ⟨c :: p, rfl, run⟩

theorem Closes.append (h : Closes (m.run cs) ds) : Closes m (cs ++ ds) := by
  obtain ⟨p, rfl, run⟩ := h
  exact ⟨cs ++ p, (List.append_assoc cs p _).symm, (Mode.run_append m cs p).trans run⟩

theorem Closes.deeper (h : Closes m cs) : ∃ p, p <+: cs ∧ depth m p = depth m cs + 1 := by
  obtain ⟨p, rfl, run⟩ := h
  refine ⟨p, List.prefix_append p _, ?_⟩
  rw [depth_append, run, depth_close, depth_nil]
  omega

theorem exists_closes {n : Int} (below : n < 0) (h : depth m cs ≤ n) :
    ∃ p, p <+: cs ∧ Closes m p ∧ depth m p = n := by
  induction cs generalizing m n with
  | nil =>
      rw [depth_nil] at h
      omega
  | cons c cs ih =>
      have further : ∀ p, p <+: cs → Closes (m.next c) p →
          c :: p <+: c :: cs ∧ Closes m (c :: p) := fun p hp ends =>
        ⟨(List.prefix_cons_inj c).mpr hp, closes_cons.mpr (.inr ends)⟩
      by_cases brace : m = .outside ∧ (c = '{' ∨ c = '}')
      · obtain ⟨rfl, rfl | rfl⟩ := brace
        · rw [depth_open] at h
          obtain ⟨p, hp, ends, eq⟩ := ih (n := n - 1) (m := .outside) (by omega) (by omega)
          refine ⟨_, (further p hp ends).1, (further p hp ends).2, ?_⟩
          rw [depth_open]
          omega
        · rw [depth_close] at h
          by_cases last : n = -1
          · refine ⟨['}'], ⟨cs, rfl⟩, ⟨[], rfl, rfl⟩, ?_⟩
            rw [depth_close, depth_nil, last]
            rfl
          · obtain ⟨p, hp, ends, eq⟩ := ih (n := n + 1) (m := .outside) (by omega) (by omega)
            refine ⟨_, (further p hp ends).1, (further p hp ends).2, ?_⟩
            rw [depth_close]
            omega
      · rw [depth_cons brace] at h
        obtain ⟨p, hp, ends, eq⟩ := ih below h
        exact ⟨_, (further p hp ends).1, (further p hp ends).2, (depth_cons brace p).trans eq⟩

/-- A text that closes what it opens, and nothing else. -/
structure Closed (cs : List Char) : Prop where
  run : Mode.run .outside cs = .outside
  balanced : depth .outside cs = 0
  nonneg : ∀ p, p <+: cs → 0 ≤ depth .outside p

theorem closed_nil : Closed [] :=
  ⟨rfl, rfl, fun _ hp => List.prefix_nil.mp hp ▸ Int.le_refl 0⟩

theorem Closed.append (hc : Closed cs) (hd : Closed ds) : Closed (cs ++ ds) := by
  refine ⟨?_, ?_, fun p hp => ?_⟩
  · rw [Mode.run_append, hc.run, hd.run]
  · rw [depth_append, hc.run, hc.balanced, hd.balanced]
    rfl
  · obtain inside | ⟨q, rfl⟩ := List.prefix_or_prefix_of_prefix hp (List.prefix_append cs ds)
    · exact hc.nonneg p inside
    · rw [depth_append, hc.run, hc.balanced, Int.zero_add]
      exact hd.nonneg q ((List.prefix_append_right_inj cs).mp hp)

def Plain (c : Char) : Prop := c ≠ '"' ∧ c ≠ '{' ∧ c ≠ '}'

instance (c : Char) : Decidable (Plain c) := inferInstanceAs (Decidable (_ ∧ _))

theorem closed_singleton (h : Plain c) : Closed [c] := by
  obtain ⟨quote, opening, closing⟩ := h
  have still : depth .outside [c] = 0 := by
    rw [depth_cons (by simp [opening, closing]), depth_nil]
  refine ⟨by simp [Mode.run, Mode.next, quote], still, fun p hp => ?_⟩
  obtain rfl | ⟨_, rfl, hq⟩ := List.prefix_cons_iff.mp hp
  · exact Int.le_refl 0
  · obtain rfl := List.prefix_nil.mp hq
    exact Int.le_of_eq still.symm

theorem closed_of_plain (h : ∀ c ∈ cs, Plain c) : Closed cs := by
  induction cs with
  | nil => exact closed_nil
  | cons c cs ih =>
      exact (closed_singleton (h c List.mem_cons_self)).append
        (ih fun d hd => h d (List.mem_cons_of_mem _ hd))

theorem Closed.braces (h : Closed cs) : Closed ('{' :: (cs ++ ['}'])) := by
  have inner : ∀ q, q <+: cs ++ ['}'] → -1 ≤ depth .outside q := by
    intro q hq
    obtain rfl | inside := List.prefix_concat_iff.mp hq
    · rw [depth_append, h.run, h.balanced, depth_close, depth_nil]
      omega
    · exact Int.le_trans (by omega) (h.nonneg q inside)
  refine ⟨?_, ?_, fun p hp => ?_⟩
  · change Mode.run .outside (cs ++ ['}']) = .outside
    rw [Mode.run_append, h.run]
    rfl
  · rw [depth_open, depth_append, h.run, h.balanced, depth_close, depth_nil]
    rfl
  · obtain rfl | ⟨q, rfl, hq⟩ := List.prefix_cons_iff.mp hp
    · exact Int.le_refl 0
    · have := inner q hq
      rw [depth_open]
      omega

/-- A text inside a literal that does not end it. -/
structure Quoted (cs : List Char) : Prop where
  run : Mode.run .inside cs = .inside
  flat : ∀ p, p <+: cs → depth .inside p = 0

theorem quoted_nil : Quoted [] :=
  ⟨rfl, fun _ hp => List.prefix_nil.mp hp ▸ rfl⟩

theorem Quoted.cons (quote : c ≠ '"') (backslash : c ≠ '\\') (h : Quoted cs) :
    Quoted (c :: cs) := by
  have next : Mode.next .inside c = .inside := by simp [Mode.next, quote, backslash]
  refine ⟨?_, fun p hp => ?_⟩
  · change (Mode.next .inside c).run cs = .inside
    rw [next, h.run]
  · obtain rfl | ⟨q, rfl, hq⟩ := List.prefix_cons_iff.mp hp
    · rfl
    · rw [depth_cons (by simp), next]
      exact h.flat q hq

theorem Quoted.escape (c : Char) (h : Quoted cs) : Quoted ('\\' :: c :: cs) := by
  refine ⟨h.run, fun p hp => ?_⟩
  obtain rfl | ⟨q, rfl, hq⟩ := List.prefix_cons_iff.mp hp
  · rfl
  · rw [depth_cons (by simp)]
    obtain rfl | ⟨r, rfl, hr⟩ := List.prefix_cons_iff.mp hq
    · rfl
    · rw [depth_cons (by simp [Mode.next])]
      exact h.flat r hr

theorem Quoted.closed (h : Quoted cs) : Closed ('"' :: (cs ++ ['"'])) := by
  have opened : ∀ q, depth .outside ('"' :: q) = depth .inside q := fun q =>
    depth_cons (by simp) q
  have ends : depth .inside ['"'] = 0 := depth_cons (by simp) []
  have whole : depth .inside (cs ++ ['"']) = 0 := by
    rw [depth_append, h.run, h.flat cs List.prefix_rfl, ends]
    rfl
  refine ⟨?_, (opened _).trans whole, fun p hp => ?_⟩
  · change Mode.run .inside (cs ++ ['"']) = .outside
    rw [Mode.run_append, h.run]
    rfl
  · obtain rfl | ⟨q, rfl, hq⟩ := List.prefix_cons_iff.mp hp
    · exact Int.le_refl 0
    · rw [opened]
      obtain rfl | inside := List.prefix_concat_iff.mp hq
      · exact Int.le_of_eq whole.symm
      · exact Int.le_of_eq (h.flat q inside).symm

end Depth

section Texts
variable {cs : List Char}

theorem ne_of_test {p : Char → Bool} {c d : Char} (h : p c = true) (hd : p d = false) : c ≠ d :=
  ne_of_apply_ne p (by rw [h, hd]; decide)

theorem ne_of_isHex {c : Char} (h : isHex c = true) : c ≠ '"' ∧ c ≠ '\\' :=
  ⟨ne_of_test h rfl, ne_of_test h rfl⟩

theorem StringBody.quoted (h : StringBody cs) : Quoted cs := by
  induction h with
  | nil => exact quoted_nil
  | plain quote backslash _ _ ih => exact ih.cons quote backslash
  | escape _ _ ih => exact ih.escape _
  | @unicode a b c d cs hex _ ih =>
      have ne := fun x hx => ne_of_isHex (hex x hx)
      have hd := ih.cons (ne d (by simp)).1 (ne d (by simp)).2
      have hc := hd.cons (ne c (by simp)).1 (ne c (by simp)).2
      have hb := hc.cons (ne b (by simp)).1 (ne b (by simp)).2
      have ha := hb.cons (ne a (by simp)).1 (ne a (by simp)).2
      exact ha.escape 'u'

theorem IsString.closed (h : IsString cs) : Closed cs := by
  obtain ⟨body, hb, rfl⟩ := h
  exact hb.quoted.closed

theorem plain_of_isDigit {c : Char} (h : c.isDigit = true) : Plain c :=
  ⟨ne_of_test h rfl, ne_of_test h rfl, ne_of_test h rfl⟩

theorem Digits.closed (h : Digits cs) : Closed cs :=
  closed_of_plain fun c hc => plain_of_isDigit (h.2 c hc)

theorem IsNumber.closed (h : IsNumber cs) : Closed cs := by
  obtain ⟨sign, int, frac, exp, hsign, hint, hfrac, hexp, rfl⟩ := h
  have signed : Closed sign := by
    obtain rfl | rfl := hsign
    · exact closed_nil
    · exact closed_of_plain (by simp [Plain])
  have integer : Closed int := by
    obtain rfl | ⟨d, ds, rfl, _, digits⟩ := hint
    · exact closed_of_plain (by simp [Plain])
    · exact digits.closed
  have fraction : Closed frac := by
    obtain rfl | ⟨ds, digits, rfl⟩ := hfrac
    · exact closed_nil
    · exact (closed_singleton (by decide)).append digits.closed
  have exponent : Closed exp := by
    obtain rfl | ⟨e, sign, ds, he, hs, digits, rfl⟩ := hexp
    · exact closed_nil
    · have letter : Plain e := by obtain rfl | rfl := he <;> decide
      have signed : Closed sign := by
        obtain rfl | rfl | rfl := hs
        · exact closed_nil
        · exact closed_of_plain (by simp [Plain])
        · exact closed_of_plain (by simp [Plain])
      exact (closed_singleton letter).append (signed.append digits.closed)
  exact signed.append (integer.append (fraction.append exponent))

theorem Blank.closed (h : Blank cs) : Closed cs :=
  closed_of_plain fun c hc =>
    ⟨ne_of_test (h c hc) rfl, ne_of_test (h c hc) rfl, ne_of_test (h c hc) rfl⟩

/-- Every text of the grammar closes the braces it opens. -/
theorem Text.closed {k : Kind} (h : Text k cs) : Closed cs := by
  have bracket : Closed ['['] ∧ Closed [']'] ∧ Closed [','] ∧ Closed [':'] :=
    ⟨closed_singleton (by decide), closed_singleton (by decide), closed_singleton (by decide),
      closed_singleton (by decide)⟩
  obtain ⟨opening, closing, comma, colon⟩ := bracket
  induction h with
  | literal h =>
      refine closed_of_plain ?_
      simp only [List.mem_cons, List.not_mem_nil, or_false] at h
      obtain rfl | rfl | rfl := h
      · simp [Plain]
      · simp [Plain]
      · simp [Plain]
  | number h => exact h.closed
  | string h => exact h.closed
  | emptyArray h => exact opening.append (h.closed.append closing)
  | array _ ih => exact opening.append (ih.append closing)
  | emptyObject h => exact h.closed.braces
  | object _ ih => exact ih.braces
  | element front _ back ih => exact front.closed.append (ih.append back.closed)
  | lastElement _ ih | lastMember _ ih => exact ih
  | elements _ _ ih ih' | members _ _ ih ih' => exact ih.append (comma.append ih')
  | member front key back _ ih =>
      exact front.closed.append (key.closed.append (back.closed.append (colon.append ih)))

theorem IsObject.closes (h : IsObject cs) : Closes .outside cs := by
  obtain ⟨inner, rfl, content⟩ := h
  refine ⟨'{' :: inner, rfl, ?_⟩
  obtain blank | members := content
  · exact blank.closed.run
  · exact members.closed.run

/-- An object ends where its first brace is closed. -/
theorem IsObject.firstBalanced (h : IsObject cs) : depth .outside cs = 0 ∧
    ∀ p, p <+: cs → p ≠ [] → p ≠ cs → 1 ≤ depth .outside p := by
  refine ⟨h.value.closed.balanced, fun p hp nonempty proper => ?_⟩
  obtain ⟨inner, rfl, content⟩ := h
  have closed : Closed inner := by
    obtain blank | members := content
    · exact blank.closed
    · exact members.closed
  obtain rfl | ⟨q, rfl, hq⟩ := List.prefix_cons_iff.mp hp
  · exact absurd rfl nonempty
  · obtain rfl | inside := List.prefix_concat_iff.mp hq
    · exact absurd rfl proper
    · have := closed.nonneg q inside
      rw [depth_open]
      omega

end Texts
end Json
