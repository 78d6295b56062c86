import EvoclawPluginWechat.Library.JsonReader
import EvoclawPluginWechat.Library.Segments
import EvoclawPluginWechat.Properties.InboundParsing
import Mathlib.Data.List.Infix
import Mathlib.Data.List.TakeWhile

/-!
Envelopes of flat fields, the inbound messages: an `<xml>` element whose children have no
children of their own and a text that is plain or a CDATA section. What the event reader of
`parse_inbound` records for a field.
-/
namespace EvoclawPluginWechat
open Xml

section Document

structure Gap where
  chars : List Char
  blank : ∀ c ∈ chars, isXmlSpace c = true

/-- More than the characters of a name: all that are neither white space nor markup. -/
def isTagNameChar (c : Char) : Bool :=
  !(isXmlSpace c || ['<', '>', '/', '&', '=', '"', '\x27', '!', '?'].contains c)

def isTagName (name : List Char) : Bool := !name.isEmpty && name.all isTagNameChar

/-- Every quote is closed, and a closing bracket stands between quotes only. The first
argument is the quote that is open. -/
def quotesClosed : Option Char → List Char → Bool
  | none, [] => true
  | some _, [] => false
  | none, c :: cs =>
      if c = '"' ∨ c = '\x27' then quotesClosed (some c) cs
      else c != '>' && quotesClosed none cs
  | some q, c :: cs => quotesClosed (if c = q then none else some q) cs

/-- What stands in a tag after the name. -/
structure Attributes where
  chars : List Char
  apart : ∀ c ∈ chars.head?, isXmlSpace c = true
  bare : '<' ∉ chars
  closed : quotesClosed none chars = true
  started : chars.getLast? ≠ some '/'

/-- What may stand between the children of an element and around it. -/
inductive Misc
  | space (gap : Gap)
  | comment (cs : List Char) (ends : ¬ ['-', '-'] <:+: cs ++ ['-'])
  | instruction (cs : List Char) (ends : ¬ ['?', '>'] <:+: cs)
      (target : ∃ c ∈ cs.head?, isTagNameChar c = true)

def hexNumeral (ds : List Char) : Option Nat :=
  if ds = [] then none
  else ds.foldl (fun acc c => acc.bind fun n => (Json.hexValue c).map (n * 16 + ·)) (some 0)

def charOfNumeral (n : Nat) : Option Char :=
  if n.isValidChar ∧ n ≠ 0 then some (Char.ofNat n) else none

/-- What a reference stands for, from what is between `&` and `;`. -/
def referenced : List Char → Option Char
  | ['l', 't'] => some '<'
  | ['g', 't'] => some '>'
  | ['a', 'm', 'p'] => some '&'
  | ['q', 'u', 'o', 't'] => some '"'
  | ['a', 'p', 'o', 's'] => some ('\x27')
  | '#' :: 'x' :: ds => (hexNumeral ds).bind charOfNumeral
  | '#' :: ds => (digitsValue ds).bind charOfNumeral
  | _ => none

inductive TextItem
  | literal (c : Char) (plain : c ≠ '<' ∧ c ≠ '&')
  | reference (body : List Char) (value : Char) (known : referenced body = some value)

namespace TextItem

def raw : TextItem → List Char
  | literal c _ => [c]
  | reference body _ _ => '&' :: (body ++ [';'])

def value : TextItem → Char
  | literal c _ | reference _ c _ => c

def isBlank : TextItem → Bool
  | literal c _ => isXmlSpace c
  | reference .. => false

/-- `trim_text`, which comes before the references are resolved. -/
def trimmed (items : List TextItem) : List TextItem :=
  ((items.dropWhile isBlank).reverse.dropWhile isBlank).reverse

end TextItem

/-- A CDATA section and the white space behind it. -/
structure Section where
  chars : List Char
  ends : ¬ cdataEnd <:+: chars
  after : Gap

def Section.segment (s : Section) : Pattern.Segment Char :=
  ⟨'<' :: cdataStart, s.chars, cdataEnd ++ s.after.chars⟩

/-- A text that holds an end marker is written in several sections. -/
inductive FieldText
  | plain (items : List TextItem)
  | cdata (before : Gap) (first : Section) (more : List Section)

namespace FieldText

def value : FieldText → List Char
  | .plain items => items.map TextItem.value
  | .cdata _ first more => (first :: more).flatMap Section.chars

def segments : FieldText → List (Pattern.Segment Char)
  | .plain items => [⟨[], items.flatMap TextItem.raw, []⟩]
  | .cdata before first more => ⟨before.chars, [], []⟩ :: (first :: more).map Section.segment

/-- Written without references, or in one section. -/
def Literal : FieldText → Prop
  | .plain items => items.flatMap TextItem.raw = items.map TextItem.value
  | .cdata _ _ more => more = []

/-- As it is written, without the markers of the sections. -/
def texts (text : FieldText) : List (List Char) := text.segments.map (·.text)

end FieldText

def tagSegment (inner : List Char) : Pattern.Segment Char := ⟨[], '<' :: (inner ++ ['>']), []⟩

def Misc.segment : Misc → Pattern.Segment Char
  | .space gap => ⟨gap.chars, [], []⟩
  | .comment cs _ => ⟨['<', '!', '-', '-'], cs, ['-', '-', '>']⟩
  | .instruction cs _ _ => ⟨['<', '?'], cs, ['?', '>']⟩

/-- A child, with what stands before it. Without a text it is an empty-element tag. -/
structure Field where
  before : List Misc
  name : List Char
  attributes : Attributes
  text : Option FieldText
  /-- The white space in the closing tag. -/
  closing : Gap
  named : isTagName name = true

namespace Field

def opened (f : Field) : Pattern.Segment Char := tagSegment (f.name ++ f.attributes.chars)

def closed (f : Field) : Pattern.Segment Char := tagSegment ('/' :: (f.name ++ f.closing.chars))

def element (f : Field) : List (Pattern.Segment Char) :=
  match f.text with
  | none => [tagSegment (f.name ++ f.attributes.chars ++ ['/'])]
  | some text => f.opened :: (text.segments ++ [f.closed])

def segments (f : Field) : List (Pattern.Segment Char) := f.before.map Misc.segment ++ f.element

def texts (f : Field) : List (List Char) :=
  f.before.map (·.segment.text) ++ (f.text.map FieldText.texts).getD []

def value (f : Field) : List Char := (f.text.map FieldText.value).getD []

end Field

structure FlatEnvelope where
  prolog : List Misc
  attributes : Attributes
  fields : List Field
  foot : List Misc
  closing : Gap
  epilog : List Misc

namespace FlatEnvelope

def opening (env : FlatEnvelope) : List (Pattern.Segment Char) :=
  env.prolog.map Misc.segment ++ [tagSegment (['x', 'm', 'l'] ++ env.attributes.chars)]

def ending (env : FlatEnvelope) : List (Pattern.Segment Char) :=
  env.foot.map Misc.segment ++
    tagSegment ('/' :: (['x', 'm', 'l'] ++ env.closing.chars)) :: env.epilog.map Misc.segment

def segments (env : FlatEnvelope) : List (Pattern.Segment Char) :=
  env.opening ++ (env.fields.flatMap Field.segments ++ env.ending)

def texts (env : FlatEnvelope) : List (List Char) :=
  env.prolog.map (·.segment.text) ++ (env.fields.flatMap Field.texts ++
    (env.foot.map (·.segment.text) ++ env.epilog.map (·.segment.text)))

/-- The same up to the tag of a child that comes after these, and after a child. -/
def textsBefore (env : FlatEnvelope) (pre : List Field) (e : Field) : List (List Char) :=
  env.prolog.map (·.segment.text) ++ (pre.flatMap Field.texts ++ e.before.map (·.segment.text))

def textsAfter (env : FlatEnvelope) (post : List Field) : List (List Char) :=
  post.flatMap Field.texts ++ (env.foot.map (·.segment.text) ++ env.epilog.map (·.segment.text))

def body (env : FlatEnvelope) : String := String.ofList (Pattern.flatten env.segments)

end FlatEnvelope
end Document

section Characters

theorem Gap.bare (gap : Gap) : '<' ∉ gap.chars := fun mem => nomatch gap.blank '<' mem

theorem notMem_of_isTagName {name : List Char} {c : Char} (named : isTagName name = true)
    (other : isTagNameChar c = false) : c ∉ name := by
  intro mem
  simp only [isTagName, Bool.and_eq_true, List.all_eq_true] at named
  rw [named.2 c mem] at other
  cases other

theorem read_of_mem (step : Nat → Char → Option Nat) {ds : List Char} {acc : Option Nat} {n : Nat}
    (h : ds.foldl (fun acc c => acc.bind fun n => step n c) acc = some n) {c : Char}
    (hc : c ∈ ds) : ∃ m, step m c ≠ none := by
  have failed : ∀ ds : List Char,
      ds.foldl (fun acc c => acc.bind fun n => step n c) none = none := by
    intro ds
    induction ds with
    | nil => rfl
    | cons d ds ih => exact ih
  induction ds generalizing acc with
  | nil => cases hc
  | cons d ds ih =>
      rw [List.foldl_cons] at h
      obtain rfl | later := List.mem_cons.mp hc
      · cases acc with
        | none =>
            rw [Option.bind_none, failed] at h
            cases h
        | some m =>
            refine ⟨m, fun none_read => ?_⟩
            rw [Option.bind_some, none_read, failed] at h
            cases h
      · exact ih h later

theorem referenced_bare {body : List Char} {value : Char} (h : referenced body = some value) :
    '<' ∉ body := by
  intro mem
  unfold referenced at h
  split at h
  iterate 5 exact absurd mem (by decide)
  · rename_i ds
    obtain ⟨n, read, _⟩ := Option.bind_eq_some_iff.mp h
    rw [hexNumeral, Option.ite_none_left_eq_some] at read
    obtain ⟨m, digit⟩ := read_of_mem (fun n c => (Json.hexValue c).map (n * 16 + ·)) read.2
      (by simpa using mem)
    exact digit rfl
  · rename_i ds _
    obtain ⟨n, read, _⟩ := Option.bind_eq_some_iff.mp h
    rw [digitsValue, Option.ite_none_left_eq_some] at read
    obtain ⟨m, digit⟩ := read_of_mem
      (fun n c => if c.isDigit then some (n * 10 + (c.toNat - '0'.toNat)) else none) read.2
      (by simpa using mem)
    exact digit rfl
  · cases h

theorem TextItem.bare (item : TextItem) : '<' ∉ item.raw := by
  cases item with
  | literal c plain => simpa [raw] using plain.1.symm
  | reference body value known => simp [raw, referenced_bare known]

end Characters

section Events

def Misc.event : Misc → Option XmlEvent
  | .space _ => none
  | .comment .. | .instruction .. => some .other

/-- White space makes no event, neither a blank text nor what is around the sections. -/
def FieldText.events : FieldText → List XmlEvent
  | .plain items =>
      if (TextItem.trimmed items).isEmpty then []
      else [.text (some (String.ofList ((TextItem.trimmed items).map TextItem.value)))]
  | .cdata _ first more => (first :: more).map fun s => .cdata (String.ofList s.chars)

/-- An empty-element tag is neither a start nor an end. -/
def Field.elementEvents (f : Field) : List XmlEvent :=
  match f.text with
  | none => [.other]
  | some text => .start (String.ofList f.name) :: (text.events ++ [.end])

def Field.events (f : Field) : List XmlEvent := f.before.filterMap Misc.event ++ f.elementEvents

/-- What a reader of XML reports of the envelope: the name of a tag without its attributes,
texts trimmed and with their references resolved. -/
def FlatEnvelope.events (env : FlatEnvelope) : List XmlEvent :=
  env.prolog.filterMap Misc.event ++ .start "xml" :: (env.fields.flatMap Field.events ++
    (env.foot.filterMap Misc.event ++ .end :: env.epilog.filterMap Misc.event))

/-- What the loop of `parse_inbound` records for the text: the last section replaces the ones
before it. -/
def FieldText.recorded : FieldText → Option (List Char)
  | .plain items =>
      if (TextItem.trimmed items).isEmpty then none
      else some ((TextItem.trimmed items).map TextItem.value)
  | .cdata _ first more => some ((first :: more).getLast (List.cons_ne_nil _ _)).chars

/-- What is recorded is what trimming leaves of the text. -/
def FieldText.Tidy : FieldText → Prop
  | .plain items => TextItem.trimmed items ≠ [] ∧
      (TextItem.trimmed items).map TextItem.value = trim (items.map TextItem.value)
  | .cdata _ first more => ((first :: more).getLast (List.cons_ne_nil _ _)).chars =
      trim ((first :: more).flatMap Section.chars)

theorem FieldText.recorded_eq_iff (text : FieldText) :
    text.recorded = some (trim text.value) ↔ text.Tidy := by
  cases text with
  | cdata before first more => exact Option.some_inj
  | plain items =>
      rw [recorded, Tidy, value]
      cases blank : TextItem.trimmed items with
      | nil => simp
      | cons item rest => simp

def Field.recorded (f : Field) : Option (List Char) := f.text.bind FieldText.recorded

end Events

section Reader
variable (bag : Table String String) (es : List XmlEvent)

theorem collect_misc (current : Option String) (ms : List Misc) :
    collect bag current (ms.filterMap Misc.event ++ es) = collect bag current es := by
  induction ms with
  | nil => rfl
  | cons m ms ih =>
      cases m with
      | space gap => exact ih
      | comment cs ends => exact ih
      | instruction cs ends target => exact ih

theorem collect_text (name : String) (text : FieldText) :
    ∃ bag', collect bag (some name) (text.events ++ es) = collect bag' (some name) es ∧
      (∀ key, key ≠ name → bag'.lookup key = bag.lookup key) ∧
      (bag.lookup name = none → bag'.lookup name = text.recorded.map String.ofList) := by
  have written : ∀ value : String,
      (∀ key, key ≠ name → (bag.insert name value).lookup key = bag.lookup key) ∧
      (bag.insert name value).lookup name = some value := fun value =>
    ⟨fun _ other => AList.lookup_insert_ne other, AList.lookup_insert bag⟩
  cases text with
  | cdata before first more =>
      obtain ⟨others, own⟩ := written (String.ofList
        ((first :: more).getLast (List.cons_ne_nil _ _)).chars)
      refine ⟨_, ?_, others, fun _ => own⟩
      have nonempty : (first :: more).map Section.chars ≠ [] := by simp
      have sections : collect bag (some name) (_ ++ es) = _ := collect_cdatas nonempty
      rw [List.map_map, List.getLast_map] at sections
      exact sections
  | plain items =>
      rw [FieldText.events, FieldText.recorded]
      split_ifs with blank
      · exact ⟨bag, rfl, fun _ _ => rfl, fun fresh => fresh⟩
      · obtain ⟨others, own⟩ :=
          written (String.ofList ((TextItem.trimmed items).map TextItem.value))
        rw [List.singleton_append, collect]
        cases fresh : bag.lookup name with
        | none => exact ⟨_, rfl, others, fun _ => own⟩
        | some value =>
            exact ⟨bag, rfl, fun _ _ => rfl, fun absent => absurd absent (Option.some_ne_none _)⟩

theorem collect_outside (text : FieldText) :
    collect bag none (text.events ++ es) = collect bag none es := by
  cases text with
  | cdata before first more =>
      have skipped : ∀ sections : List Section,
          collect bag none (sections.map (fun s => .cdata (String.ofList s.chars)) ++ es) =
            collect bag none es := by
        intro sections
        induction sections with
        | nil => rfl
        | cons s sections ih => exact ih
      exact skipped (first :: more)
  | plain items =>
      rw [FieldText.events]
      split_ifs
      · rfl
      · rfl

theorem collect_field (f : Field) {key : String} (field : key ≠ "xml") :
    ∃ bag', collect bag none (f.events ++ es) = collect bag' none es ∧
      (key ≠ String.ofList f.name → bag'.lookup key = bag.lookup key) ∧
      (key = String.ofList f.name → bag.lookup key = none →
        bag'.lookup key = f.recorded.map String.ofList) := by
  rw [Field.events, List.append_assoc, collect_misc, Field.elementEvents, Field.recorded]
  cases f.text with
  | none => exact ⟨bag, rfl, fun _ => rfl, fun _ fresh => fresh⟩
  | some text =>
      dsimp only [Option.bind_some]
      rw [List.cons_append, List.append_assoc, collect]
      split_ifs with root
      · refine ⟨bag, by rw [collect_outside]; rfl, fun _ => rfl, fun own => ?_⟩
        exact absurd (own.trans root) field
      · obtain ⟨bag', collected, others, own⟩ :=
          collect_text bag ([.end] ++ es) (String.ofList f.name) text
        exact ⟨bag', collected, others key, fun same => same ▸ own⟩

theorem collect_fields (fs : List Field) {key : String} (field : key ≠ "xml")
    (absent : ∀ f ∈ fs, key ≠ String.ofList f.name) :
    ∃ bag', collect bag none (fs.flatMap Field.events ++ es) = collect bag' none es ∧
      bag'.lookup key = bag.lookup key := by
  induction fs generalizing bag with
  | nil => exact ⟨bag, rfl, rfl⟩
  | cons f fs ih =>
      rw [List.flatMap_cons, List.append_assoc]
      obtain ⟨bag₁, collected, others, _⟩ :=
        collect_field bag (fs.flatMap Field.events ++ es) f field
      obtain ⟨bag₂, rest, same⟩ := ih bag₁ fun g hg => absent g (List.mem_cons_of_mem _ hg)
      exact ⟨bag₂, collected.trans rest, same.trans (others (absent f List.mem_cons_self))⟩

/-- What the loop of `parse_inbound` has under the name in the end. -/
def recordedUnder (xml : QuickXml) (name document : String) : Option String :=
  match collect ∅ none (xml.events document) with
  | .ok bag => bag.lookup name
  | .error _ => none

theorem recordedUnder_body (xml : QuickXml) {env : FlatEnvelope}
    (reads : xml.events env.body = env.events) {pre post : List Field} {f : Field}
    (fields : env.fields = pre ++ f :: post) (field : String.ofList f.name ≠ "xml")
    (alone : ∀ g ∈ pre ++ post, g.name ≠ f.name) :
    recordedUnder xml (String.ofList f.name) env.body = f.recorded.map String.ofList := by
  have absent : ∀ g ∈ pre ++ post, String.ofList f.name ≠ String.ofList g.name :=
    fun g hg same => alone g hg (String.ofList_injective same).symm
  let rest := env.foot.filterMap Misc.event ++ .end :: env.epilog.filterMap Misc.event
  obtain ⟨bag₁, before, none₁⟩ := collect_fields ∅
    (f.events ++ (post.flatMap Field.events ++ rest)) pre field
    fun g hg => absent g (List.mem_append_left _ hg)
  obtain ⟨bag₂, here, _, own⟩ := collect_field bag₁ (post.flatMap Field.events ++ rest) f field
  obtain ⟨bag₃, after, kept⟩ := collect_fields bag₂ rest post field
    fun g hg => absent g (List.mem_append_right _ hg)
  have outside : collect bag₃ none rest = .ok bag₃ := by
    have epilog := collect_misc bag₃ [] none env.epilog
    rw [List.append_nil] at epilog
    exact (collect_misc bag₃ _ none env.foot).trans epilog
  have collected : collect ∅ none (xml.events env.body) = .ok bag₃ := by
    rw [reads, FlatEnvelope.events, fields, collect_misc, collect, if_pos rfl,
      List.flatMap_append, List.flatMap_cons, List.append_assoc, List.append_assoc, before, here,
      after, outside]
  rw [recordedUnder, collected]
  exact kept.trans (own rfl (none₁.trans (AList.lookup_empty _)))

end Reader
end EvoclawPluginWechat
