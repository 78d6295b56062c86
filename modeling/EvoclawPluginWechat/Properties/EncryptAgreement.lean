import EvoclawPluginWechat.Properties.EncryptText

/-!
Where the string search for the Encrypt field and the event reader agree.
-/
namespace EvoclawPluginWechat
open Xml Pattern
namespace Webhook

section Own
variable {env : FlatEnvelope} {pre post : List Field} {e : Field} {text : FieldText}
  {t w : List Char}

/-- The tags of the child are the first that the search takes for tags, and its text is written
as it is meant. -/
structure OwnTags (env : FlatEnvelope) (pre : List Field) (e : Field) (text : FieldText) :
    Prop where
  opening : (e.attributes.chars = [] ∧ ∀ x ∈ env.textsBefore pre e, ¬ openTag <:+: x) ∨
    (e.attributes.chars.head? = some ' ' ∧ '>' ∉ e.attributes.chars ∧
      (∀ x ∈ env.texts, ¬ openTag <:+: x) ∧
      ∀ x ∈ env.textsBefore pre e, ¬ openTagSpace <:+: x)
  closing : e.closing.chars = [] ∧ (∀ x ∈ env.textsBefore pre e, ¬ closeTag <:+: x) ∧
    ∀ x ∈ text.texts, ¬ closeTag <:+: x
  literal : text.Literal

/-- The search ends in another text than the child's. -/
def StrayClose (env : FlatEnvelope) (pre : List Field) (e : Field) (text : FieldText) : Prop :=
  (∃ x ∈ env.textsBefore pre e, closeTag <:+: x) ∨
    e.closing.chars ≠ [] ∧ ∀ x ∈ text.texts, ¬ closeTag <:+: x

/-- It does, and has cut out the very text of the child there. -/
def SameText (env : FlatEnvelope) (pre : List Field) (e : Field) (text : FieldText) : Prop :=
  StrayClose env pre e text ∧ ∃ w, FoundText env.segments w ∧ readText w = trim text.value

section Absent

theorem absent_before_iff (tag : IsTag t) (others : ∀ g ∈ pre, g.name ≠ encryptName) :
    (∀ s ∈ front env pre e, ¬ t <:+: s.text) ↔ ∀ x ∈ env.textsBefore pre e, ¬ t <:+: x := by
  have marks := marks_within tag
  have same : ((front env pre e).map Segment.text).filter (fun x => decide (t <:+: x)) =
      (env.textsBefore pre e).filter fun x => decide (t <:+: x) := by
    rw [front, List.map_append, List.map_append, List.filter_append, List.filter_append,
      filter_opening marks, filter_fields marks others, FlatEnvelope.textsBefore,
      List.filter_append, List.filter_append, List.map_map]
    rfl
  rw [← forall_absent_iff same]
  simp

theorem absent_after_iff (tag : IsTag t) (others : ∀ g ∈ post, g.name ≠ encryptName) :
    (∀ s ∈ back env post, ¬ t <:+: s.text) ↔ ∀ x ∈ env.textsAfter post, ¬ t <:+: x := by
  have marks := marks_within tag
  have same : ((back env post).map Segment.text).filter (fun x => decide (t <:+: x)) =
      (env.textsAfter post).filter fun x => decide (t <:+: x) := by
    rw [back, List.map_append, List.filter_append, filter_fields marks others,
      filter_ending marks, FlatEnvelope.textsAfter, ← List.filter_append]
  rw [← forall_absent_iff same]
  simp

theorem prefix_opened_iff (attributes : Attributes) (c : Char) :
    ('<' :: encryptName) ++ [c] <+: '<' :: (encryptName ++ attributes.chars ++ ['>']) ↔
      (attributes.chars ++ ['>']).head? = some c := by
  rw [List.append_assoc, ← List.cons_append, List.prefix_append_right_inj]
  cases attributes.chars ++ ['>'] with
  | nil => simp
  | cons d rest => simp [List.cons_prefix_cons, eq_comm]

theorem openTag_prefix_iff (attributes : Attributes) :
    openTag <+: '<' :: (encryptName ++ attributes.chars ++ ['>']) ↔ attributes.chars = [] := by
  refine (prefix_opened_iff attributes '>').trans ?_
  cases chars : attributes.chars with
  | nil => simp
  | cons c cs =>
      have space := attributes.apart c (by simp [chars])
      simp only [List.cons_append, List.head?_cons, Option.some.injEq, reduceCtorEq, iff_false]
      rintro rfl
      cases space

theorem openTagSpace_prefix_iff (attributes : Attributes) :
    openTagSpace <+: '<' :: (encryptName ++ attributes.chars ++ ['>']) ↔
      attributes.chars.head? = some ' ' := by
  refine (prefix_opened_iff attributes ' ').trans ?_
  cases attributes.chars with
  | nil => simp
  | cons c cs => simp

end Absent

theorem extract_ne_of_closed {x : List Char} (hx : x ∈ text.texts) (inside : closeTag <:+: x) :
    extractEncryptElement env.body ≠ .ok (String.ofList (trim text.value)) := by
  have bracket : '<' ∈ x := inside.subset List.mem_cons_self
  have ends : closeTag = ('<' :: '/' :: encryptName) ++ ['>'] := rfl
  have held : closeTag <:+: trim text.value := by
    refine infix_trim ends (by decide) (by decide) (inside.trans ?_)
    cases text with
    | plain items =>
        obtain rfl := List.mem_singleton.mp hx
        exact absurd bracket (raw_bare items)
    | cdata before first more =>
        obtain rfl | later := List.mem_cons.mp hx
        · cases bracket
        · rw [List.map_map] at later
          obtain ⟨piece, mem, rfl⟩ := List.mem_map.mp later
          obtain ⟨pre, post, split⟩ := List.append_of_mem mem
          refine ⟨pre.flatMap Section.chars, post.flatMap Section.chars, ?_⟩
          rw [FieldText.value, split]
          simp [Section.segment]
  intro found
  rw [extract_envelope_iff] at found
  obtain ⟨w, cut, same⟩ := found
  obtain ⟨t, i, k, j, _, _, closed, _, rfl⟩ :
      ∃ t, Between t closeTag '>' env.body.toList w := by
    obtain cut | ⟨_, cut⟩ := cut
    · exact ⟨_, (between_body_iff tagLike_openTag).mpr cut⟩
    · exact ⟨_, (between_body_iff tagLike_openTagSpace).mpr cut⟩
  rw [String.ofList_inj] at same
  have reached := (same ▸ held).trans (readText_within _)
  exact not_infix_take_of_find tagLike_closeTag.nonempty closed
    (reached.trans (List.drop_suffix _ _).isInfix)

section Envelope
variable (fields : env.fields = pre ++ e :: post) (own : e.name = encryptName)
  (content : e.text = some text)
include fields content

theorem texts_own :
    env.texts = env.textsBefore pre e ++ (text.texts ++ env.textsAfter post) := by
  rw [FlatEnvelope.texts, fields, List.flatMap_append, List.flatMap_cons, Field.texts, content,
    FlatEnvelope.textsBefore, FlatEnvelope.textsAfter]
  simp

include own

theorem body_own : env.body.toList = flatten (front env pre e) ++
    (('<' :: (encryptName ++ e.attributes.chars ++ ['>'])) ++
      (flatten text.segments ++ (e.closed.chars ++ flatten (back env post)))) := by
  rw [toList_body, segments_own fields content, flatten_append, flatten_cons, flatten_append,
    flatten_cons, Field.opened, own]
  simp [tagSegment, Segment.chars]

theorem closes_own (plain : e.closing.chars = [])
    (clear : ∀ s ∈ front env pre e, ¬ closeTag <:+: s.text)
    (free : ∀ x ∈ text.texts, ¬ closeTag <:+: x) :
    find closeTag (flatten (front env pre e) ++
      (('<' :: (encryptName ++ e.attributes.chars ++ ['>'])) ++
        (flatten text.segments ++ (e.closed.chars ++ flatten (back env post))))) =
      some ((flatten (front env pre e)).length +
        (('<' :: (encryptName ++ e.attributes.chars ++ ['>'])).length +
          (flatten text.segments).length)) := by
  have searchable := tagLike_closeTag.searchable env
  rw [segments_own fields content] at searchable
  have before : Skips closeTag (flatten (front env pre e)) :=
    skips_flatten (fun s hs => (searchable s (List.mem_append_left _ hs)).fits) clear
  have bare : '<' ∉ encryptName ++ e.attributes.chars := by
    simpa [encryptName] using e.attributes.bare
  have not_here : ¬ closeTag <:+: (tagSegment (encryptName ++ e.attributes.chars)).text := by
    rw [infix_tagSegment_iff tagLike_closeTag bare]
    intro start
    cases (List.cons_prefix_cons.mp (List.cons_prefix_cons.mp start).2).1
  have opened := (tagLike_closeTag.searchable_tag bare).fits.skips not_here
  have chars : (tagSegment (encryptName ++ e.attributes.chars)).chars =
      '<' :: (encryptName ++ e.attributes.chars ++ ['>']) := by
    simp [tagSegment, Segment.chars]
  rw [chars] at opened
  have inner : Skips closeTag (flatten text.segments) :=
    skips_flatten (fun s hs => (tagLike_closeTag.searchable_text hs).fits)
      fun s hs => free s.text (List.mem_map_of_mem hs)
  have closed : e.closed.chars = closeTag := by
    rw [Field.closed, own, plain]
    rfl
  rw [before, opened, inner, closed, find_of_start (List.prefix_append _ _)]
  simp only [Option.map_some, Option.some.injEq]
  omega

variable (alone : ∀ g ∈ pre ++ post, g.name ≠ encryptName)
include alone

theorem openTag_absent_iff (attributes : e.attributes.chars ≠ []) :
    (∀ s ∈ env.segments, ¬ openTag <:+: s.text) ↔ ∀ x ∈ env.texts, ¬ openTag <:+: x := by
  have earlier : ∀ g ∈ pre, g.name ≠ encryptName := fun g hg => alone g (List.mem_append_left _ hg)
  have later : ∀ g ∈ post, g.name ≠ encryptName := fun g hg => alone g (List.mem_append_right _ hg)
  have opened : ¬ openTag <:+: e.opened.text := by
    have bare : '<' ∉ encryptName ++ e.attributes.chars := by
      simpa [encryptName] using e.attributes.bare
    rw [Field.opened, own, infix_tagSegment_iff tagLike_openTag bare, openTag_prefix_iff]
    exact attributes
  have closed : ¬ openTag <:+: e.closed.text := by
    have bare : '<' ∉ '/' :: (encryptName ++ e.closing.chars) := by
      simpa [encryptName] using e.closing.bare
    rw [Field.closed, own, infix_tagSegment_iff tagLike_openTag bare]
    intro start
    cases (List.cons_prefix_cons.mp (List.cons_prefix_cons.mp start).2).1
  rw [segments_own fields content, texts_own fields content]
  simp only [List.forall_mem_append, List.forall_mem_cons, opened, closed, not_false_eq_true,
    true_and, FieldText.texts, List.forall_mem_map, absent_before_iff (.inl rfl) earlier,
    absent_after_iff (.inl rfl) later]

/-- The search ends at the child's closing tag, and the text is the child's exactly if it
starts at the opening one. -/
theorem extract_own_iff (tidy : text.Tidy) (plain : e.closing.chars = [])
    (clear : ∀ x ∈ env.textsBefore pre e, ¬ closeTag <:+: x)
    (free : ∀ x ∈ text.texts, ¬ closeTag <:+: x) :
    extractEncryptElement env.body = .ok (String.ofList (trim text.value)) ↔
      OwnTags env pre e text := by
  have earlier : ∀ g ∈ pre, g.name ≠ encryptName := fun g hg => alone g (List.mem_append_left _ hg)
  have body := body_own fields own content
  have closes := closes_own fields own content plain
    ((absent_before_iff (.inr (.inr rfl)) earlier).mpr clear) free
  have searchable : ∀ t, TagLike t → ∀ s ∈ front env pre e, Searchable t s := fun t tagLike s hs =>
    tagLike.searchable env s (segments_own fields content ▸ List.mem_append_left _ hs)
  rw [extract_envelope_iff]
  constructor
  · rintro ⟨w, cut | ⟨nowhere, cut⟩, same⟩
    · have between := (between_body_iff tagLike_openTag).mpr cut
      rw [body] at between
      obtain ⟨absent, here, _, literal⟩ := own_of_read (.inl rfl) tagLike_openTag
        (searchable _ tagLike_openTag) e.attributes.bare closes between tidy
        (String.ofList_injective same).symm
      exact ⟨.inl ⟨(openTag_prefix_iff e.attributes).mp here,
        (absent_before_iff (.inl rfl) earlier).mp absent⟩, ⟨plain, clear, free⟩, literal⟩
    · have between := (between_body_iff tagLike_openTagSpace).mpr cut
      rw [body] at between
      obtain ⟨absent, here, bracket, literal⟩ := own_of_read (.inr rfl) tagLike_openTagSpace
        (searchable _ tagLike_openTagSpace) e.attributes.bare closes between tidy
        (String.ofList_injective same).symm
      have first := (openTagSpace_prefix_iff e.attributes).mp here
      have attributes : e.attributes.chars ≠ [] := fun empty => by simp [empty] at first
      exact ⟨.inr ⟨first, bracket,
        (openTag_absent_iff fields own content alone attributes).mp nowhere,
        (absent_before_iff (.inr (.inl rfl)) earlier).mp absent⟩, ⟨plain, clear, free⟩, literal⟩
  · rintro ⟨⟨empty, absent⟩ | ⟨first, bracket, nowhere, absent⟩, _, literal⟩
    · have between := between_own
        (fun s hs => (searchable _ tagLike_openTag s hs).fits)
        ((absent_before_iff (.inl rfl) earlier).mpr absent)
        ((openTag_prefix_iff e.attributes).mpr empty) (by simp [empty]) closes
      rw [← body] at between
      exact ⟨_, .inl ((between_body_iff tagLike_openTag).mp between),
        by rw [readText_literal literal]⟩
    · have attributes : e.attributes.chars ≠ [] := fun empty => by simp [empty] at first
      have between := between_own
        (fun s hs => (searchable _ tagLike_openTagSpace s hs).fits)
        ((absent_before_iff (.inr (.inl rfl)) earlier).mpr absent)
        ((openTagSpace_prefix_iff e.attributes).mpr first) bracket closes
      rw [← body] at between
      exact ⟨_, .inr ⟨(openTag_absent_iff fields own content alone attributes).mpr nowhere,
        (between_body_iff tagLike_openTagSpace).mp between⟩, by rw [readText_literal literal]⟩

/-- The text of the only Encrypt child is returned exactly if its own tags are found, or the same
text is found elsewhere. -/
theorem extract_encrypt_iff (tidy : text.Tidy) :
    extractEncryptElement env.body = .ok (String.ofList (trim text.value)) ↔
      OwnTags env pre e text ∨ SameText env pre e text := by
  by_cases stray : StrayClose env pre e text
  · rw [SameText, and_iff_right stray, or_iff_right, extract_envelope_iff]
    · simp only [String.ofList_inj, eq_comm]
    · rintro ⟨_, ⟨plain, clear, _⟩, _⟩
      obtain ⟨x, hx, inside⟩ | ⟨spaced, _⟩ := stray
      · exact clear x hx inside
      · exact spaced plain
  · rw [SameText, or_iff_left fun same => stray same.1]
    rw [StrayClose, not_or, not_and] at stray
    have clear : ∀ x ∈ env.textsBefore pre e, ¬ closeTag <:+: x :=
      fun x hx inside => stray.1 ⟨x, hx, inside⟩
    by_cases free : ∀ x ∈ text.texts, ¬ closeTag <:+: x
    · have plain : e.closing.chars = [] := not_not.mp fun spaced => stray.2 spaced free
      exact extract_own_iff fields own content alone tidy plain clear free
    · obtain ⟨x, hx, inside⟩ : ∃ x ∈ text.texts, closeTag <:+: x := by
        simpa using free
      exact iff_of_false (extract_ne_of_closed hx inside) fun tags => tags.closing.2.2 x hx inside

end Envelope

end Own

section Examples

def noGap : Gap := ⟨[], by simp⟩

def noAttributes : Attributes := ⟨[], by simp, by simp, by decide, by simp⟩

def receiverField : Field :=
  ⟨[], "ToUserName".toList, noAttributes, some (.cdata noGap ⟨['g', 'h'], by decide, noGap⟩ []),
    noGap, by decide⟩

/-- Its tag has an attribute. -/
def sealedField : Field :=
  ⟨[.space ⟨['\n'], by simp [isXmlSpace]⟩], encryptName,
    ⟨" type=\"aes\"".toList, by simp [isXmlSpace], by decide, by decide, by decide⟩,
    some (.plain [.literal 'a' (by decide), .literal 'b' (by decide)]), noGap, by decide⟩

def sealedMessage : FlatEnvelope where
  prolog := []
  attributes := noAttributes
  fields := [receiverField, sealedField]
  foot := []
  closing := noGap
  epilog := []

/-- A reader that knows one envelope more than the plain one. -/
def knowing (env : FlatEnvelope) (unread : lex env.body.toList = none) : QuickXml where
  events document := if document = env.body then env.events else QuickXml.plain.events document
  reads named content := by
    rw [if_neg, QuickXml.plain.reads named content]
    intro same
    rw [← same, String.toList_ofList, wrap, lex_content (.element named content .nil)] at unread
    cases unread

theorem sealedMessage_unread : lex sealedMessage.body.toList = none := by
  rw [toList_body]
  rfl

end Examples

/-- A message in the clear, whose user wrote the tags. -/
def taggedMessage : FlatEnvelope where
  prolog := []
  attributes := noAttributes
  fields := [⟨[], "Content".toList, noAttributes,
    some (.cdata noGap ⟨openTag ++ (['h', 'i'] ++ closeTag), by decide, noGap⟩ []), noGap,
    by decide⟩]
  foot := []
  closing := noGap
  epilog := []

end Webhook
end EvoclawPluginWechat
