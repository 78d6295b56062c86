import EvoclawPluginWechat.Core.Webhook
import EvoclawPluginWechat.Properties.FlatEnvelopes

/-!
The string search of `extract_encrypt_element` in an envelope of flat fields. It knows no
elements: it takes the first text that looks like a tag, also one inside a CDATA section or a
comment. What it finds is told from the pieces of the envelope.
-/
namespace EvoclawPluginWechat
open Xml Pattern

/-- The pattern begins as a tag does, not as other markup, and ends where a tag does at the
latest. -/
structure TagLike (pat : List Char) : Prop where
  shape : ∃ q more, pat = '<' :: q :: more ∧ q ≠ '!' ∧ q ≠ '?'
  bare : ∀ c ∈ [']', '-', '?'], c ∉ pat
  last : '>' ∉ pat.dropLast

theorem tagLike_openTag : TagLike Webhook.openTag :=
  ⟨⟨_, _, rfl, by decide⟩, by simp [Webhook.openTag], by decide⟩

theorem tagLike_openTagSpace : TagLike Webhook.openTagSpace :=
  ⟨⟨_, _, rfl, by decide⟩, by simp [Webhook.openTagSpace], by decide⟩

theorem tagLike_closeTag : TagLike Webhook.closeTag :=
  ⟨⟨_, _, rfl, by decide⟩, by simp [Webhook.closeTag], by decide⟩

/-- What the search needs of a piece of a document. -/
structure Searchable (pat : List Char) (s : Segment Char) : Prop where
  fits : s.Fits pat
  ended : ∀ i, find pat s.text = some i → '>' ∈ (s.text ++ s.tail).drop i

section Pieces
variable {pat xs : List Char} (h : TagLike pat)
include h

theorem TagLike.skips (bare : '<' ∉ xs) : Skips pat xs := by
  obtain ⟨q, more, rfl, _⟩ := h.shape
  exact fun ys => find_append bare ys

theorem TagLike.skips_markup {c : Char} (mark : c = '!' ∨ c = '?') (bare : '<' ∉ xs) :
    Skips pat ('<' :: c :: xs) := by
  intro ys
  have other : ¬ pat <+: '<' :: c :: (xs ++ ys) := by
    intro start
    obtain ⟨q, more, rfl, bang, question⟩ := h.shape
    obtain rfl := (List.cons_prefix_cons.mp (List.cons_prefix_cons.mp start).2).1
    exact mark.elim bang question
  have rest : '<' ∉ c :: xs := by
    rw [List.mem_cons, not_or]
    exact ⟨by obtain rfl | rfl := mark <;> decide, bare⟩
  have skipped := h.skips rest ys
  rw [List.cons_append] at skipped
  rw [List.cons_append, List.cons_append, find_cons other, skipped, Option.map_map]
  rfl

theorem TagLike.nonempty : pat ≠ [] := by
  obtain ⟨q, more, rfl, _⟩ := h.shape
  exact List.cons_ne_nil _ _

theorem TagLike.find_bare (bare : '<' ∉ xs) : find pat xs = none := by
  obtain ⟨q, more, rfl, _⟩ := h.shape
  exact find_eq_none.mpr fun inside => bare (inside.subset List.mem_cons_self)

theorem TagLike.searchable_bare {s : Segment Char} (bare : '<' ∉ s.chars) : Searchable pat s := by
  simp only [Segment.chars, List.mem_append, not_or] at bare
  obtain ⟨head, text, tail⟩ := bare
  refine ⟨⟨h.skips head, fun ys => ?_⟩, fun i found => ?_⟩
  · rw [h.find_bare text, Option.none_or, ← List.append_assoc,
      h.skips (by simp [text, tail]) ys, List.length_append]
  · rw [h.find_bare text] at found
    cases found

theorem TagLike.searchable_tag {inner : List Char} (bare : '<' ∉ inner) :
    Searchable pat (tagSegment inner) := by
  refine ⟨⟨skips_nil pat, fun ys => ?_⟩, fun i found => ?_⟩
  · change find pat ('<' :: (inner ++ ['>']) ++ ys) = (find pat ('<' :: (inner ++ ['>']))).or _
    by_cases here : pat <+: '<' :: (inner ++ ['>'])
    · rw [find_of_start here, find_of_start (here.trans (List.prefix_append _ ys)), Option.some_or]
    · have not_here : ¬ pat <+: '<' :: (inner ++ ['>']) ++ ys := by
        intro start
        obtain inside | whole :=
          List.prefix_or_prefix_of_prefix start (List.prefix_append _ ys)
        · exact here inside
        · obtain ⟨more, rfl⟩ := whole
          cases more with
          | nil => exact here (by simp)
          | cons c more =>
              refine h.last ?_
              rw [List.dropLast_append_of_ne_nil (List.cons_ne_nil c more)]
              simp
      have rest : '<' ∉ inner ++ ['>'] := by simp [bare]
      rw [List.cons_append] at not_here ⊢
      rw [find_cons not_here, find_cons here, h.find_bare rest, h.skips rest, Option.map_map,
        Option.map_none, Option.none_or]
      rfl
  · have within := find_le found
    obtain ⟨q, more, rfl, _⟩ := h.shape
    change _ ≤ ('<' :: (inner ++ ['>'])).length at within
    simp only [List.length_cons, List.length_append, List.length_nil] at within
    change '>' ∈ ('<' :: (inner ++ ['>']) ++ []).drop i
    rw [List.append_nil, ← List.cons_append,
      List.drop_append_of_le_length (by simp only [List.length_cons]; omega)]
    simp

theorem TagLike.searchable_enclosed {s : Segment Char} {stop : Char} {rest : List Char}
    (head : Skips pat s.head) (tail : s.tail = stop :: rest) (bare : '<' ∉ s.tail)
    (ended : '>' ∈ s.tail) (other : stop ∉ pat) : Searchable pat s := by
  refine ⟨⟨head, fun ys => ?_⟩, fun i found => ?_⟩
  · have past := h.skips bare ys
    rw [tail] at past ⊢
    rw [List.cons_append] at past ⊢
    rw [find_append_stop other, past, Option.map_map]
    congr 2
    funext i
    simp only [Function.comp_apply]
    omega
  · rw [List.drop_append_of_le_length (Nat.le_of_add_right_le (find_le found))]
    exact List.mem_append_right _ ended

end Pieces

section Envelope
variable {pat : List Char} (h : TagLike pat)
include h

theorem TagLike.searchable_misc (m : Misc) : Searchable pat m.segment := by
  cases m with
  | space gap => exact h.searchable_bare (by simpa [Misc.segment, Segment.chars] using gap.bare)
  | comment cs ends =>
      exact h.searchable_enclosed (h.skips_markup (.inl rfl) (by decide)) rfl
        (by simp [Misc.segment]) (by simp [Misc.segment]) (h.bare _ (by simp))
  | instruction cs ends target =>
      exact h.searchable_enclosed (h.skips_markup (.inr rfl) (by decide)) rfl
        (by simp [Misc.segment]) (by simp [Misc.segment]) (h.bare _ (by simp))

theorem TagLike.searchable_section (piece : Section) : Searchable pat piece.segment := by
  have tail : piece.segment.tail = ']' :: ([']', '>'] ++ piece.after.chars) := rfl
  refine h.searchable_enclosed (h.skips_markup (.inl rfl) (by decide)) tail ?_ ?_
    (h.bare _ (by simp))
  · simp [tail, piece.after.bare]
  · simp [tail]

theorem TagLike.searchable_text {text : FieldText} {s : Segment Char} (hs : s ∈ text.segments) :
    Searchable pat s := by
  cases text with
  | plain items =>
      obtain rfl := List.mem_singleton.mp hs
      have bare : '<' ∉ items.flatMap TextItem.raw := by
        rw [List.mem_flatMap]
        rintro ⟨item, _, mem⟩
        exact item.bare mem
      exact h.searchable_bare (by simpa [Segment.chars] using bare)
  | cdata before first more =>
      obtain rfl | inside := List.mem_cons.mp hs
      · exact h.searchable_bare (by simpa [Segment.chars] using before.bare)
      · obtain ⟨piece, _, rfl⟩ := List.mem_map.mp inside
        exact h.searchable_section piece

theorem TagLike.searchable_element {f : Field} {s : Segment Char} (hs : s ∈ f.element) :
    Searchable pat s := by
  have name : '<' ∉ f.name := notMem_of_isTagName f.named (by decide)
  rw [Field.element] at hs
  cases text : f.text with
  | none =>
      rw [text, List.mem_singleton] at hs
      subst hs
      exact h.searchable_tag (by simp [name, f.attributes.bare])
  | some text' =>
      simp only [text, List.mem_cons, List.mem_append, List.not_mem_nil, or_false] at hs
      obtain rfl | inside | rfl := hs
      · exact h.searchable_tag (by simp [name, f.attributes.bare])
      · exact h.searchable_text inside
      · exact h.searchable_tag (by simp [name, f.closing.bare])

theorem TagLike.searchable_miscs {ms : List Misc} {s : Segment Char}
    (hs : s ∈ ms.map Misc.segment) : Searchable pat s := by
  obtain ⟨m, _, rfl⟩ := List.mem_map.mp hs
  exact h.searchable_misc m

theorem TagLike.searchable (env : FlatEnvelope) : ∀ s ∈ env.segments, Searchable pat s := by
  intro s hs
  simp only [FlatEnvelope.segments, FlatEnvelope.opening, FlatEnvelope.ending, List.mem_append,
    List.mem_cons, List.not_mem_nil, or_false, List.mem_flatMap, Field.segments] at hs
  obtain (misc | rfl) | ⟨f, _, misc | element⟩ | misc | rfl | misc := hs
  · exact h.searchable_miscs misc
  · exact h.searchable_tag (by simp [env.attributes.bare])
  · exact h.searchable_miscs misc
  · exact h.searchable_element element
  · exact h.searchable_miscs misc
  · exact h.searchable_tag (by simp [env.closing.bare])
  · exact h.searchable_miscs misc

end Envelope

namespace Webhook

/-- What the extractor makes of what stands between the tags. -/
def readText (inner : List Char) : List Char := trim (stripCdata (trim inner))

section Extract
variable {body x : String} {t : List Char}

theorem extract_ok_iff
    (searched : (find openTag body.toList).or (find openTagSpace body.toList) =
      find t body.toList) :
    extractEncryptElement body = .ok x ↔
      ∃ w, Between t closeTag '>' body.toList w ∧ x = String.ofList (readText w) := by
  simp only [extractEncryptElement, searched]
  constructor
  · intro found
    split at found
    · next i j opened closed =>
        split at found
        · cases found
        · next k stopped =>
            split_ifs at found with inverted
            refine ⟨_, ⟨i, k, j, opened, stopped, closed, by omega, rfl⟩, ?_⟩
            rw [Nat.add_comm i k]
            exact (Except.ok.inj found).symm
    · cases found
  · rintro ⟨w, ⟨i, k, j, opened, stopped, closed, ordered, rfl⟩, rfl⟩
    rw [opened, closed]
    dsimp only
    rw [stopped]
    dsimp only
    rw [if_neg (by omega), readText, Nat.add_comm i k]

theorem extract_error_iff :
    (∃ e, extractEncryptElement body = .error e) ↔ ¬ ∃ x, extractEncryptElement body = .ok x := by
  cases extractEncryptElement body with
  | ok y => simp
  | error e => simp

end Extract

/-- What stands between the first opening tag in the pieces of a document and the first closing
one. A tag with attributes is looked for if none without is there. -/
def FoundText (ss : List (Segment Char)) (w : List Char) : Prop :=
  Cut openTag closeTag '>' ss w ∨
    (∀ s ∈ ss, ¬ openTag <:+: s.text) ∧ Cut openTagSpace closeTag '>' ss w

section Envelope
variable {env : FlatEnvelope} {t : List Char}

theorem toList_body (env : FlatEnvelope) : env.body.toList = flatten env.segments :=
  String.toList_ofList

theorem between_body_iff (h : TagLike t) {w : List Char} :
    Between t closeTag '>' env.body.toList w ↔ Cut t closeTag '>' env.segments w := by
  rw [toList_body]
  exact between_flatten_iff ⟨h.nonempty, tagLike_closeTag.nonempty⟩
    (fun s hs => ⟨(h.searchable env s hs).fits, (tagLike_closeTag.searchable env s hs).fits⟩)
    fun s hs => (h.searchable env s hs).ended

theorem find_body_none (h : TagLike t) :
    find t env.body.toList = none ↔ ∀ s ∈ env.segments, ¬ t <:+: s.text := by
  rw [toList_body]
  constructor
  · intro nothing s hs inside
    refine find_eq_none.mp nothing (inside.trans ?_)
    obtain ⟨before, after, split⟩ := List.append_of_mem hs
    refine ⟨flatten before ++ s.head, s.tail ++ flatten after, ?_⟩
    simp [split, flatten_append, flatten_cons, Segment.chars]
  · exact find_flatten_none h.nonempty fun s hs => (h.searchable env s hs).fits

/-- The string search, told from the pieces of the envelope. -/
theorem extract_envelope_iff {x : String} :
    extractEncryptElement env.body = .ok x ↔
      ∃ w, FoundText env.segments w ∧ x = String.ofList (readText w) := by
  cases opened : find openTag env.body.toList with
  | none =>
      have absent := (find_body_none tagLike_openTag).mp opened
      have nowhere : ∀ w, ¬ Cut openTag closeTag '>' env.segments w := by
        intro w hw
        obtain ⟨i, _, _, found, _⟩ := (between_body_iff tagLike_openTag).mpr hw
        rw [opened] at found
        cases found
      rw [extract_ok_iff (t := openTagSpace) (by rw [opened, Option.none_or])]
      simp only [between_body_iff tagLike_openTagSpace, FoundText, nowhere, false_or,
        and_iff_right absent]
  | some i =>
      have present : ¬ ∀ s ∈ env.segments, ¬ openTag <:+: s.text := by
        rw [← find_body_none tagLike_openTag, opened]
        exact Option.some_ne_none i
      rw [extract_ok_iff (t := openTag) (by rw [opened, Option.some_or])]
      simp only [between_body_iff tagLike_openTag, FoundText, present, false_and, or_false]

end Envelope
end Webhook
end EvoclawPluginWechat
