import EvoclawPluginWechat.Properties.EncryptSearch

/-!
Tags in an envelope that are no tags of it: an element with another name holds no Encrypt tag,
so what the search finds there is a text. When it finds one although no child has the name.
-/
namespace EvoclawPluginWechat
open Xml Pattern
namespace Webhook

def encryptName : List Char := ['E', 'n', 'c', 'r', 'y', 'p', 't']

section Tags
variable {t name inner ys : List Char}

def IsTag (t : List Char) : Prop := t = openTag ∨ t = openTagSpace ∨ t = closeTag

theorem IsTag.tagLike (h : IsTag t) : TagLike t := by
  obtain rfl | rfl | rfl := h
  · exact tagLike_openTag
  · exact tagLike_openTagSpace
  · exact tagLike_closeTag

theorem name_eq_of_start {other : List Char} {c : Char} (named : isTagName name = true)
    (apart : ∀ d ∈ ys.head?, isTagNameChar d = false)
    (spelled : ∀ d ∈ other, isTagNameChar d = true) (stop : isTagNameChar c = false)
    (start : other ++ [c] <+: name ++ ys) : name = other := by
  obtain ⟨rest, whole⟩ := start
  simp only [isTagName, Bool.and_eq_true, List.all_eq_true] at named
  have after : ys.takeWhile isTagNameChar = [] := by
    cases ys with
    | nil => rfl
    | cons d ys => rw [List.takeWhile_cons_of_neg (by simp [apart d rfl])]
  have spans := congrArg (List.takeWhile isTagNameChar) whole
  rw [List.takeWhile_append_of_pos named.2, after, List.append_assoc,
    List.takeWhile_append_of_pos spelled, List.singleton_append,
    List.takeWhile_cons_of_neg (by simp [stop]), List.append_nil, List.append_nil] at spans
  exact spans.symm

section Foreign
variable (h : IsTag t) (named : isTagName name = true) (other : name ≠ encryptName)
  (apart : ∀ d ∈ ys.head?, isTagNameChar d = false)
include h named other apart

theorem not_prefix_opening : ¬ t <+: '<' :: (name ++ ys) := by
  intro start
  have spelled : ∀ d ∈ encryptName, isTagNameChar d = true := List.all_eq_true.mp (by decide)
  obtain rfl | rfl | rfl := h
  · have inside : encryptName ++ ['>'] <+: name ++ ys := (List.cons_prefix_cons.mp start).2
    exact other (name_eq_of_start named apart spelled (by decide) inside)
  · have inside : encryptName ++ [' '] <+: name ++ ys := (List.cons_prefix_cons.mp start).2
    exact other (name_eq_of_start named apart spelled (by decide) inside)
  · have inside := (List.cons_prefix_cons.mp start).2
    cases name with
    | nil => cases named
    | cons c name =>
        obtain rfl := (List.cons_prefix_cons.mp inside).1
        exact notMem_of_isTagName named (c := '/') (by decide) List.mem_cons_self

theorem not_prefix_closing : ¬ t <+: '<' :: '/' :: (name ++ ys) := by
  intro start
  have spelled : ∀ d ∈ encryptName, isTagNameChar d = true := List.all_eq_true.mp (by decide)
  obtain rfl | rfl | rfl := h
  · cases (List.cons_prefix_cons.mp (List.cons_prefix_cons.mp start).2).1
  · cases (List.cons_prefix_cons.mp (List.cons_prefix_cons.mp start).2).1
  · have inside : encryptName ++ ['>'] <+: name ++ ys :=
      (List.cons_prefix_cons.mp (List.cons_prefix_cons.mp start).2).2
    exact other (name_eq_of_start named apart spelled (by decide) inside)

end Foreign

theorem infix_tagSegment_iff (h : TagLike t) (bare : '<' ∉ inner) :
    t <:+: (tagSegment inner).text ↔ t <+: '<' :: (inner ++ ['>']) := by
  have rest : '<' ∉ inner ++ ['>'] := by simp [bare]
  change t <:+: '<' :: (inner ++ ['>']) ↔ _
  rw [List.infix_cons_iff, or_iff_left (find_eq_none.mp (h.find_bare rest))]

theorem head_apart {cs : List Char} (apart : ∀ c ∈ cs.head?, isXmlSpace c = true)
    (hy : ∀ d ∈ ys.head?, isTagNameChar d = false) :
    ∀ d ∈ (cs ++ ys).head?, isTagNameChar d = false := by
  intro d hd
  cases cs with
  | nil => exact hy d hd
  | cons c cs =>
      obtain rfl := Option.some.inj hd
      rw [isTagNameChar, apart c rfl]
      rfl

end Tags

section Foreign
variable {t : List Char} (h : IsTag t)
include h

theorem unmarked_opening {name : List Char} (named : isTagName name = true)
    (other : name ≠ encryptName) (attributes : Attributes) (tail : List Char)
    (tail_bare : '<' ∉ tail) (hy : ∀ d ∈ (tail ++ ['>']).head?, isTagNameChar d = false) :
    ¬ t <:+: (tagSegment (name ++ attributes.chars ++ tail)).text := by
  have bare : '<' ∉ name ++ attributes.chars ++ tail := by
    simp [notMem_of_isTagName named (c := '<') (by decide), attributes.bare, tail_bare]
  rw [infix_tagSegment_iff h.tagLike bare, List.append_assoc, List.append_assoc]
  exact not_prefix_opening h named other (head_apart attributes.apart hy)

theorem unmarked_closing {name : List Char} (named : isTagName name = true)
    (other : name ≠ encryptName) (gap : Gap) :
    ¬ t <:+: (tagSegment ('/' :: (name ++ gap.chars))).text := by
  have bare : '<' ∉ '/' :: (name ++ gap.chars) := by
    simp [notMem_of_isTagName named (c := '<') (by decide), gap.bare]
  rw [infix_tagSegment_iff h.tagLike bare, List.cons_append, List.append_assoc]
  exact not_prefix_closing h named other (head_apart
    (fun c hc => gap.blank c (List.mem_of_mem_head? hc)) (by simp [isTagNameChar]))

end Foreign

section Texts
variable {env : FlatEnvelope} {fs : List Field} {P : List Char → Bool}

/-- Of the pieces of an envelope it selects only some that hold a tag. -/
def Marks (P : List Char → Bool) : Prop := ∀ x, P x = true → ∃ t, IsTag t ∧ t <:+: x

variable (marks : Marks P)
include marks

theorem Marks.tag {x : List Char} (h : ∀ t, IsTag t → ¬ t <:+: x) : P x = false :=
  Bool.eq_false_iff.mpr fun marked =>
    let ⟨t, tag, inside⟩ := marks x marked
    h t tag inside

theorem filter_element {f : Field} (other : f.name ≠ encryptName) :
    (f.element.map Segment.text).filter P = ((f.text.map FieldText.texts).getD []).filter P := by
  have noTail : ∀ d ∈ (['>'] : List Char).head?, isTagNameChar d = false := by
    simp [isTagNameChar]
  rw [Field.element]
  cases f.text with
  | none =>
      have skipped := marks.tag fun t tag =>
        unmarked_opening tag f.named other f.attributes ['/'] (by decide)
          (by simp [isTagNameChar])
      rw [List.map_singleton, List.filter_cons_of_neg (Bool.eq_false_iff.mp skipped)]
      rfl
  | some text =>
      have opened := marks.tag fun t tag =>
        unmarked_opening tag f.named other f.attributes [] (by decide) noTail
      have closed := marks.tag fun t tag => unmarked_closing tag f.named other f.closing
      rw [List.append_nil] at opened
      rw [List.map_cons, Field.opened, List.filter_cons_of_neg (Bool.eq_false_iff.mp opened),
        List.map_append, List.filter_append, List.map_singleton, Field.closed,
        List.filter_cons_of_neg (Bool.eq_false_iff.mp closed), List.filter_nil, List.append_nil]
      rfl

theorem filter_fields (others : ∀ f ∈ fs, f.name ≠ encryptName) :
    ((fs.flatMap Field.segments).map Segment.text).filter P =
      (fs.flatMap Field.texts).filter P := by
  induction fs with
  | nil => rfl
  | cons f fs ih =>
      rw [List.forall_mem_cons] at others
      rw [List.flatMap_cons, List.flatMap_cons, List.map_append, List.filter_append, ih others.2,
        Field.segments, List.map_append, List.filter_append, filter_element marks others.1,
        Field.texts, List.filter_append, List.filter_append, List.map_map]
      rfl

theorem filter_opening : (env.opening.map Segment.text).filter P =
    (env.prolog.map (·.segment.text)).filter P := by
  have named : isTagName ['x', 'm', 'l'] = true := by decide
  have root := marks.tag fun t tag =>
    unmarked_opening tag named (by decide) env.attributes [] (by decide) (by simp [isTagNameChar])
  rw [List.append_nil] at root
  rw [FlatEnvelope.opening, List.map_append, List.filter_append, List.map_map, List.map_singleton,
    List.filter_cons_of_neg (Bool.eq_false_iff.mp root), List.filter_nil, List.append_nil]
  rfl

theorem filter_ending : (env.ending.map Segment.text).filter P =
    (env.foot.map (·.segment.text) ++ env.epilog.map (·.segment.text)).filter P := by
  have named : isTagName ['x', 'm', 'l'] = true := by decide
  have root := marks.tag fun t tag => unmarked_closing tag named (by decide) env.closing
  rw [FlatEnvelope.ending, List.map_append, List.filter_append, List.map_map, List.map_cons,
    List.filter_cons_of_neg (Bool.eq_false_iff.mp root), List.map_map, List.filter_append]
  rfl

theorem filter_segments (others : ∀ f ∈ env.fields, f.name ≠ encryptName) :
    (env.segments.map Segment.text).filter P = env.texts.filter P := by
  rw [FlatEnvelope.segments, List.map_append, List.map_append, List.filter_append,
    List.filter_append, filter_opening marks, filter_fields marks others, filter_ending marks,
    FlatEnvelope.texts, List.filter_append, List.filter_append, List.filter_append,
    List.filter_append]

end Texts

section Misled
variable {t x : List Char} {xs ys : List (List Char)} {ss : List (Segment Char)}

/-- Neither tag is in the text. -/
def Unmarked (t x : List Char) : Prop := ¬ t <:+: x ∧ ¬ closeTag <:+: x

instance (t x : List Char) : Decidable (Unmarked t x) := inferInstanceAs (Decidable (_ ∧ _))

/-- The first text with a tag holds the opening one, and the closing one follows in it, or in a
later text if it holds none. -/
def MisledBy (t : List Char) (xs : List (List Char)) : Prop :=
  ∃ before x after, xs = before ++ x :: after ∧ (∀ y ∈ before, Unmarked t y) ∧
    ((∃ w, Between t closeTag '>' x w) ∨
      t <:+: x ∧ ¬ closeTag <:+: x ∧ ∃ y ∈ after, closeTag <:+: y)

theorem misledBy_cons_of_unmarked (h : Unmarked t x) : MisledBy t (x :: xs) ↔ MisledBy t xs := by
  constructor
  · rintro ⟨before, y, after, split, unmarked, found⟩
    cases before with
    | nil =>
        obtain ⟨rfl, rfl⟩ := List.cons.inj split
        obtain ⟨_, i, _, _, opened, _⟩ | ⟨inside, _⟩ := found
        · exact absurd (infix_of_find opened) h.1
        · exact absurd inside h.1
    | cons z before =>
        obtain ⟨rfl, rfl⟩ := List.cons.inj split
        exact ⟨before, y, after, rfl, fun y hy => unmarked y (List.mem_cons_of_mem _ hy), found⟩
  · rintro ⟨before, y, after, rfl, unmarked, found⟩
    exact ⟨x :: before, y, after, rfl, List.forall_mem_cons.mpr ⟨h, unmarked⟩, found⟩

theorem misledBy_cons_of_marked (h : ¬ Unmarked t x) : MisledBy t (x :: xs) ↔
    (∃ w, Between t closeTag '>' x w) ∨
      t <:+: x ∧ ¬ closeTag <:+: x ∧ ∃ y ∈ xs, closeTag <:+: y := by
  constructor
  · rintro ⟨before, y, after, split, unmarked, found⟩
    cases before with
    | nil =>
        obtain ⟨rfl, rfl⟩ := List.cons.inj split
        exact found
    | cons z before =>
        obtain rfl := (List.cons.inj split).1
        exact absurd (unmarked _ List.mem_cons_self) h
  · exact fun found => ⟨[], x, xs, rfl, fun y hy => absurd hy List.not_mem_nil, found⟩

theorem misledBy_filter (t : List Char) (xs : List (List Char)) :
    MisledBy t (xs.filter fun x => decide (¬ Unmarked t x)) ↔ MisledBy t xs := by
  induction xs with
  | nil => rfl
  | cons x xs ih =>
      by_cases h : Unmarked t x
      · rw [List.filter_cons_of_neg (by simp [h]), ih, misledBy_cons_of_unmarked h]
      · rw [List.filter_cons_of_pos (by simp [h]), misledBy_cons_of_marked h,
          misledBy_cons_of_marked h]
        refine or_congr_right (and_congr_right fun _ => and_congr_right fun _ => ?_)
        constructor
        · rintro ⟨y, hy, inside⟩
          exact ⟨y, (List.mem_filter.mp hy).1, inside⟩
        · rintro ⟨y, hy, inside⟩
          refine ⟨y, List.mem_filter.mpr ⟨hy, ?_⟩, inside⟩
          exact decide_eq_true fun unmarked => unmarked.2 inside

theorem cut_iff_misledBy (searchable : ∀ s ∈ ss, Searchable t s) :
    (∃ w, Cut t closeTag '>' ss w) ↔ MisledBy t (ss.map Segment.text) := by
  constructor
  · rintro ⟨w, before, s, after, rfl, unmarked, found⟩
    refine ⟨before.map Segment.text, s.text, after.map Segment.text, by simp, ?_, ?_⟩
    · simpa [Unmarked] using unmarked
    · obtain here | ⟨i, _, mid, g, rest, j, opened, absent, _, rfl, _, closed, _⟩ := found
      · exact .inl ⟨w, here⟩
      · exact .inr ⟨infix_of_find opened, absent, g.text, by simp, infix_of_find closed⟩
  · rintro ⟨before, x, after, split, unmarked, found⟩
    obtain ⟨before', rest, rfl, rfl, same⟩ := List.map_eq_append_iff.mp split
    obtain ⟨s, after', rfl, rfl, rfl⟩ := List.map_eq_cons_iff.mp same
    have unmarked' : ∀ g ∈ before', ¬ t <:+: g.text ∧ ¬ closeTag <:+: g.text :=
      fun g hg => unmarked g.text (List.mem_map_of_mem hg)
    obtain ⟨w, here⟩ | ⟨opens, absent, y, hy, closes⟩ := found
    · exact ⟨w, before', s, after', rfl, unmarked', .inl here⟩
    · obtain ⟨i, opened⟩ := find_of_infix opens
      obtain ⟨k, stopped, _⟩ :=
        find_singleton_of_mem ((searchable s (by simp)).ended i opened)
      obtain ⟨h, hh, rfl⟩ := List.mem_map.mp hy
      obtain none_closes | ⟨mid, g, rest, rfl, free, marked⟩ :=
        Selection.all_or_first (fun g : Segment Char => ¬ closeTag <:+: g.text) after'
      · exact absurd closes (none_closes h hh)
      · obtain ⟨j, closed⟩ := find_of_infix (not_not.mp marked)
        exact ⟨_, before', s, _, rfl, unmarked', .inr ⟨i, k, mid, g, rest, j, opened, absent,
          stopped, rfl, free, closed, rfl⟩⟩

/-- The search reports a text although there is no Encrypt field. -/
def Misled (xs : List (List Char)) : Prop :=
  MisledBy openTag xs ∨ (∀ x ∈ xs, ¬ openTag <:+: x) ∧ MisledBy openTagSpace xs

theorem marks_within (tag : IsTag t) : Marks fun x => decide (t <:+: x) :=
  fun _ marked => ⟨t, tag, of_decide_eq_true marked⟩

theorem marks_unmarked (tag : IsTag t) : Marks fun x => decide (¬ Unmarked t x) := by
  intro x marked
  by_cases opens : t <:+: x
  · exact ⟨t, tag, opens⟩
  · refine ⟨closeTag, .inr (.inr rfl), not_not.mp fun absent => ?_⟩
    exact of_decide_eq_true marked ⟨opens, absent⟩

theorem forall_absent_iff (same : (xs.filter fun x => decide (t <:+: x)) =
      ys.filter fun x => decide (t <:+: x)) :
    (∀ x ∈ xs, ¬ t <:+: x) ↔ ∀ y ∈ ys, ¬ t <:+: y := by
  have nothing : ∀ l : List (List Char),
      (l.filter fun x => decide (t <:+: x)) = [] ↔ ∀ x ∈ l, ¬ t <:+: x := by
    intro l
    simp [List.filter_eq_nil_iff]
  rw [← nothing, ← nothing, same]

theorem extract_error_iff_misled {env : FlatEnvelope}
    (others : ∀ f ∈ env.fields, f.name ≠ encryptName) :
    (∃ e, extractEncryptElement env.body = .error e) ↔ ¬ Misled env.texts := by
  have misled : ∀ t, IsTag t →
      ((∃ w, Cut t closeTag '>' env.segments w) ↔ MisledBy t env.texts) := by
    intro t tag
    rw [cut_iff_misledBy (tag.tagLike.searchable env), ← misledBy_filter,
      filter_segments (marks_unmarked tag) others, misledBy_filter]
  have absent : (∀ s ∈ env.segments, ¬ openTag <:+: s.text) ↔
      ∀ x ∈ env.texts, ¬ openTag <:+: x := by
    rw [← forall_absent_iff (filter_segments (marks_within (.inl rfl)) others)]
    simp
  rw [extract_error_iff, not_iff_not, Misled, ← misled _ (.inl rfl), ← misled _ (.inr (.inl rfl)),
    ← absent]
  simp only [extract_envelope_iff, FoundText]
  constructor
  · rintro ⟨x, w, found | ⟨nowhere, found⟩, _⟩
    · exact .inl ⟨w, found⟩
    · exact .inr ⟨nowhere, w, found⟩
  · rintro (⟨w, found⟩ | ⟨nowhere, w, found⟩)
    · exact ⟨_, w, .inl found, rfl⟩
    · exact ⟨_, w, .inr ⟨nowhere, found⟩, rfl⟩

end Misled

end Webhook
end EvoclawPluginWechat
