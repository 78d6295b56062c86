import EvoclawPluginWechat.Properties.SealedEnvelope
import EvoclawPluginWechat.Properties.StrayTags

/-!
What the extractor makes of what stands between two tags, counted in characters that no trimming
takes away. A search that ends at the closing tag of the Encrypt child returns the child's text
only if it started at the opening one: anything else is too long or too short.
-/
namespace EvoclawPluginWechat
open Xml Pattern

section Solid

/-- The number of characters that no trimming takes away. -/
def solid (cs : List Char) : Nat := cs.countP fun c => !isWhitespace c

theorem solid_append (xs ys : List Char) : solid (xs ++ ys) = solid xs + solid ys :=
  List.countP_append

theorem solid_within {xs ys : List Char} (h : xs <:+: ys) : solid xs ≤ solid ys :=
  h.sublist.countP_le

theorem solid_dropWhile (cs : List Char) : solid (cs.dropWhile isWhitespace) = solid cs := by
  induction cs with
  | nil => rfl
  | cons c cs ih =>
      cases white : isWhitespace c with
      | false => rw [List.dropWhile_cons_of_neg (by simp [white])]
      | true =>
          rw [List.dropWhile_cons_of_pos white, ih, solid, solid,
            List.countP_cons_of_neg (by simp [white])]

theorem solid_trim (cs : List Char) : solid (trim cs) = solid cs := by
  have reversed : ∀ ds : List Char, solid ds.reverse = solid ds := fun ds => List.countP_reverse
  rw [trim, reversed, solid_dropWhile, reversed, solid_dropWhile]

theorem isWhitespace_of_xml {c : Char} (h : isXmlSpace c = true) : isWhitespace c = true := by
  simp only [isXmlSpace, Bool.or_eq_true, beq_iff_eq] at h
  obtain ((rfl | rfl) | rfl) | rfl := h <;> decide

theorem Gap.white (gap : Gap) : ∀ c ∈ gap.chars, isWhitespace c = true :=
  fun c hc => isWhitespace_of_xml (gap.blank c hc)

theorem solid_gap (gap : Gap) : solid gap.chars = 0 :=
  List.countP_eq_zero.mpr fun c hc => by simp [gap.white c hc]

theorem trim_gaps (before after : Gap) (cs : List Char) :
    trim (before.chars ++ (cs ++ after.chars)) = trim cs := by
  have behind : ∀ c ∈ after.chars.reverse, isWhitespace c = true :=
    fun c hc => after.white c (List.mem_reverse.mp hc)
  rw [trim, List.dropWhile_append_of_pos before.white, List.dropWhile_append]
  split_ifs with blank
  · have gone : after.chars.dropWhile isWhitespace = [] :=
      List.dropWhile_eq_nil_iff.mpr after.white
    rw [gone, trim, List.isEmpty_iff.mp blank]
  · rw [List.reverse_append, List.dropWhile_append_of_pos behind, trim]

end Solid

namespace Webhook

section Read

theorem stripCdata_cases (t : List Char) :
    stripCdata t = t ∨ t = inSection (stripCdata t) := by
  unfold stripCdata
  cases opened : t.dropPrefix? ('<' :: cdataStart) with
  | none => exact .inl rfl
  | some rest =>
      rw [Option.bind_some]
      cases closed : rest.dropSuffix? cdataEnd with
      | none => exact .inl rfl
      | some s =>
          obtain ⟨front, rfl, same⟩ := List.dropPrefix?_eq_some_iff.mp opened
          obtain ⟨back, rfl, same'⟩ := List.dropSuffix?_eq_some_iff.mp closed
          obtain rfl := eq_of_beq same
          obtain rfl := eq_of_beq same'
          exact .inr rfl

theorem solid_inSection (cs : List Char) : solid (inSection cs) = solid cs + 12 := by
  have nine : solid ('<' :: cdataStart) = 9 := by decide
  have three : solid cdataEnd = 3 := by decide
  rw [inSection, ← List.cons_append, solid_append, solid_append, nine, three]
  omega

theorem stripCdata_within (t : List Char) : stripCdata t <:+: t := by
  obtain same | whole := stripCdata_cases t
  · rw [same]
  · conv_rhs => rw [whole]
    exact ⟨'<' :: cdataStart, cdataEnd, by simp [inSection]⟩

theorem stripCdata_of_first {t : List Char} (h : t.head? ≠ some '<') : stripCdata t = t := by
  obtain same | whole := stripCdata_cases t
  · exact same
  · rw [whole] at h
    exact absurd rfl h

theorem readText_within (w : List Char) : readText w <:+: w :=
  (trim_within _).trans ((stripCdata_within _).trans (trim_within w))

theorem solid_readText (w : List Char) :
    solid (readText w) = solid w ∨
      solid (readText w) + 12 = solid w ∧ '<' :: cdataStart <+: w.dropWhile isWhitespace := by
  obtain same | whole := stripCdata_cases (trim w)
  · left
    rw [readText, same, solid_trim, solid_trim]
  · right
    constructor
    · rw [readText, solid_trim, ← solid_inSection, ← whole, solid_trim]
    · have start : '<' :: cdataStart <+: trim w :=
        ⟨stripCdata (trim w) ++ cdataEnd, by conv_rhs => rw [whole, inSection, ← List.cons_append]⟩
      refine start.trans ?_
      rw [trim]
      exact List.reverse_suffix.mp (by rw [List.reverse_reverse]; exact List.dropWhile_suffix _)

theorem solid_readText_of_first {w : List Char}
    (h : (w.dropWhile isWhitespace).head? ≠ some '<') : solid (readText w) = solid w := by
  obtain same | ⟨_, start⟩ := solid_readText w
  · exact same
  · obtain ⟨rest, whole⟩ := start
    rw [← whole] at h
    exact absurd rfl h

end Read

section Own
variable {env : FlatEnvelope} {pre post : List Field} {e : Field} {text : FieldText}
  {t w : List Char}

/-- What comes before the tag of the child, and behind its element. -/
def front (env : FlatEnvelope) (pre : List Field) (e : Field) : List (Segment Char) :=
  env.opening ++ (pre.flatMap Field.segments ++ e.before.map Misc.segment)

def back (env : FlatEnvelope) (post : List Field) : List (Segment Char) :=
  post.flatMap Field.segments ++ env.ending

theorem segments_own (fields : env.fields = pre ++ e :: post) (content : e.text = some text) :
    env.segments =
      front env pre e ++ e.opened :: (text.segments ++ e.closed :: back env post) := by
  rw [FlatEnvelope.segments, fields, List.flatMap_append, List.flatMap_cons, Field.segments,
    Field.element, content, front, back]
  simp

theorem readText_bare {cs : List Char} (bare : '<' ∉ cs) : readText cs = trim cs := by
  have first : (trim cs).head? ≠ some '<' := fun same =>
    bare ((trim_within _).subset (List.mem_of_mem_head? same))
  rw [readText, stripCdata_of_first first, trim_trim]

theorem raw_bare (items : List TextItem) : '<' ∉ items.flatMap TextItem.raw := by
  rw [List.mem_flatMap]
  rintro ⟨item, _, mem⟩
  exact item.bare mem

theorem flatten_plain (items : List TextItem) :
    flatten (FieldText.plain items).segments = items.flatMap TextItem.raw := by
  simp [FieldText.segments, flatten, Segment.chars]

theorem readText_literal (h : text.Literal) :
    readText (flatten text.segments) = trim text.value := by
  cases text with
  | plain items =>
      have same : items.flatMap TextItem.raw = items.map TextItem.value := h
      rw [flatten_plain, readText_bare (raw_bare items), same]
      rfl
  | cdata before first more =>
      obtain rfl : more = [] := h
      have chars : flatten (FieldText.cdata before first []).segments =
          before.chars ++ (inSection first.chars ++ first.after.chars) := by
        simp [FieldText.segments, flatten, Section.segment, Segment.chars, inSection]
      have value : (FieldText.cdata before first []).value = first.chars := by
        simp [FieldText.value]
      rw [chars, readText, trim_gaps, trim_inSection, stripCdata_inSection, value]

theorem solid_sections (sections : List Section) :
    solid (flatten (sections.map Section.segment)) =
      solid (sections.flatMap Section.chars) + 12 * sections.length := by
  induction sections with
  | nil => rfl
  | cons s sections ih =>
      have one : solid s.segment.chars = solid s.chars + 12 := by
        have chars : s.segment.chars = inSection s.chars ++ s.after.chars := by
          simp [Section.segment, Segment.chars, inSection]
        rw [chars, solid_append, solid_gap, solid_inSection]
      rw [List.map_cons, flatten_cons, solid_append, one, ih, List.flatMap_cons, solid_append,
        List.length_cons]
      omega

theorem solid_cdata (before : Gap) (first : Section) (more : List Section) :
    solid (flatten (FieldText.cdata before first more).segments) =
      solid (FieldText.cdata before first more).value + 12 * (more.length + 1) := by
  rw [FieldText.segments, flatten_cons, solid_append, solid_sections]
  have gap : solid (Segment.chars ⟨before.chars, [], []⟩) = 0 := by
    rw [Segment.chars, solid_append, solid_gap]
    rfl
  rw [gap, Nat.zero_add]
  rfl

theorem solid_items (items : List TextItem) :
    solid (items.map TextItem.value) ≤ solid (items.flatMap TextItem.raw) ∧
      (solid (items.flatMap TextItem.raw) = solid (items.map TextItem.value) →
        items.flatMap TextItem.raw = items.map TextItem.value) := by
  induction items with
  | nil => exact ⟨Nat.le_refl _, fun _ => rfl⟩
  | cons item items ih =>
      obtain ⟨le, same⟩ := ih
      rw [List.map_cons, List.flatMap_cons, solid_append, ← List.singleton_append, solid_append]
      cases item with
      | literal c plain =>
          refine ⟨Nat.add_le_add_left le _, fun equal => ?_⟩
          rw [same (Nat.add_left_cancel equal)]
          rfl
      | reference body value known =>
          have one : solid [value] ≤ 1 := List.countP_le_length
          have two : 2 ≤ solid ('&' :: (body ++ [';'])) := by
            have split : '&' :: (body ++ [';']) = ['&'] ++ (body ++ [';']) := rfl
            have amp : solid ['&'] = 1 := by decide
            have semicolon : solid [';'] = 1 := by decide
            rw [split, solid_append, solid_append, amp, semicolon]
            omega
          simp only [TextItem.raw, TextItem.value]
          exact ⟨by omega, fun equal => by omega⟩

theorem solid_value_le (text : FieldText) :
    solid text.value ≤ solid (flatten text.segments) := by
  cases text with
  | plain items =>
      rw [flatten_plain]
      exact (solid_items items).1
  | cdata before first more =>
      rw [solid_cdata]
      omega

/-- No other text is read as it is meant. -/
theorem literal_of_read (same : solid (readText (flatten text.segments)) = solid text.value) :
    text.Literal := by
  cases text with
  | plain items =>
      rw [flatten_plain, readText_bare (raw_bare items), solid_trim] at same
      exact (solid_items items).2 same
  | cdata before first more =>
      cases more with
      | nil => rfl
      | cons next more =>
          have whole := solid_cdata before first (next :: more)
          have read := solid_readText
            (flatten (FieldText.cdata before first (next :: more)).segments)
          rw [List.length_cons] at whole
          omega

theorem ended_flatten {ss : List (Segment Char)} (searchable : ∀ s ∈ ss, Searchable t s)
    (nonempty : t ≠ []) {i : Nat} (found : find t (flatten ss) = some i) :
    '>' ∈ (flatten ss).drop i := by
  obtain absent | ⟨before, s, after, rfl, unmarked, marked⟩ :=
    Selection.all_or_first (fun s : Segment Char => ¬ t <:+: s.text) ss
  · rw [find_flatten_none nonempty (fun s hs => (searchable s hs).fits) absent] at found
    cases found
  · obtain ⟨j, opened⟩ := find_of_infix (not_not.mp marked)
    rw [find_flatten_some (fun s hs => (searchable s hs).fits) unmarked opened] at found
    obtain rfl := Option.some.inj found
    rw [flatten_drop (Nat.le_of_add_right_le (find_le opened))]
    exact List.mem_append_left _ ((searchable s (by simp)).ended j opened)

theorem eq_nameTag (tag : t = openTag ∨ t = openTagSpace) :
    ∃ c, t = ('<' :: encryptName) ++ [c] := by
  obtain rfl | rfl := tag
  · exact ⟨'>', rfl⟩
  · exact ⟨' ', rfl⟩

section Cases
variable {front opened inner rest : List Char}
  (closes : find closeTag (front ++ (opened ++ (inner ++ rest))) =
    some (front.length + (opened.length + inner.length)))
  (between : Between t closeTag '>' (front ++ (opened ++ (inner ++ rest))) w)
include closes between

omit closes between in
theorem take_up_to (front opened inner rest : List Char) :
    (front ++ (opened ++ (inner ++ rest))).take
      (front.length + (opened.length + inner.length)) = front ++ (opened ++ inner) := by
  rw [← List.append_assoc opened, ← List.append_assoc front,
    List.take_left' (by simp only [List.length_append])]

theorem between_up_to : ∃ i k, find t (front ++ (opened ++ (inner ++ rest))) = some i ∧
    find ['>'] ((front ++ (opened ++ (inner ++ rest))).drop i) = some k ∧
    i + k + 1 ≤ front.length + (opened.length + inner.length) ∧
    w = (front ++ (opened ++ inner)).drop (i + k + 1) := by
  obtain ⟨i, k, j, found, stopped, closed, ordered, rfl⟩ := between
  obtain rfl := Option.some.inj (closes.symm.trans closed)
  exact ⟨i, k, found, stopped, ordered, by rw [take_up_to]⟩

theorem between_of_early {i : Nat} (early : find t front = some i) (ended : '>' ∈ front.drop i) :
    ∃ x, w = x ++ (opened ++ inner) := by
  obtain ⟨i', k, found, stopped, _, rfl⟩ := between_up_to closes between
  rw [find_append_of_some early] at found
  obtain rfl := Option.some.inj found
  have within := Nat.le_of_add_right_le (find_le early)
  obtain ⟨k', stops, short⟩ := find_singleton_of_mem ended
  rw [List.drop_append_of_le_length within, find_append_of_some stops] at stopped
  obtain rfl := Option.some.inj stopped
  rw [List.length_drop] at short
  exact ⟨_, List.drop_append_of_le_length (by omega)⟩

variable (clear : Skips t front)
include clear

theorem between_of_own (own : t <+: opened) {name behind : List Char}
    (bare : '>' ∉ name) (split : opened = name ++ '>' :: behind) : w = behind ++ inner := by
  obtain ⟨i, k, found, stopped, _, rfl⟩ := between_up_to closes between
  rw [clear, find_of_start (own.trans (List.prefix_append _ _)), Option.map_some, Nat.zero_add]
    at found
  obtain rfl := Option.some.inj found
  have here : find ['>'] ('>' :: (behind ++ (inner ++ rest))) = some 0 := find_of_start ⟨_, rfl⟩
  rw [List.drop_left, split, List.append_assoc, find_append bare, List.cons_append, here,
    Option.map_some, Nat.zero_add] at stopped
  obtain rfl := Option.some.inj stopped
  have whole : front ++ (opened ++ inner) = (front ++ (name ++ ['>'])) ++ (behind ++ inner) := by
    simp [split]
  rw [whole, List.drop_left' (by simp only [List.length_append, List.length_singleton]; omega)]

theorem between_of_text {s : Segment Char} {more : List Char} {i : Nat}
    (tag : t = openTag ∨ t = openTagSpace) (skipped : Skips t opened) (fits : s.Fits t)
    (chars : inner = s.chars ++ more) (within : find t s.text = some i) :
    w <:+: s.text.drop (i + 8) ++ (s.tail ++ more) := by
  obtain ⟨i', k, found, stopped, ordered, rfl⟩ := between_up_to closes between
  rw [clear, skipped, chars, List.append_assoc, fits.find_some within] at found
  obtain rfl := Option.some.inj found
  obtain ⟨before, after, split, rfl⟩ := find_eq_some within
  -- the bracket comes after the name
  obtain ⟨c, named⟩ := eq_nameTag tag
  have drops : (front ++ (opened ++ (inner ++ rest))).drop
        (s.head.length + before.length + opened.length + front.length) =
      ('<' :: encryptName) ++ (c :: (after ++ (s.tail ++ (more ++ rest)))) := by
    have whole : front ++ (opened ++ (inner ++ rest)) =
        (front ++ (opened ++ (s.head ++ before))) ++
          (('<' :: encryptName) ++ (c :: (after ++ (s.tail ++ (more ++ rest))))) := by
      simp [chars, Segment.chars, split, named]
    rw [whole, List.drop_left' (by simp only [List.length_append]; omega)]
  have eight : ('<' :: encryptName).length = 8 := rfl
  rw [drops, find_append (by decide), Option.map_eq_some_iff, eight] at stopped
  obtain ⟨k', _, rfl⟩ := stopped
  have reaches : before.length + 8 ≤ s.text.length := by
    rw [split, named]
    simp only [List.length_append, eight]
    omega
  have behind : (front ++ (opened ++ inner)).drop
        ((front ++ (opened ++ s.head)).length + (before.length + 8 + (k' + 1))) =
      (s.text.drop (before.length + 8) ++ (s.tail ++ more)).drop (k' + 1) := by
    have whole : front ++ (opened ++ inner) =
        (front ++ (opened ++ s.head)) ++ (s.text ++ (s.tail ++ more)) := by
      simp [chars, Segment.chars]
    rw [whole, ← List.drop_drop, List.drop_left, ← List.drop_drop,
      List.drop_append_of_le_length reaches]
  have position : s.head.length + before.length + opened.length + front.length + (k' + 8) + 1 =
      (front ++ (opened ++ s.head)).length + (before.length + 8 + (k' + 1)) := by
    simp only [List.length_append]
    omega
  rw [position, behind]
  exact (List.drop_suffix _ _).isInfix

theorem not_between_of_skips (skipped : Skips t opened) (absent : Skips t inner) : False := by
  obtain ⟨i, k, found, _, ordered, _⟩ := between_up_to closes between
  rw [clear, skipped, absent] at found
  simp only [Option.map_map, Option.map_eq_some_iff, Function.comp_apply] at found
  obtain ⟨m, _, rfl⟩ := found
  omega

end Cases

theorem solid_encryptName : solid ('<' :: encryptName) = 8 := by decide

/-- A section begins before the tag that is no part of it. -/
theorem solid_of_section {x ys : List Char} {c : Char} (other : c ≠ '!')
    (start : '<' :: cdataStart <+: (x ++ '<' :: c :: ys).dropWhile isWhitespace) :
    9 ≤ solid x := by
  have nine : solid ('<' :: cdataStart) = 9 := by decide
  rw [List.dropWhile_append] at start
  split_ifs at start with blank
  · rw [List.dropWhile_cons_of_neg (by decide)] at start
    exact absurd (List.cons_prefix_cons.mp (List.cons_prefix_cons.mp start).2).1.symm other
  · rw [← solid_dropWhile x, ← nine]
    cases left : x.dropWhile isWhitespace with
    | nil => simp [left] at blank
    | cons d x' =>
        rw [left] at start
        obtain ⟨rfl, inside⟩ := List.cons_prefix_cons.mp start
        have within := prefix_of_prefix_append_stop (by decide) inside
        exact solid_within (List.cons_prefix_cons.mpr ⟨rfl, within⟩).isInfix

section Longer
variable {C : List Char} {n : Nat}

/-- The tag of the child is among what is read: that is too much. -/
theorem solid_lt_of_early (attributes : List Char) (le : n ≤ solid C) (x : List Char) :
    n < solid (readText (x ++ (('<' :: (encryptName ++ attributes ++ ['>'])) ++ C))) := by
  have tag : solid ('<' :: (encryptName ++ attributes ++ ['>'])) =
      8 + (solid attributes + 1) := by
    have one : solid ['>'] = 1 := by decide
    rw [List.append_assoc, ← List.cons_append, solid_append, solid_append, solid_encryptName, one]
  obtain same | ⟨stripped, start⟩ :=
    solid_readText (x ++ (('<' :: (encryptName ++ attributes ++ ['>'])) ++ C))
  · rw [same, solid_append, solid_append, tag]
    omega
  · have long : 9 ≤ solid x := solid_of_section (by decide) start
    rw [solid_append, solid_append, tag] at stripped
    omega

theorem solid_lt_of_bracket (le : n ≤ solid C) {z : List Char} (bare : '<' ∉ z) :
    n < solid (readText ((z ++ ['>']) ++ C)) := by
  have one : solid ['>'] = 1 := by decide
  have first : (((z ++ ['>']) ++ C).dropWhile isWhitespace).head? ≠ some '<' := by
    rw [List.append_assoc, List.dropWhile_append]
    split_ifs with blank
    · rw [List.singleton_append, List.dropWhile_cons_of_neg (by decide)]
      exact fun same => nomatch Option.some.inj same
    · cases left : z.dropWhile isWhitespace with
      | nil => simp [left] at blank
      | cons d z' =>
          intro same
          obtain rfl := Option.some.inj same
          exact bare ((List.dropWhile_suffix isWhitespace).subset (left ▸ List.mem_cons_self))
  rw [solid_readText_of_first first, solid_append, solid_append, one]
  omega

theorem last_of_tidy {before : Gap} {first : Section} {more pre post : List Section} {s : Section}
    (tidy : (FieldText.cdata before first more).Tidy) (split : first :: more = pre ++ s :: post)
    (counts : 0 < solid s.chars) : post = [] := by
  obtain rfl | ⟨post, last, rfl⟩ := List.eq_nil_or_concat' post
  · rfl
  · have ends : (first :: more).getLast (List.cons_ne_nil _ _) = last := by
      have whole := congrArg List.getLast? split
      rw [List.getLast?_eq_some_getLast (List.cons_ne_nil _ _), ← List.cons_append,
        ← List.append_assoc, List.getLast?_concat] at whole
      exact Option.some.inj whole
    have recorded := congrArg solid tidy
    rw [ends, solid_trim, split] at recorded
    simp only [List.flatMap_append, List.flatMap_cons, List.flatMap_nil, solid_append] at recorded
    omega

/-- The text of the child holds the opening tag: what comes behind that is too little. -/
theorem solid_lt_of_text (tag : t = openTag ∨ t = openTagSpace) (tagLike : TagLike t)
    (tidy : text.Tidy) {before after : List (Segment Char)} {s : Segment Char} {i : Nat}
    (split : text.segments = before ++ s :: after) (found : find t s.text = some i)
    (within : w <:+: s.text.drop (i + 8) ++ (s.tail ++ flatten after)) :
    solid (readText w) < solid text.value := by
  have present : '<' ∈ s.text := by
    obtain ⟨c, rfl⟩ := eq_nameTag tag
    exact (infix_of_find found).subset List.mem_cons_self
  cases text with
  | plain items =>
      have inside : s ∈ (FieldText.plain items).segments := split ▸ by simp
      obtain rfl := List.mem_singleton.mp inside
      exact absurd present (raw_bare items)
  | cdata gap first more =>
      cases before with
      | nil =>
          obtain rfl := (List.cons.inj split).1
          cases present
      | cons g before =>
          obtain ⟨pre, behind, sections, rfl, same⟩ :=
            List.map_eq_append_iff.mp (List.cons.inj split).2
          obtain ⟨piece, post, rfl, rfl, rfl⟩ := List.map_eq_cons_iff.mp same
          obtain ⟨front, rest, chars, rfl⟩ := find_eq_some found
          obtain ⟨c, named⟩ := eq_nameTag tag
          change piece.chars = front ++ (t ++ rest) at chars
          have eight : ('<' :: encryptName).length = 8 := rfl
          have drops : piece.chars.drop (front.length + 8) = [c] ++ rest := by
            rw [chars, named, List.append_assoc, ← List.append_assoc front,
              List.drop_left' (by rw [List.length_append, eight])]
          have counted : solid piece.chars = solid front + (8 + (solid [c] + solid rest)) := by
            rw [chars, named, List.append_assoc, solid_append, solid_append, solid_append,
              solid_encryptName]
          obtain rfl := last_of_tidy tidy sections (by omega)
          have tail : solid (cdataEnd ++ piece.after.chars) = 3 := by
            rw [solid_append, solid_gap]
            rfl
          have read := (solid_within (readText_within w)).trans (solid_within within)
          change solid (readText w) ≤ solid (piece.chars.drop (front.length + 8) ++
            ((cdataEnd ++ piece.after.chars) ++ [])) at read
          rw [List.append_nil, drops, solid_append, solid_append, tail] at read
          have value : solid piece.chars ≤ solid (FieldText.cdata gap first more).value := by
            rw [FieldText.value, sections]
            simp only [List.flatMap_append, List.flatMap_cons, solid_append]
            omega
          omega

end Longer

/-- Only the text of the child is left to hold the opening tag. -/
theorem solid_lt_of_skips {front opened rest : List Char}
    (closes : find closeTag (front ++ (opened ++ (flatten text.segments ++ rest))) =
      some (front.length + (opened.length + (flatten text.segments).length)))
    (between : Between t closeTag '>' (front ++ (opened ++ (flatten text.segments ++ rest))) w)
    (tag : t = openTag ∨ t = openTagSpace) (tagLike : TagLike t) (clear : Skips t front)
    (skipped : Skips t opened) (tidy : text.Tidy) : solid (readText w) < solid text.value := by
  have fits : ∀ s ∈ text.segments, s.Fits t := fun s hs => (tagLike.searchable_text hs).fits
  obtain nowhere | ⟨before, s, after, split, unmarked, marked⟩ :=
    Selection.all_or_first (fun s : Segment Char => ¬ t <:+: s.text) text.segments
  · exact (not_between_of_skips closes between clear skipped (skips_flatten fits nowhere)).elim
  · obtain ⟨i, found⟩ := find_of_infix (not_not.mp marked)
    rw [split] at fits
    have reached : Skips t (opened ++ flatten before) :=
      skipped.append (skips_flatten (fun s hs => fits s (List.mem_append_left _ hs)) unmarked)
    have whole : flatten text.segments = flatten before ++ (s.chars ++ flatten after) := by
      rw [split, flatten_append, flatten_cons]
    rw [whole, List.append_assoc (flatten before), ← List.append_assoc opened]
      at closes between
    have length : (flatten before ++ (s.chars ++ flatten after)).length =
        (flatten before).length + (s.chars ++ flatten after).length := List.length_append
    rw [length, ← Nat.add_assoc _ (flatten before).length, ← List.length_append] at closes
    exact solid_lt_of_text tag tagLike tidy split found
      (between_of_text closes between clear tag reached (fits s (by simp)) rfl found)

/-- Where the search ends at the closing tag of the child, it returns the child's text only if
it starts behind the child's own opening tag. -/
theorem own_of_read {ss : List (Segment Char)} {attributes rest : List Char}
    (tag : t = openTag ∨ t = openTagSpace) (tagLike : TagLike t)
    (searchable : ∀ s ∈ ss, Searchable t s) (bare : '<' ∉ attributes)
    (closes : find closeTag (flatten ss ++ (('<' :: (encryptName ++ attributes ++ ['>'])) ++
        (flatten text.segments ++ rest))) =
      some ((flatten ss).length + (('<' :: (encryptName ++ attributes ++ ['>'])).length +
        (flatten text.segments).length)))
    (between : Between t closeTag '>' (flatten ss ++
      (('<' :: (encryptName ++ attributes ++ ['>'])) ++ (flatten text.segments ++ rest))) w)
    (tidy : text.Tidy) (same : readText w = trim text.value) :
    (∀ s ∈ ss, ¬ t <:+: s.text) ∧ t <+: '<' :: (encryptName ++ attributes ++ ['>']) ∧
      '>' ∉ attributes ∧ text.Literal := by
  have length := congrArg solid same
  rw [solid_trim] at length
  have le := solid_value_le text
  obtain absent | ⟨before, s, after, rfl, unmarked, marked⟩ :=
    Selection.all_or_first (fun s : Segment Char => ¬ t <:+: s.text) ss
  · have clear := skips_flatten (fun s hs => (searchable s hs).fits) absent
    by_cases own : t <+: '<' :: (encryptName ++ attributes ++ ['>'])
    · refine ⟨absent, own, ?_⟩
      by_cases bracket : '>' ∈ attributes
      · obtain ⟨y, z, rfl, free⟩ := List.eq_append_cons_of_mem bracket
        have first : '>' ∉ '<' :: (encryptName ++ y) := by
          simpa [encryptName] using free
        have split : '<' :: (encryptName ++ (y ++ '>' :: z) ++ ['>']) =
            ('<' :: (encryptName ++ y)) ++ '>' :: (z ++ ['>']) := by
          simp
        obtain rfl := between_of_own closes between clear own first split
        have longer := solid_lt_of_bracket le (z := z) (fun mem => bare (by simp [mem]))
        omega
      · have first : '>' ∉ '<' :: (encryptName ++ attributes) := by
          simpa [encryptName] using bracket
        obtain rfl := between_of_own closes between clear own first rfl
        exact ⟨bracket, literal_of_read length⟩
    · have inner_bare : '<' ∉ encryptName ++ attributes := by
        simpa [encryptName] using bare
      have skipped : Skips t ('<' :: (encryptName ++ attributes ++ ['>'])) := by
        have fits := (tagLike.searchable_tag inner_bare).fits
        have chars := fits.skips fun inside =>
          own ((infix_tagSegment_iff tagLike inner_bare).mp inside)
        simpa [tagSegment, Segment.chars] using chars
      have shorter := solid_lt_of_skips closes between tag tagLike clear skipped tidy
      omega
  · obtain ⟨j, found⟩ := find_of_infix (not_not.mp marked)
    have early := find_flatten_some (fun s hs => (searchable s hs).fits) unmarked found
    obtain ⟨x, rfl⟩ := between_of_early closes between early
      (ended_flatten searchable tagLike.nonempty early)
    have longer := solid_lt_of_early attributes le x
    omega

theorem between_own {ss : List (Segment Char)} {attributes rest : List Char}
    (fits : ∀ s ∈ ss, s.Fits t) (absent : ∀ s ∈ ss, ¬ t <:+: s.text)
    (own : t <+: '<' :: (encryptName ++ attributes ++ ['>'])) (bracket : '>' ∉ attributes)
    (closes : find closeTag (flatten ss ++ (('<' :: (encryptName ++ attributes ++ ['>'])) ++
        (flatten text.segments ++ rest))) =
      some ((flatten ss).length + (('<' :: (encryptName ++ attributes ++ ['>'])).length +
        (flatten text.segments).length))) :
    Between t closeTag '>' (flatten ss ++ (('<' :: (encryptName ++ attributes ++ ['>'])) ++
      (flatten text.segments ++ rest))) (flatten text.segments) := by
  have clear := skips_flatten fits absent
  have name : '>' ∉ '<' :: (encryptName ++ attributes) := by
    simpa [encryptName] using bracket
  have split : '<' :: (encryptName ++ attributes ++ ['>']) =
      ('<' :: (encryptName ++ attributes)) ++ ['>'] := rfl
  have here : find ['>'] (['>'] ++ (flatten text.segments ++ rest)) = some 0 :=
    find_of_start (List.prefix_append _ _)
  refine ⟨(flatten ss).length, ('<' :: (encryptName ++ attributes)).length, _, ?_, ?_, closes,
    ?_, ?_⟩
  · rw [clear, find_of_start (own.trans (List.prefix_append _ _)), Option.map_some, Nat.zero_add]
  · rw [List.drop_left, split, List.append_assoc, find_append name, here, Option.map_some,
      Nat.zero_add]
  · rw [split, List.length_append, List.length_singleton]
    omega
  · have drops : flatten ss ++ (('<' :: (encryptName ++ attributes ++ ['>'])) ++
          flatten text.segments) =
        (flatten ss ++ ('<' :: (encryptName ++ attributes ++ ['>']))) ++ flatten text.segments :=
      (List.append_assoc _ _ _).symm
    have length : (flatten ss ++ ('<' :: (encryptName ++ attributes ++ ['>']))).length =
        (flatten ss).length + ('<' :: (encryptName ++ attributes)).length + 1 := by
      simp only [List.length_append, List.length_cons, List.length_nil]
      omega
    rw [take_up_to, drops, List.drop_left' length]

end Own
end Webhook
end EvoclawPluginWechat
