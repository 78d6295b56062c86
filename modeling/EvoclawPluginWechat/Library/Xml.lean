import EvoclawPluginWechat.Library.Pattern

/-!
XML documents of elements without attributes: tags, character data without references,
and CDATA sections, which end at the first `]]>`. The reader goes through the document
character by character; adjacent pieces of text of an element are put together.
-/
namespace Xml

inductive Token
  | opening (name : List Char)
  | closing (name : List Char)
  | text (cs : List Char)
  | cdata (cs : List Char)

inductive Element
  | mk (name text : String) (children : List Element)

def cdataStart : List Char := ['!', '[', 'C', 'D', 'A', 'T', 'A', '[']

def cdataEnd : List Char := [']', ']', '>']

def nameStart (c : Char) : Bool := c.isAlpha || c == '_' || c == ':'

def nameChar (c : Char) : Bool := nameStart c || c.isDigit || c == '-' || c == '.'

def isName : List Char → Bool
  | [] => false
  | c :: cs => nameStart c && cs.all nameChar

def Token.render : Token → List Char
  | .opening name => '<' :: (name ++ ['>'])
  | .closing name => '<' :: '/' :: (name ++ ['>'])
  | .text cs => cs
  | .cdata cs => '<' :: (cdataStart ++ (cs ++ cdataEnd))

def Token.isText : Token → Bool
  | .text _ => true
  | _ => false

def render (ts : List Token) : List Char := ts.flatMap Token.render

def wrap (name : List Char) (ts : List Token) : List Token :=
  .opening name :: (ts ++ [.closing name])

section Lexer

/-- Where the reader is, with what it has read since it came there. -/
inductive Mode
  | text (read : List Char)
  | tag (read : List Char)
  | cdata (read : List Char)

structure Lexer where
  tokens : List Token
  mode : Mode

def flush (tokens : List Token) (read : List Char) : List Token :=
  if read = [] then tokens else tokens ++ [.text read]

/-- What a tag is, from what stands between its angle brackets. -/
def tag (cs : List Char) : Option Token :=
  if cs.head? = some '/' then
    if isName cs.tail then some (.closing cs.tail) else none
  else if isName cs then some (.opening cs) else none

def Lexer.feed (s : Lexer) (c : Char) : Option Lexer :=
  match s.mode with
  | .text read =>
      if c = '<' then some ⟨flush s.tokens read, .tag []⟩
      else if c = '&' then none
      else some ⟨s.tokens, .text (read ++ [c])⟩
  | .tag read =>
      if read ++ [c] = cdataStart then some ⟨s.tokens, .cdata []⟩
      else if c = '>' then (tag read).map fun t => ⟨s.tokens ++ [t], .text []⟩
      else some ⟨s.tokens, .tag (read ++ [c])⟩
  | .cdata read =>
      if cdataEnd <:+ read ++ [c] then
        some ⟨s.tokens ++ [.cdata (read.take (read.length - 2))], .text []⟩
      else some ⟨s.tokens, .cdata (read ++ [c])⟩

def Lexer.scan (s : Lexer) (cs : List Char) : Option Lexer := cs.foldlM Lexer.feed s

def Lexer.finish (s : Lexer) : Option (List Token) :=
  match s.mode with
  | .text read => some (flush s.tokens read)
  | _ => none

def lex (cs : List Char) : Option (List Token) :=
  (Lexer.scan ⟨[], .text []⟩ cs).bind Lexer.finish

end Lexer

section Reader

/-- An element whose closing tag is still to come. -/
structure Frame where
  name : List Char
  text : List Char
  children : List Element

def Frame.element (f : Frame) : Element :=
  .mk (String.ofList f.name) (String.ofList f.text) f.children

/-- Put the tokens together below the open elements, the innermost first. -/
def build : List Frame → List Token → Option Element
  | stack, .opening name :: ts => build (⟨name, [], []⟩ :: stack) ts
  | f :: stack, .text cs :: ts | f :: stack, .cdata cs :: ts =>
      build ({ f with text := f.text ++ cs } :: stack) ts
  | [f], .closing name :: ts => if name = f.name ∧ ts = [] then some f.element else none
  | f :: g :: stack, .closing name :: ts =>
      if name = f.name then
        build ({ g with children := g.children ++ [f.element] } :: stack) ts
      else none
  | _, _ => none

def read (document : String) : Option Element := (lex document.toList).bind (build [])

end Reader

/-- The tokens are the content of an element with this text and these children. -/
inductive Content : List Token → List Char → List Element → Prop
  | nil : Content [] [] []
  | text {cs s : List Char} {ts : List Token} {es : List Element} : cs ≠ [] →
      (∀ c ∈ cs, c ≠ '<' ∧ c ≠ '&') → (∀ t, ts.head? = some t → t.isText = false) →
      Content ts s es → Content (.text cs :: ts) (cs ++ s) es
  | cdata {cs s : List Char} {ts : List Token} {es : List Element} :
      ¬ cdataEnd <:+: cs → Content ts s es → Content (.cdata cs :: ts) (cs ++ s) es
  | element {name s s' : List Char} {ts rest : List Token} {es es' : List Element} :
      isName name = true → Content ts s es → Content rest s' es' →
      Content (.opening name :: (ts ++ .closing name :: rest)) s'
        (.mk (String.ofList name) (String.ofList s) es :: es')

theorem nameChar_of_isName {name : List Char} (h : isName name = true) :
    ∀ c ∈ name, nameChar c = true := by
  cases name with
  | nil => exact fun c hc => absurd hc List.not_mem_nil
  | cons c cs =>
      simp only [isName, Bool.and_eq_true, List.all_eq_true] at h
      intro d hd
      obtain rfl | hd := List.mem_cons.mp hd
      · simp [nameChar, h.1]
      · exact h.2 d hd

theorem notMem_of_isName {name : List Char} {c : Char} (h : isName name = true)
    (other : nameChar c = false) : c ∉ name := by
  intro hc
  rw [nameChar_of_isName h c hc] at other
  cases other

theorem not_cdataEnd_suffix (cs : List Char) : ¬ cdataEnd <:+ cs ++ [']'] := by
  rintro ⟨front, same⟩
  have last := congrArg List.getLast? same
  simp [cdataEnd] at last

namespace Lexer

theorem scan_cons (s : Lexer) (c : Char) (cs : List Char) :
    s.scan (c :: cs) = (s.feed c).bind fun t => t.scan cs := List.foldlM_cons

theorem scan_append (s : Lexer) (cs ds : List Char) :
    s.scan (cs ++ ds) = (s.scan cs).bind fun t => t.scan ds := List.foldlM_append

theorem scan_text {ts : List Token} {read cs : List Char}
    (h : ∀ c ∈ cs, c ≠ '<' ∧ c ≠ '&') :
    scan ⟨ts, .text read⟩ cs = some ⟨ts, .text (read ++ cs)⟩ := by
  induction cs generalizing read with
  | nil => simp [scan]
  | cons c cs ih =>
      obtain ⟨less, amp⟩ := h c List.mem_cons_self
      have rest : scan ⟨ts, .text (read ++ [c])⟩ cs = some ⟨ts, .text (read ++ [c] ++ cs)⟩ :=
        ih fun d hd => h d (List.mem_cons_of_mem _ hd)
      simpa [scan_cons, feed, less, amp] using rest

theorem ne_cdataStart {cs : List Char} (h : '!' ∉ cs) : cs ≠ cdataStart := by
  rintro rfl
  exact h (by decide)

theorem scan_tag {ts : List Token} {read cs : List Char} (greater : '>' ∉ cs)
    (bang : '!' ∉ read ++ cs) : scan ⟨ts, .tag read⟩ cs = some ⟨ts, .tag (read ++ cs)⟩ := by
  induction cs generalizing read with
  | nil => simp [scan]
  | cons c cs ih =>
      have rest : scan ⟨ts, .tag (read ++ [c])⟩ cs = some ⟨ts, .tag (read ++ [c] ++ cs)⟩ :=
        ih (fun h => greater (List.mem_cons_of_mem _ h)) (by simpa using bang)
      have other : c ≠ '>' := fun same => greater (same ▸ List.mem_cons_self)
      have start : read ++ [c] ≠ cdataStart := ne_cdataStart fun h => bang (by
        rw [List.mem_append, List.mem_singleton] at h
        rw [List.mem_append, List.mem_cons]
        exact h.imp id .inl)
      simpa [scan_cons, feed, start, other] using rest

theorem scan_tagged {ts : List Token} {read cs : List Char} {t : Token} (greater : '>' ∉ cs)
    (bang : '!' ∉ cs) (h : tag cs = some t) :
    scan ⟨ts, .text read⟩ ('<' :: (cs ++ ['>'])) =
      some ⟨flush ts read ++ [t], .text []⟩ := by
  have start : cs ++ ['>'] ≠ cdataStart := ne_cdataStart (by simp [bang])
  have inside : scan ⟨flush ts read, .tag []⟩ cs = some ⟨flush ts read, .tag ([] ++ cs)⟩ :=
    scan_tag greater bang
  have less : feed ⟨ts, .text read⟩ '<' = some ⟨flush ts read, .tag []⟩ := rfl
  rw [scan_cons, less, Option.bind_some, scan_append, inside]
  simp [scan, feed, start, h]

theorem scan_opening {ts : List Token} {read name : List Char} (h : isName name = true) :
    scan ⟨ts, .text read⟩ (Token.opening name).render =
      some ⟨flush ts read ++ [.opening name], .text []⟩ := by
  have slash : name.head? ≠ some '/' := by
    intro same
    exact notMem_of_isName h (c := '/') (by decide) (List.mem_of_mem_head? same)
  exact scan_tagged (notMem_of_isName h (by decide)) (notMem_of_isName h (by decide))
    (by simp [tag, slash, h])

theorem scan_closing {ts : List Token} {read name : List Char} (h : isName name = true) :
    scan ⟨ts, .text read⟩ (Token.closing name).render =
      some ⟨flush ts read ++ [.closing name], .text []⟩ := by
  have greater := notMem_of_isName h (c := '>') (by decide)
  have bang := notMem_of_isName h (c := '!') (by decide)
  have slashed : tag ('/' :: name) = some (.closing name) := by simp [tag, h]
  exact scan_tagged (by simp [greater]) (by simp [bang]) slashed

theorem scan_cdata {ts : List Token} {read cs : List Char} (h : ¬ cdataEnd <:+: read ++ cs) :
    scan ⟨ts, .cdata read⟩ cs = some ⟨ts, .cdata (read ++ cs)⟩ := by
  induction cs generalizing read with
  | nil => simp [scan]
  | cons c cs ih =>
      have rest : scan ⟨ts, .cdata (read ++ [c])⟩ cs = some ⟨ts, .cdata (read ++ [c] ++ cs)⟩ :=
        ih (by simpa using h)
      have open_ : ¬ cdataEnd <:+ read ++ [c] := fun ends => h (by
        have longer : read ++ [c] <:+: read ++ c :: cs := ⟨[], cs, by simp⟩
        exact ends.isInfix.trans longer)
      simpa [scan_cons, feed, open_] using rest

/-- The section ends at its own end marker, whatever brackets stand before it. -/
theorem scan_cdataEnd (ts : List Token) (cs : List Char) :
    scan ⟨ts, .cdata cs⟩ cdataEnd = some ⟨ts ++ [.cdata cs], .text []⟩ := by
  have ends : cdataEnd <:+ cs ++ [']'] ++ [']'] ++ ['>'] := ⟨cs, by simp [cdataEnd]⟩
  change scan _ [']', ']', '>'] = _
  simp only [scan_cons, feed, not_cdataEnd_suffix, ends, if_false, if_true, Option.bind_some]
  simp [scan]

theorem scan_section {ts : List Token} {read cs : List Char} (h : ¬ cdataEnd <:+: cs) :
    scan ⟨ts, .text read⟩ (Token.cdata cs).render =
      some ⟨flush ts read ++ [.cdata cs], .text []⟩ := by
  have start : scan ⟨flush ts read, .tag []⟩ cdataStart = some ⟨flush ts read, .cdata []⟩ := rfl
  have inside : scan ⟨flush ts read, .cdata []⟩ cs = some ⟨flush ts read, .cdata ([] ++ cs)⟩ :=
    scan_cdata h
  simp only [Token.render, scan_cons, scan_append, feed, if_true, Option.bind_some, start,
    inside, List.nil_append, scan_cdataEnd]

theorem scan_content {ts : List Token} {s : List Char} {es : List Element}
    (h : Content ts s es) (done : List Token) (read : List Char)
    (seam : read ≠ [] → ∀ t, ts.head? = some t → t.isText = false) :
    ∃ done' read', scan ⟨done, .text read⟩ (render ts) = some ⟨done', .text read'⟩ ∧
      flush done' read' = flush done read ++ ts := by
  induction h generalizing done read with
  | nil => exact ⟨done, read, rfl, by simp⟩
  | @text cs s ts es nonempty plain next _ ih =>
      have fresh : read = [] := by
        by_contra pending
        have := seam pending _ rfl
        cases this
      subst fresh
      obtain ⟨done', read', run, flushed⟩ := ih done cs fun _ => next
      refine ⟨done', read', ?_, ?_⟩
      · change scan _ (cs ++ render ts) = _
        rw [scan_append, scan_text plain]
        exact run
      · rw [flushed]
        simp [flush, nonempty]
  | @cdata cs s ts es ends _ ih =>
      obtain ⟨done', read', run, flushed⟩ := ih (flush done read ++ [.cdata cs]) []
        fun pending => absurd rfl pending
      refine ⟨done', read', ?_, ?_⟩
      · change scan _ ((Token.cdata cs).render ++ render ts) = _
        rw [scan_append, scan_section ends]
        exact run
      · rw [flushed]
        simp [flush]
  | @element name s s' ts rest es es' named _ _ ih ih' =>
      obtain ⟨inner, read₁, run₁, flushed₁⟩ := ih (flush done read ++ [.opening name]) []
        fun pending => absurd rfl pending
      obtain ⟨done', read', run, flushed⟩ := ih' (flush inner read₁ ++ [.closing name]) []
        fun pending => absurd rfl pending
      refine ⟨done', read', ?_, ?_⟩
      · have split : render (.opening name :: (ts ++ .closing name :: rest)) =
            (Token.opening name).render ++ (render ts ++
              ((Token.closing name).render ++ render rest)) := by
          simp [render]
        rw [split, scan_append, scan_opening named, Option.bind_some, scan_append, run₁,
          Option.bind_some, scan_append, scan_closing named]
        exact run
      · rw [flushed, flushed₁]
        simp [flush]

end Lexer

theorem lex_content {ts : List Token} {s : List Char} {es : List Element}
    (h : Content ts s es) : lex (render ts) = some ts := by
  obtain ⟨done, read, run, flushed⟩ := Lexer.scan_content h [] [] fun pending => absurd rfl pending
  rw [lex, run]
  exact congrArg some flushed

theorem build_content {ts : List Token} {s : List Char} {es : List Element}
    (h : Content ts s es) (f : Frame) (stack : List Frame) (more : List Token) :
    build (f :: stack) (ts ++ more) =
      build (⟨f.name, f.text ++ s, f.children ++ es⟩ :: stack) more := by
  induction h generalizing f stack more with
  | nil => simp
  | text _ _ _ _ ih | cdata _ _ ih =>
      rw [List.cons_append, build, ih]
      simp
  | @element name s s' ts rest es es' _ _ _ ih ih' =>
      rw [List.cons_append, build, List.append_assoc, ih, List.cons_append, build, if_pos rfl, ih']
      simp [Frame.element]

theorem Content.wrap {name s s' : List Char} {ts rest : List Token} {es es' : List Element}
    (named : isName name = true) (h : Content ts s es) (hr : Content rest s' es') :
    Content (wrap name ts ++ rest) s' (.mk (String.ofList name) (String.ofList s) es :: es') := by
  simpa [Xml.wrap] using Content.element named h hr

/-- A document that is written as an element is read as that element. -/
theorem read_document {name s : List Char} {ts : List Token} {es : List Element}
    (named : isName name = true) (h : Content ts s es) :
    read (String.ofList (render (wrap name ts))) =
      some (.mk (String.ofList name) (String.ofList s) es) := by
  rw [read, String.toList_ofList, wrap, lex_content (.element named h .nil), Option.bind_some,
    build, build_content h, build, if_pos ⟨rfl, rfl⟩]
  rfl

theorem render_wrap (name : List Char) (ts more : List Token) :
    render (wrap name ts ++ more) =
      '<' :: (name ++ '>' :: (render ts ++ '<' :: '/' :: (name ++ '>' :: render more))) := by
  simp [wrap, render, Token.render]

section Sections

/-- What stands in place of an end marker inside a text: it ends one section and goes on in
the next. -/
def cdataSeam : List Char := [']', ']'] ++ (cdataEnd ++ '<' :: (cdataStart ++ ['>']))

/-- The contents of the sections, from the pieces of a text between its end markers. -/
def sectionsFrom (lead : List Char) : List (List Char) → List (List Char)
  | [] => []
  | [piece] => [lead ++ piece]
  | piece :: next :: pieces => (lead ++ piece ++ [']', ']']) :: sectionsFrom ['>'] (next :: pieces)

/-- A text as CDATA sections that hold no end marker. -/
def sections (cs : List Char) : List (List Char) := sectionsFrom [] (Pattern.split cdataEnd cs)

theorem cdataEnd_ne_nil : cdataEnd ≠ [] := by decide

theorem flatten_sectionsFrom (lead : List Char) {pieces : List (List Char)} (h : pieces ≠ []) :
    (sectionsFrom lead pieces).flatten = lead ++ cdataEnd.intercalate pieces := by
  fun_induction sectionsFrom lead pieces with
  | case1 => exact absurd rfl h
  | case2 lead piece => simp
  | case3 lead piece next pieces ih =>
      rw [List.flatten_cons, ih (by simp), List.intercalate_cons_cons]
      simp [cdataEnd]

theorem flatten_sections (cs : List Char) : (sections cs).flatten = cs := by
  rw [sections, flatten_sectionsFrom [] (Pattern.split_ne_nil cdataEnd_ne_nil cs),
    Pattern.intercalate_split cdataEnd_ne_nil, List.nil_append]

theorem render_sectionsFrom (lead : List Char) {pieces : List (List Char)} (h : pieces ≠ []) :
    render ((sectionsFrom lead pieces).map .cdata) =
      '<' :: (cdataStart ++ (lead ++ (cdataSeam.intercalate pieces ++ cdataEnd))) := by
  fun_induction sectionsFrom lead pieces with
  | case1 => exact absurd rfl h
  | case2 lead piece => simp [render, Token.render]
  | case3 lead piece next pieces ih =>
      have rest := ih (by simp)
      rw [render] at rest ⊢
      rw [List.map_cons, List.flatMap_cons, rest, List.intercalate_cons_cons]
      simp [Token.render, cdataSeam]

theorem render_sections (cs : List Char) :
    render ((sections cs).map .cdata) =
      '<' :: (cdataStart ++ (Pattern.replace cdataEnd cdataSeam cs ++ cdataEnd)) :=
  render_sectionsFrom [] (Pattern.split_ne_nil cdataEnd_ne_nil cs)

theorem not_infix_brackets {cs : List Char} (h : ¬ cdataEnd <:+: cs) :
    ¬ cdataEnd <:+: cs ++ [']', ']'] := by
  have split : cs ++ [']', ']'] = cs ++ [']'] ++ [']'] := by simp
  rw [split, List.infix_concat_iff, List.infix_concat_iff]
  rintro (last | last | inside)
  · exact not_cdataEnd_suffix _ last
  · exact not_cdataEnd_suffix _ last
  · exact h inside

theorem not_infix_greater {cs : List Char} (h : ¬ cdataEnd <:+: cs) :
    ¬ cdataEnd <:+: '>' :: cs := by
  rw [List.infix_cons_iff]
  rintro (start | inside)
  · simp [cdataEnd] at start
  · exact h inside

theorem not_infix_of_mem_sectionsFrom {lead : List Char} {pieces : List (List Char)}
    (hlead : lead = [] ∨ lead = ['>']) (h : ∀ piece ∈ pieces, ¬ cdataEnd <:+: piece) :
    ∀ cs ∈ sectionsFrom lead pieces, ¬ cdataEnd <:+: cs := by
  have leading : ∀ piece : List Char, ¬ cdataEnd <:+: piece → ¬ cdataEnd <:+: lead ++ piece := by
    intro piece hp
    obtain rfl | rfl := hlead
    · exact hp
    · exact not_infix_greater hp
  fun_induction sectionsFrom lead pieces with
  | case1 => exact fun cs hcs => absurd hcs List.not_mem_nil
  | case2 lead piece =>
      intro cs hcs
      obtain rfl := List.mem_singleton.mp hcs
      exact leading piece (h piece List.mem_cons_self)
  | case3 lead piece next pieces ih =>
      intro cs hcs
      obtain rfl | hcs := List.mem_cons.mp hcs
      · exact not_infix_brackets (leading piece (h piece List.mem_cons_self))
      · exact ih (.inr rfl) (fun p hp => h p (List.mem_cons_of_mem _ hp))
          (fun p hp => not_infix_greater hp) cs hcs

theorem not_infix_of_mem_sections {cs piece : List Char} (h : piece ∈ sections cs) :
    ¬ cdataEnd <:+: piece :=
  not_infix_of_mem_sectionsFrom (.inl rfl)
    (fun _ hp => Pattern.not_infix_of_mem_split cdataEnd_ne_nil cs hp) piece h

theorem sections_ne_nil (cs : List Char) : sections cs ≠ [] := by
  unfold sections
  cases h : Pattern.split cdataEnd cs with
  | nil => exact absurd h (Pattern.split_ne_nil cdataEnd_ne_nil cs)
  | cons piece pieces => cases pieces <;> simp [sectionsFrom]

theorem getLast_sections_eq_iff (cs : List Char) :
    (sections cs).getLast (sections_ne_nil cs) = cs ↔ ¬ cdataEnd <:+: cs := by
  constructor
  · intro last
    have mem := List.getLast_mem (sections_ne_nil cs)
    rw [last] at mem
    exact not_infix_of_mem_sections mem
  · intro h
    have single : sections cs = [cs] := by
      rw [sections, Pattern.split_of_not_infix h, sectionsFrom, List.nil_append]
    simp [single]

theorem Content.cdatas {pieces : List (List Char)} (h : ∀ cs ∈ pieces, ¬ cdataEnd <:+: cs) :
    Content (pieces.map .cdata) pieces.flatten [] := by
  induction pieces with
  | nil => exact .nil
  | cons cs pieces ih =>
      exact .cdata (h cs List.mem_cons_self) (ih fun p hp => h p (List.mem_cons_of_mem _ hp))

theorem Content.sections (cs : List Char) : Content ((sections cs).map .cdata) cs [] := by
  have content : Content ((Xml.sections cs).map .cdata) (Xml.sections cs).flatten [] :=
    Content.cdatas fun _ => not_infix_of_mem_sections
  rwa [flatten_sections] at content

theorem Content.plain {cs : List Char} (nonempty : cs ≠ [])
    (plain : ∀ c ∈ cs, c ≠ '<' ∧ c ≠ '&') : Content [.text cs] cs [] := by
  simpa using Content.text nonempty plain (by simp) .nil

end Sections

end Xml
