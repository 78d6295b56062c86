import EvoclawPluginWechat.Core.Wxml

/-!
What the two reply envelopes say when they are read back: the elements the builders mean,
with every text as it was given, whatever markers it holds.
-/
namespace EvoclawPluginWechat
open Xml

theorem toList_escapeCdata (s : String) :
    (escapeCdata s).toList = Pattern.replace cdataEnd cdataSeam s.toList :=
  String.toList_ofList

theorem escapeCdata_of_notMem {s : String} (h : '>' ∉ s.toList) : escapeCdata s = s := by
  have absent : ¬ cdataEnd <:+: s.toList := fun inside => h (inside.subset (by decide))
  rw [← String.toList_inj, toList_escapeCdata, Pattern.replace_of_not_infix absent]

theorem toString_int_ne_nil (z : Int) : (toString z).toList ≠ [] := by
  cases z with
  | ofNat n =>
      change n.repr.toList ≠ []
      rw [Nat.toList_repr]
      exact Nat.toDigits_ne_nil
  | negSucc n =>
      change ("-" ++ (n + 1).repr).toList ≠ []
      rw [String.toList_append]
      simp

theorem toString_int_chars (z : Int) {c : Char} (h : c ∈ (toString z).toList) :
    c = '-' ∨ c.isDigit = true := by
  have digit : ∀ n : Nat, c ∈ n.repr.toList → c.isDigit = true := by
    intro n hc
    rw [Nat.toList_repr] at hc
    exact Nat.isDigit_of_mem_toDigits (by decide) (by decide) hc
  cases z with
  | ofNat n => exact .inr (digit n h)
  | negSucc n =>
      change c ∈ ("-" ++ (n + 1).repr).toList at h
      rw [String.toList_append, List.mem_append] at h
      exact h.imp (fun sign => by simpa using sign) (digit (n + 1))

theorem ne_of_mem_toString_int {z : Int} {c d : Char} (h : c ∈ (toString z).toList)
    (sign : d ≠ '-') (digit : d.isDigit = false) : c ≠ d := by
  rintro rfl
  obtain minus | is := toString_int_chars z h
  · exact sign minus
  · rw [is] at digit
    cases digit

def textField (name text : String) : List Token :=
  wrap name.toList ((sections text.toList).map .cdata)

def numberField (name : String) (z : Int) : List Token :=
  wrap name.toList [.text (toString z).toList]

def leaf (name text : String) : Element := .mk name text []

theorem content_textField {name text : String} {s : List Char} {ts : List Token}
    {es : List Element} (named : isName name.toList = true) (rest : Content ts s es) :
    Content (textField name text ++ ts) s (leaf name text :: es) := by
  simpa [leaf, textField] using Content.wrap named (.sections text.toList) rest

theorem content_numberField {name : String} {z : Int} {s : List Char} {ts : List Token}
    {es : List Element} (named : isName name.toList = true) (rest : Content ts s es) :
    Content (numberField name z ++ ts) s (leaf name (toString z) :: es) := by
  have nonempty := toString_int_ne_nil z
  have plain : ∀ c ∈ (toString z).toList, c ≠ '<' ∧ c ≠ '&' := fun c hc =>
    ⟨ne_of_mem_toString_int hc (by decide) (by decide),
      ne_of_mem_toString_int hc (by decide) (by decide)⟩
  simpa [leaf, numberField] using Content.wrap named (.plain nonempty plain) rest

theorem render_textField (name text : String) (ts : List Token) :
    render (textField name text ++ ts) =
      '<' :: (name.toList ++ '>' :: '<' :: (cdataStart ++ ((escapeCdata text).toList ++
        (cdataEnd ++ '<' :: '/' :: (name.toList ++ '>' :: render ts))))) := by
  rw [textField, render_wrap, render_sections, toList_escapeCdata]
  simp

theorem render_numberField (name : String) (z : Int) (ts : List Token) :
    render (numberField name z ++ ts) =
      '<' :: (name.toList ++ '>' :: ((toString z).toList ++
        '<' :: '/' :: (name.toList ++ '>' :: render ts))) := by
  rw [numberField, render_wrap]
  simp [render, Token.render]

theorem escapeCdata_text : escapeCdata "text" = "text" := by decide

theorem escapeCdata_news : escapeCdata "news" = "news" := by decide

/-- What is inside the `<xml>` of a text reply. -/
def textReply (wall : Int) (toUser fromUser content : String) : List Token :=
  textField "ToUserName" toUser ++ (textField "FromUserName" fromUser ++
    (numberField "CreateTime" (currentUnixSecs wall) ++ (textField "MsgType" "text" ++
      (textField "Content" content ++ []))))

set_option maxRecDepth 4000 in
theorem buildTextReply_eq (wall : Int) (toUser fromUser content : String) :
    buildTextReply wall toUser fromUser content =
      String.ofList
        (render (wrap "xml".toList (textReply wall toUser fromUser content) ++ [])) := by
  rw [← String.toList_inj, String.toList_ofList, render_wrap]
  simp only [textReply, render_textField, render_numberField, escapeCdata_text]
  unfold buildTextReply
  generalize escapeCdata toUser = a, escapeCdata fromUser = b, escapeCdata content = c,
    toString (currentUnixSecs wall) = d
  simp [render, cdataStart, cdataEnd]

theorem content_textReply (wall : Int) (toUser fromUser content : String) :
    Content (textReply wall toUser fromUser content) []
      [leaf "ToUserName" toUser, leaf "FromUserName" fromUser,
        leaf "CreateTime" (toString (currentUnixSecs wall)), leaf "MsgType" "text",
        leaf "Content" content] := by
  apply content_textField (by decide)
  apply content_textField (by decide)
  apply content_numberField (by decide)
  apply content_textField (by decide)
  exact content_textField (by decide) .nil

def articleFields (a : NewsArticle) : List Token :=
  textField "Title" a.title ++ (textField "Description" a.description ++
    (textField "PicUrl" a.picUrl ++ (textField "Url" a.url ++ [])))

def articleElement (a : NewsArticle) : Element :=
  .mk "item" "" [leaf "Title" a.title, leaf "Description" a.description,
    leaf "PicUrl" a.picUrl, leaf "Url" a.url]

def articleItems (articles : List NewsArticle) : List Token :=
  articles.flatMap fun a => wrap "item".toList (articleFields a)

set_option maxRecDepth 4000 in
theorem render_article (a : NewsArticle) (ts : List Token) :
    render (wrap "item".toList (articleFields a) ++ ts) = a.item.toList ++ render ts := by
  rw [render_wrap]
  simp only [articleFields, render_textField]
  unfold NewsArticle.item
  generalize escapeCdata a.title = b, escapeCdata a.description = c, escapeCdata a.picUrl = d,
    escapeCdata a.url = e
  simp [render, cdataStart, cdataEnd]

theorem render_articleItems (articles : List NewsArticle) (items : String) :
    (articles.foldl (fun items a => items ++ a.item) items).toList =
      items.toList ++ render (articleItems articles) := by
  induction articles generalizing items with
  | nil => simp [articleItems, render]
  | cons a articles ih =>
      have first : articleItems (a :: articles) =
          wrap "item".toList (articleFields a) ++ articleItems articles := List.flatMap_cons
      rw [List.foldl_cons, ih, first, render_article]
      simp

theorem content_articleItems (articles : List NewsArticle) :
    Content (articleItems articles) [] (articles.map articleElement) := by
  induction articles with
  | nil => exact .nil
  | cons a articles ih =>
      refine Content.wrap (by decide) ?_ ih
      apply content_textField (by decide)
      apply content_textField (by decide)
      apply content_textField (by decide)
      exact content_textField (by decide) .nil

/-- What is inside the `<xml>` of a news reply. -/
def newsReply (wall : Int) (toUser fromUser : String) (articles : List NewsArticle) :
    List Token :=
  textField "ToUserName" toUser ++ (textField "FromUserName" fromUser ++
    (numberField "CreateTime" (currentUnixSecs wall) ++ (textField "MsgType" "news" ++
      (numberField "ArticleCount" articles.length ++
        (wrap "Articles".toList (articleItems articles) ++ [])))))

set_option maxRecDepth 4000 in
theorem buildNewsReply_eq (wall : Int) (toUser fromUser : String)
    (articles : List NewsArticle) :
    buildNewsReply wall toUser fromUser articles =
      String.ofList
        (render (wrap "xml".toList (newsReply wall toUser fromUser articles) ++ [])) := by
  have items := render_articleItems articles ""
  have count : toString (articles.length : Int) = toString articles.length := rfl
  rw [← String.toList_inj, String.toList_ofList, render_wrap]
  simp only [newsReply, render_textField, render_numberField, render_wrap "Articles".toList,
    escapeCdata_news, count]
  unfold buildNewsReply
  generalize escapeCdata toUser = a, escapeCdata fromUser = b,
    toString (currentUnixSecs wall) = c, toString articles.length = n,
    articles.foldl (fun items a => items ++ a.item) "" = d at items ⊢
  simp [items, render, cdataStart, cdataEnd]

/-- Both envelopes are read back as what they are built from; `ArticleCount` is the number
of items in decimal. -/
theorem replies_read_back (wall : Int) (toUser fromUser content : String)
    (articles : List NewsArticle) :
    read (buildTextReply wall toUser fromUser content) = some (.mk "xml" ""
      [leaf "ToUserName" toUser, leaf "FromUserName" fromUser,
        leaf "CreateTime" (toString (currentUnixSecs wall)), leaf "MsgType" "text",
        leaf "Content" content]) ∧
    read (buildNewsReply wall toUser fromUser articles) = some (.mk "xml" ""
      [leaf "ToUserName" toUser, leaf "FromUserName" fromUser,
        leaf "CreateTime" (toString (currentUnixSecs wall)), leaf "MsgType" "news",
        leaf "ArticleCount" (toString articles.length),
        .mk "Articles" "" (articles.map articleElement)]) ∧
    digitsValue (toString articles.length).toList = some (articles.map articleElement).length := by
  refine ⟨?_, ?_, ?_⟩
  · rw [buildTextReply_eq, List.append_nil]
    exact read_document (by decide) (content_textReply wall toUser fromUser content)
  · rw [buildNewsReply_eq, List.append_nil]
    apply read_document (by decide)
    apply content_textField (by decide)
    apply content_textField (by decide)
    apply content_numberField (by decide)
    apply content_textField (by decide)
    apply content_numberField (by decide)
    exact .wrap (by decide) (content_articleItems articles) .nil
  · rw [List.length_map]
    exact digitsValue_repr articles.length

end EvoclawPluginWechat
