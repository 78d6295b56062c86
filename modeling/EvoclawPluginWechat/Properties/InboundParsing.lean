import EvoclawPluginWechat.Properties.ReplyEnvelopes

/-!
What `parse_inbound` makes of an envelope the plugin writes itself. Each CDATA section of
an element replaces the one before it, so of a text that was cut at its end markers only
what follows the last of them is kept.
-/
namespace EvoclawPluginWechat
open Xml

/-- What is left of a text that was written as CDATA. -/
def lastSection (text : String) : String :=
  String.ofList ((sections text.toList).getLast (sections_ne_nil text.toList))

theorem lastSection_eq_iff (text : String) :
    lastSection text = text ↔ ¬ "]]>".toList <:+: text.toList := by
  have marker : "]]>".toList = cdataEnd := rfl
  rw [lastSection, marker, ← getLast_sections_eq_iff, ← String.toList_inj, String.toList_ofList]

section Collect
variable {bag : Table String String} {name : String} {es : List XmlEvent}

theorem collect_cdatas {pieces : List (List Char)} (nonempty : pieces ≠ []) :
    collect bag (some name) (pieces.map (fun cs => .cdata (String.ofList cs)) ++ es) =
      collect (bag.insert name (String.ofList (pieces.getLast nonempty))) (some name) es := by
  induction pieces generalizing bag with
  | nil => exact absurd rfl nonempty
  | cons piece pieces ih =>
      rw [List.map_cons, List.cons_append, collect]
      cases pieces with
      | nil => rfl
      | cons next pieces =>
          rw [ih (by simp), AList.insert_insert]
          rfl

theorem events_wrap (name : List Char) (ts : List Token) :
    (wrap name ts).filterMap tokenEvent =
      .start (String.ofList name) :: (ts.filterMap tokenEvent ++ [.end]) := by
  simp [wrap, tokenEvent]

theorem events_cdatas (pieces : List (List Char)) :
    (pieces.map .cdata).filterMap tokenEvent =
      pieces.map fun cs => .cdata (String.ofList cs) := by
  induction pieces with
  | nil => rfl
  | cons cs pieces ih => simp [tokenEvent, ih]

theorem collect_textField {current : Option String} (other : name ≠ "xml") (text : String) :
    collect bag current ((textField name text).filterMap tokenEvent ++ es) =
      collect (bag.insert name (lastSection text)) none es := by
  rw [textField, events_wrap, events_cdatas, String.ofList_toList, List.cons_append, collect,
    if_neg other, List.append_assoc, collect_cdatas (sections_ne_nil text.toList)]
  rfl

theorem trimText_of_no_space {cs : List Char} (h : ∀ c ∈ cs, isXmlSpace c = false) :
    trimText cs = cs := by
  have front : ∀ ds : List Char, (∀ c ∈ ds, isXmlSpace c = false) →
      ds.dropWhile isXmlSpace = ds := by
    intro ds hd
    cases ds with
    | nil => rfl
    | cons d ds => rw [List.dropWhile_cons_of_neg (by simp [hd d List.mem_cons_self])]
  rw [trimText, front cs h, front cs.reverse fun c hc => h c (List.mem_reverse.mp hc),
    List.reverse_reverse]

theorem collect_numberField {current : Option String} (other : name ≠ "xml")
    (fresh : bag.lookup name = none) (z : Int) :
    collect bag current ((numberField name z).filterMap tokenEvent ++ es) =
      collect (bag.insert name (toString z)) none es := by
  have trimmed : trimText (toString z).toList = (toString z).toList := by
    apply trimText_of_no_space
    intro c hc
    simp only [isXmlSpace, Bool.or_eq_false_iff, beq_eq_false_iff_ne]
    refine ⟨⟨⟨?_, ?_⟩, ?_⟩, ?_⟩ <;> exact ne_of_mem_toString_int hc (by decide) (by decide)
  have event : tokenEvent (.text (toString z).toList) = some (.text (some (toString z))) := by
    rw [tokenEvent, trimmed, if_neg (toString_int_ne_nil z), String.ofList_toList]
  rw [numberField, events_wrap, String.ofList_toList, List.cons_append, collect, if_neg other,
    List.filterMap_cons, event]
  simp [collect, fresh]

end Collect

def textReplyBag (wall : Int) (toUser fromUser content : String) : Table String String :=
  (((((∅ : Table String String).insert "ToUserName" (lastSection toUser)).insert
    "FromUserName" (lastSection fromUser)).insert
    "CreateTime" (toString (currentUnixSecs wall))).insert
    "MsgType" "text").insert
    "Content" (lastSection content)

theorem collect_textReply (wall : Int) (toUser fromUser content : String) :
    collect ∅ none ((wrap "xml".toList (textReply wall toUser fromUser content)).filterMap
      tokenEvent) = .ok (textReplyBag wall toUser fromUser content) := by
  have plain : lastSection "text" = "text" := (lastSection_eq_iff "text").mpr (by decide)
  rw [events_wrap, String.ofList_toList, collect, if_pos rfl]
  simp only [textReply, List.append_nil, List.filterMap_append, List.append_assoc]
  rw [collect_textField (by decide), collect_textField (by decide),
    collect_numberField (by decide) (by simp only [Table.lookup_insert_eq]; rfl),
    collect_textField (by decide), collect_textField (by decide), plain]
  rfl

theorem parseInbound_textReply (xml : QuickXml) (wall : Int) (toUser fromUser content : String) :
    ∃ extra, parseInbound xml (buildTextReply wall toUser fromUser content) =
      .ok { toUserName := lastSection toUser
            fromUserName := lastSection fromUser
            createTime := toString (currentUnixSecs wall)
            msgType := "text"
            content := some (lastSection content)
            event := none
            eventKey := none
            msgId := none
            extra } := by
  have named : isName "xml".toList = true := by decide
  have events := xml.reads named (content_textReply wall toUser fromUser content)
  rw [parseInbound, buildTextReply_eq, List.append_nil, events, collect_textReply]
  have lookups : ∀ name, (textReplyBag wall toUser fromUser content).lookup name =
      if name = "Content" then some (lastSection content)
      else if name = "MsgType" then some "text"
      else if name = "CreateTime" then some (toString (currentUnixSecs wall))
      else if name = "FromUserName" then some (lastSection fromUser)
      else if name = "ToUserName" then some (lastSection toUser)
      else none := by
    intro name
    simp only [textReplyBag, Table.lookup_insert_eq]
    rfl
  refine ⟨unclassified (textReplyBag wall toUser fromUser content), ?_⟩
  simp [bind, Except.bind, pure, Except.pure, classifyFields, require, lookups]

/-- An envelope round-trips exactly when none of its texts holds an end marker. -/
theorem text_reply_round_trip_iff (xml : QuickXml) (wall : Int)
    (toUser fromUser content : String) :
    (∃ m, parseInbound xml (buildTextReply wall toUser fromUser content) = .ok m ∧
      m.toUserName = toUser ∧ m.fromUserName = fromUser ∧ m.content = some content ∧
      m.msgType = "text") ↔
    ∀ text ∈ [toUser, fromUser, content], ¬ "]]>".toList <:+: text.toList := by
  obtain ⟨extra, parsed⟩ := parseInbound_textReply xml wall toUser fromUser content
  simp only [parsed, Except.ok.injEq, exists_eq_left', Option.some.injEq, lastSection_eq_iff]
  simp

/-- The sections before the last are lost. -/
theorem text_reply_loses_sections :
    ∃ m, parseInbound .plain (buildTextReply 0 "oUser123" "gh_abc" "evil ]]> payload") = .ok m ∧
      m.content = some "> payload" := by
  obtain ⟨extra, parsed⟩ := parseInbound_textReply .plain 0 "oUser123" "gh_abc" "evil ]]> payload"
  have left : lastSection "evil ]]> payload" = "> payload" := by decide
  exact ⟨_, parsed, congrArg some left⟩

end EvoclawPluginWechat
