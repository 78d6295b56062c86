import EvoclawPluginWechat.Core.Wire
import EvoclawPluginWechat.Library.Table
import EvoclawPluginWechat.Library.Xml

/-!
`wechat/xml.rs`: the message envelopes. The event reader is a parameter of the
development: `QuickXml` carries what the plugin relies on, the events of a document whose
tags have no attributes and whose text has no references.
-/
namespace EvoclawPluginWechat
open Xml

/-- What `read_event` reports before the end of the document. -/
inductive XmlEvent
  | start (name : String)
  /-- With what `unescape` makes of the text. -/
  | text (unescaped : Option String)
  | cdata (content : String)
  | «end»
  | other
  | error (text : String)

/-- XML white space, which `trim_text` takes off a text. -/
def isXmlSpace (c : Char) : Bool := c == ' ' || c == '\t' || c == '\r' || c == '\n'

def trimText (cs : List Char) : List Char :=
  ((cs.dropWhile isXmlSpace).reverse.dropWhile isXmlSpace).reverse

/-- A text that is nothing but white space makes no event. -/
def tokenEvent : Token → Option XmlEvent
  | .opening name => some (.start (String.ofList name))
  | .closing _ => some .end
  | .cdata cs => some (.cdata (String.ofList cs))
  | .text cs => if trimText cs = [] then none else some (.text (some (String.ofList (trimText cs))))

/-- `Reader::from_str` with `trim_text(true)`. -/
structure QuickXml where
  events : String → List XmlEvent
  reads : ∀ {name s ts es}, isName name = true → Content ts s es →
    events (String.ofList (render (wrap name ts))) = (wrap name ts).filterMap tokenEvent

/-- A reader of these documents and no others. -/
def QuickXml.plain : QuickXml where
  events document := (lex document.toList).elim [.error "syntax error"] (List.filterMap tokenEvent)
  reads named content := by
    rw [String.toList_ofList, wrap, lex_content (.element named content .nil)]
    rfl

structure InboundXml where
  toUserName : String
  fromUserName : String
  createTime : String
  msgType : String
  content : Option String
  event : Option String
  eventKey : Option String
  msgId : Option String
  extra : Table String String

/-- The loop of `parse_inbound` over the events that are left. -/
def collect (bag : Table String String) (current : Option String) :
    List XmlEvent → Except PluginError (Table String String)
  | [] => .ok bag
  | .start name :: es =>
      if name = "xml" then collect bag current es else collect bag (some name) es
  | .text unescaped :: es =>
      match current with
      | some name =>
          -- `or_insert`: the first text of an element stays
          let value := unescaped.getD ""
          collect (if (bag.lookup name).isSome then bag else bag.insert name value) current es
      | none => collect bag current es
  | .cdata content :: es =>
      match current with
      | some name => collect (bag.insert name content) current es
      | none => collect bag current es
  | .end :: es => collect bag none es
  | .other :: es => collect bag current es
  | .error text :: _ => .error (.badXml text)

def require (bag : Table String String) (name : String) : Except PluginError String :=
  match bag.lookup name with
  | some value => .ok value
  | none => .error (.badXml ("missing <" ++ name ++ ">"))

def knownFields : List String :=
  ["ToUserName", "FromUserName", "CreateTime", "MsgType", "Content", "Event", "EventKey", "MsgId"]

/-- What is left in the bag when the known fields are taken out. -/
def unclassified (bag : Table String String) : Table String String :=
  bag.retain fun name _ => !knownFields.contains name

def classifyFields (bag : Table String String) : Except PluginError InboundXml := do
  let toUserName ← require bag "ToUserName"
  let fromUserName ← require bag "FromUserName"
  let createTime ← require bag "CreateTime"
  let msgType ← require bag "MsgType"
  return {
    toUserName, fromUserName, createTime, msgType
    content := bag.lookup "Content"
    event := bag.lookup "Event"
    eventKey := bag.lookup "EventKey"
    msgId := bag.lookup "MsgId"
    extra := unclassified bag }

def parseInbound (xml : QuickXml) (document : String) : Except PluginError InboundXml := do
  let bag ← collect ∅ none (xml.events document)
  classifyFields bag

/-- `s.replace("]]>", "]]]]><![CDATA[>")`. -/
def escapeCdata (s : String) : String :=
  String.ofList (Pattern.replace "]]>".toList "]]]]><![CDATA[>".toList s.toList)

/-- At a reading of the wall clock. -/
def buildTextReply (wall : Int) (toUser fromUser content : String) : String :=
  "<xml>" ++
  "<ToUserName><![CDATA[" ++ escapeCdata toUser ++ "]]></ToUserName>" ++
  "<FromUserName><![CDATA[" ++ escapeCdata fromUser ++ "]]></FromUserName>" ++
  "<CreateTime>" ++ toString (currentUnixSecs wall) ++ "</CreateTime>" ++
  "<MsgType><![CDATA[text]]></MsgType>" ++
  "<Content><![CDATA[" ++ escapeCdata content ++ "]]></Content>" ++
  "</xml>"

structure NewsArticle where
  title : String
  description : String
  picUrl : String
  url : String

def NewsArticle.item (a : NewsArticle) : String :=
  "<item>" ++
  "<Title><![CDATA[" ++ escapeCdata a.title ++ "]]></Title>" ++
  "<Description><![CDATA[" ++ escapeCdata a.description ++ "]]></Description>" ++
  "<PicUrl><![CDATA[" ++ escapeCdata a.picUrl ++ "]]></PicUrl>" ++
  "<Url><![CDATA[" ++ escapeCdata a.url ++ "]]></Url>" ++
  "</item>"

def buildNewsReply (wall : Int) (toUser fromUser : String) (articles : List NewsArticle) :
    String :=
  let items := articles.foldl (fun items a => items ++ a.item) ""
  "<xml>" ++
  "<ToUserName><![CDATA[" ++ escapeCdata toUser ++ "]]></ToUserName>" ++
  "<FromUserName><![CDATA[" ++ escapeCdata fromUser ++ "]]></FromUserName>" ++
  "<CreateTime>" ++ toString (currentUnixSecs wall) ++ "</CreateTime>" ++
  "<MsgType><![CDATA[news]]></MsgType>" ++
  "<ArticleCount>" ++ toString articles.length ++ "</ArticleCount>" ++
  "<Articles>" ++ items ++ "</Articles>" ++
  "</xml>"

end EvoclawPluginWechat
