import EvoclawPluginWechat.Core.Std
import EvoclawPluginWechat.Library.Ascii

/-!
The wire types of `bridge.rs` and the errors of `error.rs`. JSON is a parameter of
the development: `Wire` carries what the bridge relies on, that a serialized message
holds no newline byte. `serdeJson` is an instance of it.
-/
namespace EvoclawPluginWechat

inductive PluginError
  | badXml (text : String)
  | decryptFailed (text : String)
  | encryptFailed (text : String)
  | backend (text : String)
  | config (text : String)
  | io (text : String)
  deriving DecidableEq

inductive ChannelKind
  | custom (name : String)
  deriving DecidableEq

def ChannelKind.wechat : ChannelKind := .custom "wechat"

structure InboundMessage where
  channel : ChannelKind
  conversationId : String
  senderId : String
  senderName : Option String
  mentionsSelf : Bool
  text : String
  receivedAtMs : Int
  deriving DecidableEq

structure OutboundMessage where
  conversationId : String
  text : String
  deriving DecidableEq

/-- The byte `b"\n"`. -/
def newlineByte : UInt8 := 10

structure Wire where
  serialize : InboundMessage → List UInt8
  newline_free : ∀ m, newlineByte ∉ serialize m
  /-- `serde_json::from_str::<OutboundMessage>`. -/
  decode : String → Option OutboundMessage

/-- The JSON escape of one character: quote, backslash and the control characters. -/
def escapeChar (c : Char) : List Char :=
  if c = '"' then ['\\', '"']
  else if c = '\\' then ['\\', '\\']
  else if c.toNat = 8 then ['\\', 'b']
  else if c.toNat = 9 then ['\\', 't']
  else if c.toNat = 10 then ['\\', 'n']
  else if c.toNat = 12 then ['\\', 'f']
  else if c.toNat = 13 then ['\\', 'r']
  else if c.toNat < 32 then
    ['\\', 'u', '0', '0', Nat.digitChar (c.toNat / 16), Nat.digitChar (c.toNat % 16)]
  else [c]

def jsonString (s : String) : List Char := '"' :: (s.toList.flatMap escapeChar ++ ['"'])

def jsonInt (z : Int) : List Char :=
  if z < 0 then '-' :: Nat.toDigits 10 z.natAbs else Nat.toDigits 10 z.natAbs

def jsonFields : List (String × List Char) → List Char
  | [] => []
  | [(k, v)] => jsonString k ++ ':' :: v
  | (k, v) :: rest => jsonString k ++ ':' :: v ++ ',' :: jsonFields rest

def jsonObject (fields : List (String × List Char)) : List Char :=
  '\x7b' :: (jsonFields fields ++ ['\x7d'])

def ChannelKind.json : ChannelKind → List Char
  | .custom name => jsonObject [("Custom", jsonString name)]

def InboundMessage.json (m : InboundMessage) : List Char :=
  jsonObject [
    ("channel", m.channel.json),
    ("conversation_id", jsonString m.conversationId),
    ("sender_id", jsonString m.senderId),
    ("sender_name", m.senderName.elim "null".toList jsonString),
    ("mentions_self", (if m.mentionsSelf then "true" else "false").toList),
    ("text", jsonString m.text),
    ("received_at_ms", jsonInt m.receivedAtMs)]

def utf8 (cs : List Char) : List UInt8 := cs.flatMap String.utf8EncodeChar

theorem notMem_utf8 {cs : List Char} {d : Char} (hd : d.val.toNat < 128) (h : d ∉ cs) :
    UInt8.ofNat d.val.toNat ∉ utf8 cs := by
  intro hmem
  obtain ⟨c, hc, hb⟩ := List.mem_flatMap.mp hmem
  exact Ascii.notMem_utf8EncodeChar hd (fun same => h (same ▸ hc)) hb

theorem newline_notMem_utf8 {cs : List Char} (h : '\n' ∉ cs) : newlineByte ∉ utf8 cs :=
  notMem_utf8 (by decide) h

theorem newline_notMem_escapeChar (c : Char) : '\n' ∉ escapeChar c := by
  have digit : ∀ n, n < 16 → '\n' ≠ Nat.digitChar n := by decide
  simp only [escapeChar]
  split
  · decide
  split
  · decide
  split
  · decide
  split
  · decide
  split
  · decide
  split
  · decide
  split
  · decide
  split
  · have high := digit (c.toNat / 16) (by omega)
    have low := digit (c.toNat % 16) (by omega)
    simp [high, low]
  · next notLine _ _ _ =>
      rw [List.mem_singleton]
      intro same
      exact notLine (same ▸ rfl)

theorem newline_notMem_jsonString (s : String) : '\n' ∉ jsonString s := by
  simp only [jsonString, List.mem_cons, List.mem_append, List.mem_flatMap, List.not_mem_nil,
    or_false, not_or, not_exists, not_and]
  exact ⟨by decide, fun c _ => newline_notMem_escapeChar c, by decide⟩

theorem newline_notMem_jsonInt (z : Int) : '\n' ∉ jsonInt z := by
  have digits : '\n' ∉ Nat.toDigits 10 z.natAbs := by
    intro h
    have := Nat.isDigit_of_mem_toDigits (by decide) (by decide) h
    revert this
    decide
  simp only [jsonInt]
  split
  · simp [digits]
  · exact digits

theorem newline_notMem_jsonFields (fields : List (String × List Char))
    (h : ∀ f ∈ fields, '\n' ∉ f.2) : '\n' ∉ jsonFields fields := by
  induction fields with
  | nil => exact List.not_mem_nil
  | cons f rest ih =>
      have value := h f List.mem_cons_self
      have key := newline_notMem_jsonString f.1
      cases rest with
      | nil => simp [jsonFields, key, value]
      | cons g rest =>
          have tail := ih fun f' hf' => h f' (List.mem_cons_of_mem _ hf')
          simp [jsonFields, key, value] at tail ⊢
          exact tail

theorem newline_notMem_jsonObject (fields : List (String × List Char))
    (h : ∀ f ∈ fields, '\n' ∉ f.2) : '\n' ∉ jsonObject fields := by
  simp [jsonObject, newline_notMem_jsonFields fields h]

theorem newline_notMem_json (m : InboundMessage) : '\n' ∉ m.json := by
  refine newline_notMem_jsonObject _ ?_
  have channel : '\n' ∉ m.channel.json := by
    cases m.channel with
    | custom name =>
        refine newline_notMem_jsonObject _ ?_
        simp only [List.forall_mem_singleton]
        exact newline_notMem_jsonString name
  have name : '\n' ∉ m.senderName.elim "null".toList jsonString := by
    cases m.senderName with
    | none => decide
    | some s => exact newline_notMem_jsonString s
  have mentions : '\n' ∉ (if m.mentionsSelf then "true" else "false").toList := by
    cases m.mentionsSelf <;> decide
  simp only [List.forall_mem_cons, List.not_mem_nil, false_implies, implies_true, and_true]
  exact ⟨channel, newline_notMem_jsonString _, newline_notMem_jsonString _, name, mentions,
    newline_notMem_jsonString _, newline_notMem_jsonInt _⟩

/-- Drop an expected beginning. -/
def expect : List Char → List Char → Option (List Char)
  | [], cs => some cs
  | x :: xs, c :: cs => if x = c then expect xs cs else none
  | _ :: _, [] => none

/-- The reply in the compact form `serde_json` writes, when its two strings need no
escape. -/
def decodePlain (line : String) : Option OutboundMessage :=
  let plain := fun c : Char => !(c == '"' || c == '\\' || c.toNat < 32)
  (expect "\x7b\"conversation_id\":\"".toList line.toList).bind fun cs =>
    (expect "\",\"text\":\"".toList (cs.dropWhile plain)).bind fun ds =>
      if ds.dropWhile plain = "\"\x7d".toList then
        some ⟨String.ofList (cs.takeWhile plain), String.ofList (ds.takeWhile plain)⟩
      else none

def serdeJson : Wire where
  serialize m := utf8 m.json
  newline_free m := newline_notMem_utf8 (newline_notMem_json m)
  decode := decodePlain

/-- The reply in that form. -/
def plainReply (conversationId text : String) : String :=
  "\x7b\"conversation_id\":\"" ++ conversationId ++ "\",\"text\":\"" ++ text ++ "\"\x7d"

example : serdeJson.decode (plainReply "wx-a-u" "hi") = some ⟨"wx-a-u", "hi"⟩ := by decide

end EvoclawPluginWechat
