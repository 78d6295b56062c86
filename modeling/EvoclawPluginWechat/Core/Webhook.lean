import EvoclawPluginWechat.Core.Caches
import EvoclawPluginWechat.Core.Config
import EvoclawPluginWechat.Core.Wxml

/-!
The two routes of `handler.rs`. A request is admitted by the replay check and by the
signature of its mode; what `compute_text_payload` answers to a text is a parameter here.
-/
namespace EvoclawPluginWechat

structure WebhookQuery where
  signature : Option String
  timestamp : Option String
  nonce : Option String
  echostr : Option String
  msgSignature : Option String
  deriving DecidableEq

/-- With the `Content-Type` that the handler sets itself. -/
structure Response where
  status : Nat
  contentType : Option String := none
  body : String
  deriving DecidableEq

structure HandlerState where
  cfg : Config
  aesKey : Option AesKey
  nonceCache : NonceCache

namespace Webhook
variable (crates : CryptoCrates)

def verifyUrl (state : HandlerState) (q : WebhookQuery) : Response :=
  match q.signature, q.timestamp, q.nonce, q.echostr with
  | some sig, some ts, some nonce, some echo =>
      let expected := Signature.plainSignature crates state.cfg.wechat.token ts nonce
      if Signature.verify expected sig then ⟨200, none, echo⟩
      else ⟨403, none, "signature mismatch"⟩
  | _, _, _, _ => ⟨400, none, "missing signature/timestamp/nonce/echostr"⟩

def openTag : List Char := ['<', 'E', 'n', 'c', 'r', 'y', 'p', 't', '>']
def openTagSpace : List Char := ['<', 'E', 'n', 'c', 'r', 'y', 'p', 't', ' ']
def closeTag : List Char := ['<', '/', 'E', 'n', 'c', 'r', 'y', 'p', 't', '>']

/-- What is between the CDATA markers, where the text starts and ends with them. -/
def stripCdata (inner : List Char) : List Char :=
  ((inner.dropPrefix? ('<' :: Xml.cdataStart)).bind fun s => s.dropSuffix? Xml.cdataEnd).getD inner

def extractEncryptElement (xml : String) : Except String String :=
  let cs := xml.toList
  match (Pattern.find openTag cs).or (Pattern.find openTagSpace cs), Pattern.find closeTag cs with
  | some start, some «end» =>
      match Pattern.find ['>'] (cs.drop start) with
      | none => .error "malformed <Encrypt>"
      | some i =>
          let afterOpen := i + start + 1
          if afterOpen > «end» then .error "inverted Encrypt tags"
          else
            let inner := trim ((cs.take «end»).drop afterOpen)
            .ok (String.ofList (trim (stripCdata inner)))
  | _, _ => .error "no <Encrypt> tags"

/-- What one reply reads from the clock and draws at random. -/
structure ReplyDraws where
  /-- The wall clock when the reply is built. -/
  built : Int
  random : AesBlock
  /-- The wall clock when the envelope is built. -/
  wrapped : Int
  nonce : UInt64

/-- `{:016x}`. -/
def hex16 (n : UInt64) : String :=
  String.ofList ((List.range 16).reverse.map fun i => Nat.digitChar (n.toNat / 16 ^ i % 16))

def wrapEncryptedEnvelope (state : HandlerState) (draws : ReplyDraws) (innerXml : String) :
    Except PluginError String :=
  match state.aesKey with
  | none => .error (.encryptFailed "aes key not loaded")
  | some aesKey => do
      let encrypt ← Crypto.encrypt crates draws.random innerXml aesKey state.cfg.wechat.appId
      let ts := toString (currentUnixSecs draws.wrapped)
      let nonce := hex16 draws.nonce
      let sig := Signature.msgSignature crates state.cfg.wechat.token ts nonce encrypt
      .ok ("<xml>" ++
        "<Encrypt><![CDATA[" ++ encrypt ++ "]]></Encrypt>" ++
        "<MsgSignature><![CDATA[" ++ sig ++ "]]></MsgSignature>" ++
        "<TimeStamp>" ++ ts ++ "</TimeStamp>" ++
        "<Nonce><![CDATA[" ++ nonce ++ "]]></Nonce>" ++
        "</xml>")

/-- What `handle_message` does with a request before the message in it is looked at. -/
inductive Decision
  | rejected (response : Response)
  | dispatched (xml : String) (isEncrypted : Bool)
  deriving DecidableEq

/-- The arm of the encrypted modes in the match below. -/
def decodeEncrypted (state : HandlerState) (q : WebhookQuery) (ts nonce body : String) :
    Decision :=
  let wechat := state.cfg.wechat
  match extractEncryptElement body with
  | .error _ =>
      let plain := wechat.encryptMode = .compatible ∧ q.signature.any fun sig =>
        Signature.verify (Signature.plainSignature crates wechat.token ts nonce) sig
      if plain then .dispatched body false
      else .rejected ⟨400, none, "no encrypt element"⟩
  | .ok encrypt =>
      match q.msgSignature with
      | none => .rejected ⟨400, none, "missing msg_signature"⟩
      | some msgSig =>
          let expected := Signature.msgSignature crates wechat.token ts nonce encrypt
          if Signature.verify expected msgSig then
            match state.aesKey with
            | none => .rejected ⟨500, none, "encrypted mode requested but aes key not loaded"⟩
            | some aesKey =>
                match Crypto.decrypt crates encrypt aesKey wechat.appId with
                | .ok xml => .dispatched xml true
                | .error _ => .rejected ⟨400, none, "decrypt failed"⟩
          else .rejected ⟨403, none, "signature mismatch"⟩

/-- The step "Decode body — plain vs encrypted" of `handle_message`. -/
def decodeBody (state : HandlerState) (q : WebhookQuery) (ts nonce body : String) : Decision :=
  match state.cfg.wechat.encryptMode with
  | .plain =>
      match q.signature with
      | none => .rejected ⟨400, none, "missing signature"⟩
      | some sig =>
          let expected := Signature.plainSignature crates state.cfg.wechat.token ts nonce
          if Signature.verify expected sig then .dispatched body false
          else .rejected ⟨403, none, "signature mismatch"⟩
  | .compatible | .safe => decodeEncrypted crates state q ts nonce body

/-- The clock readings of `check_replay`. -/
structure Readings where
  wall : Int
  cutoffNow : Int
  insertNow : Int

/-- `handle_message` up to the call of `dispatch_and_reply`. -/
def screen (state : HandlerState) (readings : Readings) (q : WebhookQuery) (body : String) :
    Outcome Decision × NonceCache :=
  match q.timestamp, q.nonce with
  | some ts, some nonce =>
      match checkReplay state.nonceCache readings.wall readings.cutoffNow readings.insertNow
          ts nonce with
      | (.panicked, cache) => (.panicked, cache)
      | (.returned (.error _), cache) =>
          (.returned (.rejected ⟨403, none, "replay rejected"⟩), cache)
      | (.returned (.ok ()), cache) =>
          (.returned (decodeBody crates state q ts nonce body), cache)
  | _, _ => (.returned (.rejected ⟨400, none, "missing timestamp/nonce"⟩), state.nonceCache)

inductive ReplyPayload
  | text (s : String)
  | news (article : NewsArticle)

def capReplyText (text : String) (maxChars : Nat) : String :=
  if maxChars = 0 then text
  else if text.toList.length ≤ maxChars then text
  else String.ofList (text.toList.take (maxChars - 1)) ++ "…"

/-- What `compute_text_payload` answers to a message of this user, given its id. -/
abbrev ComputeText := (fromUser userMsg : String) → (msgId : Option String) → ReplyPayload

def payload (cfg : Config) (computeText : ComputeText) (inbound : InboundXml) :
    Option ReplyPayload :=
  if inbound.msgType = "text" then
    let userMsg := inbound.content.getD ""
    if isBlank userMsg then none
    else some (computeText inbound.fromUserName userMsg inbound.msgId)
  else if inbound.msgType = "event" then
    if inbound.event.getD "" = "subscribe" ∧ cfg.reply.welcome ≠ "" then
      some (.text (capReplyText cfg.reply.welcome cfg.reply.maxChars))
    else if cfg.reply.echoUnknownEvent then
      some (.text (capReplyText cfg.reply.fallback cfg.reply.maxChars))
    else none
  else none

def plainXml (built : Int) (fromUser toUser : String) : ReplyPayload → String
  | .text s => buildTextReply built fromUser toUser s
  | .news article => buildNewsReply built fromUser toUser [article]

def dispatchAndReply (xmlReader : QuickXml) (computeText : ComputeText) (state : HandlerState)
    (draws : ReplyDraws) (xml : String) (isEncrypted : Bool) : Response :=
  match parseInbound xmlReader xml with
  | .error _ => ⟨400, none, "bad xml"⟩
  | .ok inbound =>
      match payload state.cfg computeText inbound with
      | none => ⟨200, none, ""⟩
      | some reply =>
          let plain := plainXml draws.built inbound.fromUserName inbound.toUserName reply
          let body :=
            if isEncrypted then
              match wrapEncryptedEnvelope crates state draws plain with
              | .ok envelope => envelope
              | .error _ => plain
            else plain
          ⟨200, some "application/xml; charset=utf-8", body⟩

def handleMessage (xmlReader : QuickXml) (computeText : ComputeText) (state : HandlerState)
    (readings : Readings) (draws : ReplyDraws) (q : WebhookQuery) (body : String) :
    Outcome Response × NonceCache :=
  match screen crates state readings q body with
  | (.panicked, cache) => (.panicked, cache)
  | (.returned (.rejected response), cache) => (.returned response, cache)
  | (.returned (.dispatched xml isEncrypted), cache) =>
      (.returned (dispatchAndReply crates xmlReader computeText state draws xml isEncrypted), cache)

end Webhook
end EvoclawPluginWechat
