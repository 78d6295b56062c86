import EvoclawPluginWechat.Core.ConfiguredPlugin
import EvoclawPluginWechat.Core.WebhookRun

/-!
`handle_message` for any number of requests at once. A request is admitted and decoded in one
step, with the lock of the nonce cache; a text goes through the plugin, with all the others that
are under way, and the response is written when its turn has ended.
-/
namespace EvoclawPluginWechat

/-- The text that is left to `compute_text_payload`. -/
def InboundXml.userMsg (inbound : InboundXml) : Option String :=
  if inbound.msgType = "text" ∧ isBlank (inbound.content.getD "") = false then
    some (inbound.content.getD "")
  else none

/-- With the article where the reply is a card. -/
def ReplyPayload.withArticle (article : NewsArticle) : ReplyPayload → Webhook.ReplyPayload
  | .text s => .text s
  | .news => .news article

namespace Webhook

/-- The payload of a message that is not left to `compute_text_payload`. -/
def eventPayload (cfg : Config) (inbound : InboundXml) : Option ReplyPayload :=
  if inbound.msgType = "event" then
    if inbound.event.getD "" = "subscribe" ∧ cfg.reply.welcome ≠ "" then
      some (.text (capReplyText cfg.reply.welcome cfg.reply.maxChars))
    else if cfg.reply.echoUnknownEvent then
      some (.text (capReplyText cfg.reply.fallback cfg.reply.maxChars))
    else none
  else none

/-- The end of `dispatch_and_reply`. -/
def finish (crates : CryptoCrates) (state : HandlerState) (draws : ReplyDraws)
    (inbound : InboundXml) (isEncrypted : Bool) : Option ReplyPayload → Response
  | none => ⟨200, none, ""⟩
  | some reply =>
      let plain := plainXml draws.built inbound.fromUserName inbound.toUserName reply
      let body :=
        if isEncrypted then
          match wrapEncryptedEnvelope crates state draws plain with
          | .ok envelope => envelope
          | .error _ => plain
        else plain
      ⟨200, some "application/xml; charset=utf-8", body⟩

end Webhook

structure Handler (n : Nat) where
  plugin : Plugin n
  nonceCache : NonceCache
  /-- The requests, as they came. -/
  posts : TaskId → Option Post
  /-- The messages whose text the plugin has, with whether they were decrypted. -/
  texts : TaskId → Option (InboundXml × Bool)
  responses : TaskId → Option Response

namespace Handler
open Webhook

inductive Act
  | post (t : TaskId) (q : WebhookQuery) (body : String) (draws : ReplyDraws)
  | respond (t : TaskId) (article : NewsArticle) (draws : ReplyDraws)
  | plugin (a : Plugin.Act)
  /-- The nonce half of `gc_caches`. -/
  | gcNonces

variable {n : Nat} [NeZero n]

def new : Handler n where
  plugin := .new
  nonceCache := .new ∅
  posts _ := none
  texts _ := none
  responses _ := none

def respond (s : Handler n) (t : TaskId) (response : Response) : Handler n :=
  { s with responses := Function.update s.responses t (some response) }

section
variable (crates : CryptoCrates) (xmlReader : QuickXml) (W : Wire) (cfg : Config)
  (aesKey : Option AesKey)

def state (s : Handler n) : HandlerState := ⟨cfg, aesKey, s.nonceCache⟩

/-- `dispatch_and_reply` up to the call of `compute_text_payload`, or to its end. -/
def dispatch (s : Handler n) (t : TaskId) (xml : String) (isEncrypted : Bool)
    (draws : ReplyDraws) : Option (Handler n) :=
  match parseInbound xmlReader xml with
  | .error _ => some (s.respond t ⟨400, none, "bad xml"⟩)
  | .ok inbound =>
      match inbound.userMsg with
      | some userMsg =>
          (s.plugin.step W (handlerCfg cfg)
            (.receive t inbound.fromUserName userMsg inbound.msgId)).map fun plugin =>
              { s with plugin, texts := Function.update s.texts t (some (inbound, isEncrypted)) }
      | none => some (s.respond t
          (finish crates (s.state cfg aesKey) draws inbound isEncrypted (eventPayload cfg inbound)))

def step (s : Handler n) : Act → Option (Handler n)
  | .post t q body draws =>
      match s.posts t with
      | some _ => none
      | none =>
          let now := s.plugin.now
          let screened := screen crates (s.state cfg aesKey) ⟨s.plugin.wall, now, now⟩ q body
          let s := { s with
            nonceCache := screened.2
            posts := Function.update s.posts t (some ⟨s.plugin.wall, 0, q, body⟩) }
          match screened.1 with
          -- the connection is closed without an answer
          | .panicked => some s
          | .returned (.rejected response) => some (s.respond t response)
          | .returned (.dispatched xml isEncrypted) =>
              s.dispatch crates xmlReader W cfg aesKey t xml isEncrypted draws
  | .respond t article draws =>
      match s.texts t, s.responses t, s.plugin.requests t with
      | some (inbound, isEncrypted), none, some ⟨_, _, _, .finished (some reply)⟩ =>
          some (s.respond t (finish crates (s.state cfg aesKey) draws inbound isEncrypted
            (some (reply.withArticle article))))
      | _, _, _ => none
  -- a message is received through its request
  | .plugin (.receive ..) => none
  | .plugin a => (s.plugin.step W (handlerCfg cfg) a).map fun plugin => { s with plugin }
  | .gcNonces =>
      some { s with nonceCache := (sweepCache s.nonceCache s.plugin.now
        (Duration.fromSecs replayWindowSecs.toNat) id).2 }

end

end Handler

namespace Webhook

theorem payload_eq (cfg : Config) (computeText : ComputeText) (inbound : InboundXml) :
    payload cfg computeText inbound = inbound.userMsg.elim (eventPayload cfg inbound)
      fun userMsg => some (computeText inbound.fromUserName userMsg inbound.msgId) := by
  by_cases text : inbound.msgType = "text"
  · have noEvent : eventPayload cfg inbound = none := if_neg (by rw [text]; decide)
    rw [payload, if_pos text, InboundXml.userMsg]
    cases blank : isBlank (inbound.content.getD "") with
    | true => simp [blank, noEvent]
    | false => simp [blank, text]
  · have noText : inbound.userMsg = none := if_neg fun both => text both.1
    rw [payload, if_neg text, noText]
    rfl

/-- The two halves make up the function. -/
theorem dispatchAndReply_eq (crates : CryptoCrates) (xmlReader : QuickXml)
    (computeText : ComputeText) (state : HandlerState) (draws : ReplyDraws) (xml : String)
    (isEncrypted : Bool) :
    dispatchAndReply crates xmlReader computeText state draws xml isEncrypted =
      match parseInbound xmlReader xml with
      | .error _ => ⟨400, none, "bad xml"⟩
      | .ok inbound =>
          finish crates state draws inbound isEncrypted
            (payload state.cfg computeText inbound) := by
  rw [dispatchAndReply]
  cases parseInbound xmlReader xml with
  | error e => rfl
  | ok inbound =>
      dsimp only
      cases payload state.cfg computeText inbound with
      | none => rfl
      | some reply => rfl

end Webhook
end EvoclawPluginWechat
