import EvoclawPluginWechat.Core.Webhook
import EvoclawPluginWechat.Core.WechatRouter
import EvoclawPluginWechat.Library.Runs

/-!
`compute_text_payload`: the reply to one text message, from the reply cache, the intent layer
or the bridge, with the questions it puts to a bridge on the way. What becomes of those
questions is given; other requests use the caches while it waits for the answers.
-/
namespace EvoclawPluginWechat
open Transition Webhook

/-- What a message meets on its way. -/
structure Surroundings where
  /-- The wall clock, when the message is classified. -/
  wall : Int
  classifier : Exchange
  snapshot : Option DigestSnapshot
  today : NaiveDate
  /-- What comes of the question itself. -/
  bridge : Exchange

/-- As `run_server` makes it. -/
def aiClassifier (intent : IntentCfg) : Option AiClassifier :=
  if intent.enabled && intent.aiFallback then some (.new intent.aiPromptOverride) else none

section
variable (crates : TextCrates) (cfg : Config)

def classifyIntent (userMsg : String) (w : Surroundings) : Outcome Intent × List AskCall :=
  match Dict.classify crates userMsg cfg.intent.dict with
  | some i => (.returned i, [])
  | none =>
      if cfg.intent.aiFallback then
        match aiClassifier cfg.intent with
        | some ai => ai.classify crates userMsg w.wall w.classifier
        | none => (.returned .unknown, [])
      else (.returned .unknown, [])

def askWithTimeout (cid openid text : String) (exchange : Exchange) : String × List AskCall :=
  let answer :=
    match exchange with
    | .asked (some (.ok reply)) => if isBlank reply then cfg.reply.fallback else reply
    | _ => cfg.reply.fallback
  (answer, exchange.calls ⟨cid, openid, text⟩)

/-- Intent and router. -/
def computeReply (userMsg : String) (w : Surroundings) :
    Outcome WechatRouter.Reply × List AskCall :=
  if cfg.intent.enabled then
    match classifyIntent crates cfg userMsg w with
    | (.panicked, asks) => (.panicked, asks)
    | (.returned intent, asks) =>
        (WechatRouter.route crates.parseDate intent w.snapshot cfg.router w.today, asks)
  else (.returned .fallbackToLlm, [])

/-- The payload, with the bridge asked where the router leaves the answer to it. -/
def computePayload (cid fromUser userMsg : String) (w : Surroundings) :
    Outcome Webhook.ReplyPayload × List AskCall :=
  match computeReply crates cfg userMsg w with
  | (.panicked, asks) => (.panicked, asks)
  | (.returned (.text s), asks) => (.returned (.text (capReplyText s cfg.reply.maxChars)), asks)
  | (.returned (.news article), asks) => (.returned (.news article), asks)
  | (.returned .fallbackToLlm, asks) =>
      let answer := askWithTimeout cfg cid fromUser userMsg w.bridge
      (.returned (.text (capReplyText answer.1 cfg.reply.maxChars)), asks ++ answer.2)

/-- A call that has come to its end, with the questions it asked. -/
structure Delivery where
  payload : Outcome Webhook.ReplyPayload
  asks : List AskCall
  after : CacheRun

/-- The lookup at the head of the call. -/
def lookupPayload (s : CacheRun) : Option String → Outcome (Option String) × CacheRun
  | none => (.returned none, s)
  | some key =>
      let found := lookupCachedReply s.caches.reply s.now key
      (found.1, { s with caches.reply := found.2 })

/-- Only a text is stored. -/
def storePayload (s : CacheRun) (key : Option String) (payload : Webhook.ReplyPayload)
    (asks : List AskCall) : Delivery :=
  match key, payload with
  | some key, .text text =>
      let stored := storeReply s.caches.reply s.now s.now key text
      let after := { s with caches.reply := stored.2 }
      match stored.1 with
      | .panicked => ⟨.panicked, asks, after⟩
      | .returned () => ⟨.returned payload, asks, after⟩
  | _, _ => ⟨.returned payload, asks, s⟩

/-- `others` is what happens to the caches between the lookup and the store. -/
def computeTextPayload (s : CacheRun) (cid fromUser userMsg : String) (msgId : Option String)
    (w : Surroundings) (others : List CacheRun.Act) : Option Delivery :=
  let key := cacheKey fromUser msgId
  match lookupPayload s key with
  | (.panicked, s') => some ⟨.panicked, [], s'⟩
  | (.returned (some cached), s') => some ⟨.returned (.text cached), [], s'⟩
  | (.returned none, s') =>
      (exec CacheRun.step s' others).map fun m =>
        match computePayload crates cfg cid fromUser userMsg w with
        | (.panicked, asks) => ⟨.panicked, asks, m⟩
        | (.returned payload, asks) => storePayload m key payload asks

end
end EvoclawPluginWechat
