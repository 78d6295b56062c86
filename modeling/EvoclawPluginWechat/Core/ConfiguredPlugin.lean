import EvoclawPluginWechat.Core.Plugin
import EvoclawPluginWechat.Core.TextPayload

/-!
The plugin under its configuration. Whether a request has its message classified, and what the
router then answers, is as `compute_text_payload` has it; what has come of the questions to a
bridge is read off the state.
-/
namespace EvoclawPluginWechat

/-- What the requests take of the configuration. -/
def handlerCfg (cfg : Config) : HandlerCfg where
  appId := cfg.wechat.appId
  fallback := cfg.reply.fallback
  capReplyText text := Webhook.capReplyText text cfg.reply.maxChars
  prompt := (AiClassifier.new cfg.intent.aiPromptOverride).prompt

/-- `classify_intent` is called, and comes to the classifier. -/
def asksClassifier (crates : TextCrates) (cfg : Config) (userMsg : String) : Bool :=
  cfg.intent.enabled && (Dict.classify crates userMsg cfg.intent.dict).isNone &&
    cfg.intent.aiFallback

def Reply.ofRouter : WechatRouter.Reply → Reply
  | .text s => .text s
  | .news _ => .news
  | .fallbackToLlm => .fallbackToLlm

/-- The arguments of the `ask` that sends the message. -/
def InboundMessage.call (m : InboundMessage) : AskCall := ⟨m.conversationId, m.senderId, m.text⟩

namespace Plugin
variable {n : Nat}

/-- What came of a stage of the request, once it is over. -/
def exchange (s : Plugin n) (i : AskId) : Option Exchange :=
  match s.pool.calls i with
  | some (.returned (.ok b)) => (s.askResult b i).map .asked
  | some (.returned (.error _)) => some .noBridge
  | _ => none

/-- The `ask` of a stage, once it is called. -/
def asked (s : Plugin n) (i : AskId) : Option AskCall :=
  match s.pool.calls i with
  | some (.returned (.ok b)) => ((s.workers b).bridge.asks i).map fun a => a.msg.call
  | _ => none

/-- The calls of `ask` a request has made, in their order. -/
def asksMade (s : Plugin n) (t : TaskId) : List AskCall :=
  (s.asked (t, .classify)).toList ++ (s.asked (t, .reply)).toList

/-- The request goes through the intent layer as the configuration says. -/
def configured (crates : TextCrates) (cfg : Config) (s : Plugin n) : Act → Prop
  | .classifyByAi t => ∀ r, s.requests t = some r → asksClassifier crates cfg r.userMsg = true
  | .route t reply => ∀ r classified, s.requests t = some r → r.phase = .routing classified →
      classified = asksClassifier crates cfg r.userMsg ∧
        ∃ (w : Surroundings) (answer : WechatRouter.Reply),
          (classified = true → s.exchange (t, .classify) = some w.classifier) ∧
            (computeReply crates cfg r.userMsg w).1 = .returned answer ∧ reply = .ofRouter answer
  | _ => True

end Plugin
end EvoclawPluginWechat
