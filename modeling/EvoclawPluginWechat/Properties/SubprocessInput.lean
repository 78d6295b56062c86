import EvoclawPluginWechat.Properties.HandlerRuns
import EvoclawPluginWechat.Properties.WireRoundTrip

/-!
From the webhook to the subprocess. What a subprocess reads line by line has come in under the
token's signature, and says what the message says. The signature is over the message's
ciphertext, or, where the message is posted in the clear, over timestamp and nonce only.
-/
namespace EvoclawPluginWechat
open Transition

namespace Webhook

/-- The post is one that the token signed, in a way that the mode takes, and this is its XML. Only
the signature of an encrypted post says anything about the XML. -/
def Signed (crates : CryptoCrates) (cfg : Config) (aesKey : Option AesKey) (p : Post)
    (xml : String) : Prop :=
  ∃ ts nonce, p.query.timestamp = some ts ∧ p.query.nonce = some nonce ∧
    (xml = p.body ∧ PlainSigned crates ⟨cfg, aesKey, .new ∅⟩ p.query ts nonce ∧
        (cfg.wechat.encryptMode = .plain ∨ cfg.wechat.encryptMode = .compatible ∧
          ∃ e, extractEncryptElement p.body = .error e) ∨
      Decrypted crates ⟨cfg, aesKey, .new ∅⟩ p.query ts nonce p.body xml ∧
        (cfg.wechat.encryptMode = .compatible ∨ cfg.wechat.encryptMode = .safe))

end Webhook

namespace Handler
open Webhook
variable {n : Nat} [NeZero n] {crates : CryptoCrates} {xmlReader : QuickXml} {W : Wire}
  {cfg : Config} {aesKey : Option AesKey} {s : Handler n} {t : TaskId}

omit [NeZero n] in
theorem signed_of_dispatches {m : Handler n} {p : Post} {inbound : InboundXml}
    {isEncrypted : Bool} (h : m.Dispatches crates xmlReader cfg aesKey p inbound isEncrypted) :
    ∃ xml, Signed crates cfg aesKey p xml ∧ parseInbound xmlReader xml = .ok inbound := by
  obtain ⟨xml, dispatched, parsed⟩ := h
  obtain ⟨ts, nonce, timestamp, drawn, decoded⟩ := screen_dispatched dispatched
  refine ⟨xml, ⟨ts, nonce, timestamp, drawn, ?_⟩, parsed⟩
  obtain ⟨_, clear⟩ | ⟨_, sealed'⟩ := decodeBody_dispatched decoded
  · exact .inl clear
  · exact .inr sealed'

/-- The plugin cuts no line. -/
def dropsWhole (W : Wire) (s : Handler n) : Act → Prop
  | .plugin b => s.plugin.dropsWhole W b
  | _ => True

/-- The request that wrote the line was signed, and the line says what its message says. -/
def ReadsSigned (crates : CryptoCrates) (xmlReader : QuickXml) (cfg : Config)
    (aesKey : Option AesKey) (s : Handler n) (line : List UInt8) (i : AskId) : Prop :=
  ∃ p xml inbound userMsg msg, s.posts i.1 = some p ∧ Signed crates cfg aesKey p xml ∧
    parseInbound xmlReader xml = .ok inbound ∧ inbound.userMsg = some userMsg ∧
    readInbound line = some msg ∧
    match i.2 with
    | .reply => msg.conversationId = buildConversationId cfg.wechat.appId inbound.fromUserName ∧
        msg.senderId = inbound.fromUserName ∧ msg.text = userMsg
    | .classify => msg.senderId = "intent-classifier" ∧
        msg.text = (AiClassifier.new cfg.intent.aiPromptOverride).prompt userMsg

theorem signed_request {allow : Handler n → Act → Prop} {as : List Act} {r : Request}
    (run : Run (step crates xmlReader W cfg aesKey) allow (new : Handler n) as s)
    (requests : s.plugin.requests t = some r) :
    ∃ p xml inbound, s.posts t = some p ∧ Signed crates cfg aesKey p xml ∧
      parseInbound xmlReader xml = .ok inbound ∧ r.Bears inbound := by
  cases course_run run t with
  | fresh _ _ none' _ | closed _ _ _ none' _ | answered _ _ none' _ _ =>
      cases none'.symm.trans requests
  | turn held _ | replied held _ _ =>
      obtain rfl := Option.some.inj (held.requests.symm.trans requests)
      obtain ⟨xml, signed, parsed⟩ := signed_of_dispatches held.dispatches
      exact ⟨_, xml, _, held.came.posts, signed, parsed, held.bears⟩

/-- Nothing reaches a subprocess but the texts of signed requests, as they were sent. -/
theorem subprocess_reads_signed_texts (reads : ∀ m, readInbound (W.serialize m) = some m)
    (h : Reachable (step crates xmlReader W cfg aesKey) (dropsWhole W) (· = (new : Handler n)) s)
    {b : BridgeId} (alive : s.plugin.alive b = true) :
    List.Forall₂ (s.ReadsSigned crates xmlReader cfg aesKey)
      (Framing.frames newlineByte (s.plugin.workers b).bridge.received)
      (s.plugin.workers b).bridge.completed := by
  obtain ⟨_, as, rfl, run⟩ := h
  have own : ∀ (s : Handler n) b, s.dropsWhole W (.plugin b) → s.plugin.dropsWhole W b :=
    fun _ _ whole => whole
  have pluginRun := plugin_run own (fun _ _ _ _ _ _ h => by cases h) run
  have told := Plugin.told_reachable ⟨_, _, rfl, pluginRun⟩
  refine (told.lines alive).imp fun line i isLine => ?_
  obtain ⟨r, msg, _, requests, _, line, tells⟩ := told.readsBack reads isLine
  obtain ⟨p, xml, inbound, posts, signed, parsed, bears⟩ := signed_request run requests
  refine ⟨p, xml, inbound, r.userMsg, msg, posts, signed, parsed, bears.userMsg, line, ?_⟩
  obtain ⟨t, stage⟩ := i
  cases stage with
  | reply =>
      obtain ⟨ms, rfl⟩ := tells
      exact ⟨congrArg (buildConversationId cfg.wechat.appId) bears.fromUser, bears.fromUser, rfl⟩
  | classify =>
      obtain ⟨_, ms, rfl⟩ := tells
      exact ⟨rfl, rfl⟩

/-- The subprocess reads the text that was signed. -/
theorem subprocess_reads_signed_texts_hi : Config.validate (fun _ => .ok ()) chatCfg = .ok () ∧
    ∀ crates xmlReader (_ : ReplyDraws), ∃ s : Handler 1,
    (s.plugin.workers 0).bridge.completed = [(0, .reply)] ∧
      List.Forall₂ (s.ReadsSigned crates xmlReader chatCfg none)
        (Framing.frames newlineByte (s.plugin.workers 0).bridge.received)
        (s.plugin.workers 0).bridge.completed := by
  refine ⟨rfl, fun crates xmlReader draws => ?_⟩
  have whole : lastSection "hi" = "hi" := by decide
  obtain ⟨s₁, posted, came, _⟩ :=
    step_signedText (n := 1) crates xmlReader serdeJson draws whole (by decide)
  have turn : (execIf (Plugin.step serdeJson (handlerCfg chatCfg))
      (Plugin.dropsWhole serdeJson)
      ((Plugin.new : Plugin 1).setRequest 0 (some ⟨"fan", "hi", none, .dispatched⟩))
      (Plugin.writesTurn serdeJson (handlerCfg chatCfg) 0 "fan" "hi" 0).tail).any
      (fun s => decide (s.alive 0 = true ∧
        (s.workers 0).bridge.completed = [(0, .reply)])) = true := by
    decide +kernel
  obtain ⟨plugin, hturn, hplugin⟩ := (Option.any_eq_true _ _).mp turn
  obtain ⟨alive, completed⟩ := of_decide_eq_true hplugin
  have own : ∀ b ∈ (Plugin.writesTurn serdeJson (handlerCfg chatCfg) 0 "fan" "hi" 0).tail,
      ∀ t u msg id, b ≠ .receive t u msg id := by
    simp [Plugin.writesTurn, Bridge.writesLine]
  have rest : Run (step crates xmlReader serdeJson chatCfg none) (dropsWhole serdeJson) s₁ _
      { s₁ with plugin } :=
    run_of_plugin (fun _ _ whole => whole) own (came ▸ run_of_execIf hturn)
  have reached : Reachable (step crates xmlReader serdeJson chatCfg none)
      (dropsWhole serdeJson) (· = (new : Handler 1)) { s₁ with plugin } := by
    refine ⟨new, _, rfl, .cons ?_ posted rest⟩
    exact trivial
  exact ⟨{ s₁ with plugin }, completed,
    subprocess_reads_signed_texts readInbound_serialize reached alive⟩

end Handler
end EvoclawPluginWechat
