import EvoclawPluginWechat.Properties.RequestRefinement
import EvoclawPluginWechat.Properties.SubprocessInput

/-!
The handler refines `handle_message`. However the requests are interleaved, a response is the one
that `handle_message` by itself gives in the state in which the request came; where the message
is a text, with the payload of one sequential call of `compute_text_payload`.
-/
namespace EvoclawPluginWechat
open Transition

section
variable {texts : TextCrates} {cfg : Config} {cid fromUser userMsg : String} {w w' : Surroundings}
  {article : NewsArticle}

theorem computePayload_news (same : asksClassifier texts cfg userMsg = true →
      w'.classifier = w.classifier)
    (news : (computeReply texts cfg userMsg w').1 = .returned (.news article)) :
    computePayload texts cfg cid fromUser userMsg { w' with wall := w.wall, bridge := w.bridge } =
      (.returned (.news article), (computeReply texts cfg userMsg w).2) := by
  have calls : (computeReply texts cfg userMsg
      { w' with wall := w.wall, bridge := w.bridge }).2 = (computeReply texts cfg userMsg w).2 := by
    rw [computeReply_calls, computeReply_calls]
    split
    · next asks => rw [same asks]
    · rfl
  rw [computePayload_eq, computeReply_of_met, news, calls]

theorem storePayload_news (m : CacheRun) (key : Option String) (asks : List AskCall) :
    storePayload m key (.news article) asks = ⟨.returned (.news article), asks, m⟩ := by
  cases key <;> rfl

theorem storePayload_returned {m : CacheRun} {key : Option String}
    {payload answer : Webhook.ReplyPayload} {asks : List AskCall}
    (h : (storePayload m key payload asks).payload = .returned answer) : payload = answer := by
  unfold storePayload at h
  split at h
  · dsimp only at h
    split at h
    · cases h
    · exact Outcome.returned.inj h
  · exact Outcome.returned.inj h

theorem computeTextPayload_news {s after : CacheRun} {msgId : Option String}
    {others : List CacheRun.Act} {card : NewsArticle} {asks : List AskCall}
    (called : computeTextPayload texts cfg s cid fromUser userMsg msgId w others =
      some ⟨.returned (.news card), asks, after⟩)
    (same : asksClassifier texts cfg userMsg = true → w'.classifier = w.classifier)
    (news : (computeReply texts cfg userMsg w').1 = .returned (.news article)) :
    computeTextPayload texts cfg s cid fromUser userMsg msgId
        { w' with wall := w.wall, bridge := w.bridge } others =
      some ⟨.returned (.news article), asks, after⟩ := by
  rw [computeTextPayload] at called ⊢
  cases looked : lookupPayload s (cacheKey fromUser msgId) with
  | mk found s' =>
  rw [looked] at called
  cases found with
  | panicked => cases called
  | returned cached =>
  cases cached with
  | some text => cases called
  | none =>
      obtain ⟨m, done, delivered⟩ := Option.map_eq_some_iff.mp called
      dsimp only
      rw [done, Option.map_some, computePayload_news same news]
      dsimp only
      rw [storePayload_news]
      rw [computePayload_eq] at delivered
      cases reply : (computeReply texts cfg userMsg w).1 with
      | panicked =>
          rw [reply] at delivered
          cases delivered
      | returned answer =>
          rw [reply] at delivered
          cases answer with
          | text _ | fallbackToLlm =>
              cases storePayload_returned (congrArg Delivery.payload delivered)
          | news _ =>
              dsimp only at delivered
              rw [storePayload_news] at delivered
              cases delivered
              rfl

end

namespace Plugin
variable {n : Nat} [NeZero n]

/-- In this run, which leads to this state, the request has made one call of
`compute_text_payload` that comes to this answer: from the cache as it looked into it, through
what the others did to it meanwhile, to the cache as it left it, with the calls of `ask` that it
made and their outcomes. -/
def CallsOnce (texts : TextCrates) (cfg : Config) (W : Wire) (as : List Act) (s : Plugin n)
    (t : TaskId) (r : Request) (answer : Webhook.ReplyPayload) : Prop :=
  ∃ (start left : Plugin n) (w : Surroundings) (others : List CacheRun.Act),
    Run (step W (handlerCfg cfg)) (configured texts cfg) new as s ∧
    Spans W (handlerCfg cfg) as t start left others ∧
    computeTextPayload texts cfg start.cacheView (r.cid (handlerCfg cfg)) r.fromUser r.userMsg
      r.msgId w others = some ⟨.returned answer, s.asksMade t, left.cacheView⟩ ∧
    (∀ e, s.exchange (t, .classify) = some e → w.classifier = e) ∧
    ∀ e, s.exchange (t, .reply) = some e → w.bridge = e

end Plugin

namespace Handler
open Webhook
variable {n : Nat} [NeZero n] {crates : CryptoCrates} {xmlReader : QuickXml} {texts : TextCrates}
  {W : Wire} {cfg : Config} {aesKey : Option AesKey} {as : List Act} {s s' : Handler n} {a : Act}
  {t : TaskId}

/-- The intent layer is as the configuration has it, and a card is the one of the router. -/
def configured (texts : TextCrates) (cfg : Config) (s : Handler n) : Act → Prop
  | .plugin b => s.plugin.configured texts cfg b
  | .respond t article _ => ∀ r, s.plugin.requests t = some r → r.phase = .finished (some .news) →
      ∃ w : Surroundings, (asksClassifier texts cfg r.userMsg = true →
          s.plugin.exchange (t, .classify) = some w.classifier) ∧
        (computeReply texts cfg r.userMsg w).1 = .returned (.news article)
  | _ => True

theorem exchange_step {i : AskId} {e : Exchange}
    (ended : s.plugin.exchange i = some e)
    (h : s.step crates xmlReader W cfg aesKey a = some s') : s'.plugin.exchange i = some e := by
  obtain ⟨_, same⟩ | ⟨b, _, hb, _⟩ := plugin_of_step h
  · exact same ▸ ended
  · exact Plugin.exchange_after hb ended

/-- The answer of a turn that has ended is the payload of a sequential call. -/
theorem callsOnce_of_replied {m m' : Handler n} {p : Post} {r : Request} {reply : ReplyPayload}
    {response : Response} {article : NewsArticle} {draws : ReplyDraws}
    (run : Run (step crates xmlReader W cfg aesKey) (configured texts cfg) (new : Handler n) as s)
    (requests : s.plugin.requests t = some r)
    (replied : Replied crates xmlReader W cfg aesKey (configured texts cfg) as t m p r reply
      response m' article draws) :
    Plugin.CallsOnce texts cfg W (pluginActs crates xmlReader W cfg aesKey (new : Handler n) as)
      s.plugin t r (reply.withArticle article) := by
  have own : ∀ (s : Handler n) b, s.configured texts cfg (.plugin b) →
      s.plugin.configured texts cfg b := fun _ _ allowed => allowed
  have pluginRun := plugin_run own (fun _ _ _ _ _ => trivial) run
  obtain ⟨start, left, w, others, answer, x, y, computed⟩ :=
    Plugin.computed_of_finished pluginRun requests replied.ended
  cases answer with
  | text text =>
      obtain rfl : reply = .text text := computed.payload
      exact ⟨start, left, w, others, pluginRun, computed.spans, computed.calledAsks,
        computed.metClassifier, computed.metBridge⟩
  | news card =>
      obtain rfl : reply = .news := computed.payload
      obtain ⟨_, _, _, _, allowed⟩ := replied.takes
      obtain ⟨w', met, news⟩ := allowed r replied.requests replied.ended
      have later : asksClassifier texts cfg r.userMsg = true →
          s.plugin.exchange (t, .classify) = some w'.classifier := fun asks =>
        replied.takes.lasts (P := fun s => s.plugin.exchange (t, .classify) = some w'.classifier)
          (fun s a s' ended h => exchange_step ended h) run (met asks)
      refine ⟨start, left, { w' with wall := w.wall, bridge := w.bridge }, others, pluginRun,
        computed.spans, computeTextPayload_news computed.calledAsks (fun asks => ?_) news,
        fun e asked => ?_, computed.metBridge⟩
      · exact (computed.metClassifier _ (later asks)).symm
      · have asks := computed.asks e (computed.classify.exchange.symm.trans asked)
        exact Option.some.inj ((later asks).symm.trans asked)

/-- Every response of a run is the one of a `handle_message` by itself. -/
theorem response_of_one_call {response : Response}
    (run : Run (step crates xmlReader W cfg aesKey) (configured texts cfg) (new : Handler n) as s)
    (sent : s.responses t = some response) :
    ∃ (m : Handler n) (p : Post) (draws : ReplyDraws),
      Came crates xmlReader W cfg aesKey (configured texts cfg) as s t m p ∧
      (s.plugin.requests t = none ∧
          (∀ computeText, m.alone crates xmlReader cfg aesKey p computeText draws =
            .returned response) ∨
        ∃ inbound isEncrypted r answer,
          m.Dispatches crates xmlReader cfg aesKey p inbound isEncrypted ∧ r.Bears inbound ∧
          s.plugin.requests t = some r ∧ r.phase = .finished (some (withoutArticle answer)) ∧
          Plugin.CallsOnce texts cfg W
            (pluginActs crates xmlReader W cfg aesKey (new : Handler n) as) s.plugin t r answer ∧
          m.alone crates xmlReader cfg aesKey p (fun _ _ _ => answer) draws =
            .returned response) := by
  cases course_run run t with
  | fresh _ _ _ waits | closed _ _ _ _ waits | turn _ waits => cases waits.symm.trans sent
  | @answered m p _ draws came _ none' responses gives =>
      obtain rfl := Option.some.inj (responses.symm.trans sent)
      exact ⟨m, p, draws, came, .inl ⟨none', gives⟩⟩
  | @replied m m' p inbound isEncrypted r reply _ article draws held responses replied =>
      obtain rfl := Option.some.inj (responses.symm.trans sent)
      refine ⟨m, p, draws, held.came, .inr ⟨inbound, isEncrypted, r, reply.withArticle article,
        held.dispatches, held.bears, held.requests, ?_, callsOnce_of_replied run held.requests
          replied, replied.gives⟩⟩
      rw [replied.ended]
      cases reply <;> rfl

/-- A text that a subprocess answers. -/
theorem response_of_one_call_pong : Config.validate (fun _ => .ok ()) chatCfg = .ok () ∧
    ∀ crates xmlReader (_ : ReplyDraws) (_ : NewsArticle),
    ∃ (as : List Act) (s : Handler 1) (response : Response) (m : Handler 1) (p : Post)
      (draws : ReplyDraws), s.responses 0 = some response ∧
      m.alone crates xmlReader chatCfg none p (fun _ _ _ => .text "pong") draws =
        .returned response ∧
      Plugin.CallsOnce cityCrates chatCfg serdeJson
        (pluginActs crates xmlReader serdeJson chatCfg none (new : Handler 1) as) s.plugin 0
        ⟨"fan", "hi", none, .finished (some (.text "pong"))⟩ (.text "pong") := by
  refine ⟨rfl, fun crates xmlReader draws article => ?_⟩
  have whole : lastSection "hi" = "hi" := by decide
  obtain ⟨s₁, posted, came, ⟨inbound, texts⟩, waits, _⟩ :=
    step_signedText (n := 1) crates xmlReader serdeJson draws whole (by decide)
  obtain ⟨plugin, turn, requests, _⟩ := Plugin.pongTurn_run
  have starts : Plugin.pongTurn = .receive 0 "fan" "hi" none :: Plugin.pongTurn.tail := rfl
  have own : ∀ b ∈ Plugin.pongTurn.tail, ∀ t u msg id, b ≠ .receive t u msg id := by
    simp [Plugin.pongTurn, Plugin.writesTurn, Plugin.endsTurn, Bridge.writesLine]
  rw [starts] at turn
  cases turn with
  | cons _ received rest =>
      obtain rfl := Option.some.inj received
      let s₂ : Handler 1 := { s₁ with plugin }
      let response :=
        finish crates (s₂.state chatCfg none) draws inbound false (some (.text "pong"))
      have before : Run (step crates xmlReader serdeJson chatCfg none)
          (configured cityCrates chatCfg) s₁ _ s₂ :=
        run_of_plugin (fun _ _ allowed => allowed) own (came ▸ rest)
      have responded : s₂.step crates xmlReader serdeJson chatCfg none (.respond 0 article draws) =
          some (s₂.respond 0 response) := by
        simp only [step, s₂, texts, waits, requests]
        rfl
      obtain ⟨as, run⟩ : ∃ as, Run (step crates xmlReader serdeJson chatCfg none)
          (configured cityCrates chatCfg) (new : Handler 1) as (s₂.respond 0 response) := by
        refine ⟨_, .cons ?_ posted (before.append (.cons ?_ responded (.nil _)))⟩
        · exact trivial
        · intro r hr card
          cases hr.symm.trans requests
          cases card
      have sent : (s₂.respond 0 response).responses 0 = some response :=
        (respond_responses s₂ 0 0 response).trans (if_pos rfl)
      obtain ⟨m, p, draws', _, ⟨none', _⟩ | ⟨_, _, r, answer, _, _, hr, ended, once, gives⟩⟩ :=
        response_of_one_call run sent
      · cases none'.symm.trans requests
      · cases hr.symm.trans requests
        cases answer with
        | news _ => cases ended
        | text text =>
            cases ended
            exact ⟨as, _, response, m, p, draws', sent, gives, once⟩

end Handler
end EvoclawPluginWechat
