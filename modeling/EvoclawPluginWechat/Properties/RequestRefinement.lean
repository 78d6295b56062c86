import EvoclawPluginWechat.Properties.CacheViews
import EvoclawPluginWechat.Properties.StageOutcomes

/-!
The requests of the plugin refine `compute_text_payload`. However their steps are interleaved
with those of the other requests, of the pool and of the subprocesses, a request that ends with
a payload has made one call of that function: from the reply cache as it looked there, to the
reply cache as it left it, with the outcomes of the stages it met.
-/
namespace EvoclawPluginWechat
open Transition

section
variable {crates : TextCrates} {cfg : Config} {cid userMsg : String} {w : Surroundings}

def asksBridge : Outcome WechatRouter.Reply → Bool
  | .returned .fallbackToLlm => true
  | _ => false

/-- What the router's answer gives without a bridge. -/
def routedPayload (cfg : Config) : WechatRouter.Reply → Option Webhook.ReplyPayload
  | .text s => some (.text (Webhook.capReplyText s cfg.reply.maxChars))
  | .news article => some (.news article)
  | .fallbackToLlm => none

theorem computeReply_of_met (wall : Int) (bridge : Exchange) :
    (computeReply crates cfg userMsg { w with wall, bridge }).1 =
      (computeReply crates cfg userMsg w).1 := by
  have intent : (classifyIntent crates cfg userMsg { w with wall, bridge }).1 =
      (classifyIntent crates cfg userMsg w).1 := by
    unfold classifyIntent
    split
    · rfl
    · split
      · split <;> rfl
      · rfl
  unfold computeReply
  split
  · generalize classifyIntent crates cfg userMsg { w with wall, bridge } = x at intent ⊢
    generalize classifyIntent crates cfg userMsg w = y at intent ⊢
    obtain ⟨i, asks⟩ := x
    obtain ⟨j, asks'⟩ := y
    obtain rfl : i = j := intent
    cases i <;> rfl
  · rfl

theorem computeReply_calls : (computeReply crates cfg userMsg w).2 =
    if asksClassifier crates cfg userMsg then
      w.classifier.calls ⟨ephemeralCid (currentUnixNanos w.wall), "intent-classifier",
        (handlerCfg cfg).prompt userMsg⟩
    else [] := by
  have both : (computeReply crates cfg userMsg w).2 =
      if cfg.intent.enabled then (classifyIntent crates cfg userMsg w).2 else [] := by
    unfold computeReply
    split
    · generalize classifyIntent crates cfg userMsg w = x
      obtain ⟨i, asks⟩ := x
      cases i <;> rfl
    · rfl
  rw [both, asksClassifier]
  cases on : cfg.intent.enabled with
  | false => rfl
  | true =>
      rw [if_pos rfl, classifyIntent]
      cases found : Dict.classify crates userMsg cfg.intent.dict with
      | some i => rfl
      | none =>
          cases fallback : cfg.intent.aiFallback with
          | false => rfl
          | true =>
              rw [aiClassifier, on, fallback]
              rfl

theorem computePayload_eq (fromUser : String) :
    computePayload crates cfg cid fromUser userMsg w =
      match (computeReply crates cfg userMsg w).1 with
      | .panicked => (.panicked, (computeReply crates cfg userMsg w).2)
      | .returned (.text s) =>
          (.returned (.text (Webhook.capReplyText s cfg.reply.maxChars)),
            (computeReply crates cfg userMsg w).2)
      | .returned (.news article) =>
          (.returned (.news article), (computeReply crates cfg userMsg w).2)
      | .returned .fallbackToLlm =>
          (.returned (.text (Webhook.capReplyText (askWithTimeout cfg cid fromUser userMsg
            w.bridge).1 cfg.reply.maxChars)),
            (computeReply crates cfg userMsg w).2 ++ w.bridge.calls ⟨cid, fromUser, userMsg⟩) := by
  unfold computePayload
  generalize computeReply crates cfg userMsg w = x
  obtain ⟨reply, asks⟩ := x
  match reply with
  | .panicked => rfl
  | .returned (.text _) => rfl
  | .returned (.news _) => rfl
  | .returned .fallbackToLlm => rfl

end

namespace Plugin
variable {n : Nat} [NeZero n]

/-- The stretch of the run that the request's call takes, from the state in which it looks into
the cache to the one in which it leaves it. A cached text is its end; else the request stores,
and what the steps in between do to the caches is what the others do. -/
inductive Spans (W : Wire) (cfg : HandlerCfg) (as : List Act) (t : TaskId) :
    Plugin n → Plugin n → List CacheRun.Act → Prop
  | cached {pre post : List Act} {start left : Plugin n} :
      as = pre ++ .lookupReply t :: post → Run (step W cfg) anyStep new pre start →
      start.step W cfg (.lookupReply t) = some left → Spans W cfg as t start left []
  | stored {pre mid post : List Act} {start m m' left : Plugin n} :
      as = pre ++ .lookupReply t :: (mid ++ .storeReply t :: post) →
      Run (step W cfg) anyStep new pre start → start.step W cfg (.lookupReply t) = some m →
      Run (step W cfg) anyStep m mid m' → m'.step W cfg (.storeReply t) = some left →
      Spans W cfg as t start left (project (step W cfg) onCaches m mid)

section
variable (crates : TextCrates) (cfg : Config) (W : Wire) (as : List Act) (s : Plugin n)
  (t : TaskId) (r : Request)

/-- The lookup of the request found nothing, and the run has come from there to here. -/
def Missed : Prop := ∃ (pre mid : List Act) (start m : Plugin n),
  as = pre ++ .lookupReply t :: mid ∧ Run (step W (handlerCfg cfg)) anyStep new pre start ∧
    start.step W (handlerCfg cfg) (.lookupReply t) = some m ∧
    Run (step W (handlerCfg cfg)) anyStep m mid s ∧
    lookupPayload start.cacheView (cacheKey r.fromUser r.msgId) = (.returned none, m.cacheView)

/-- The request is past its classification. -/
def Classified (w : Surroundings) : Prop :=
  StageOver (handlerCfg cfg) s t r w.wall .classify
    (if asksClassifier crates cfg r.userMsg then some w.classifier else none)

/-- What the request has met makes this its payload. -/
structure Answered (w : Surroundings) (payload : Webhook.ReplyPayload) : Prop where
  classified : Classified crates cfg s t r w
  replied : StageOver (handlerCfg cfg) s t r w.wall .reply
    (if asksBridge (computeReply crates cfg r.userMsg w).1 then some w.bridge else none)
  payload : (computePayload crates cfg (r.cid (handlerCfg cfg)) r.fromUser r.userMsg w).1 =
    .returned payload

/-- The request has made its call of `compute_text_payload`. -/
structure Computed (payload : ReplyPayload) (start ended : Plugin n) (w : Surroundings)
    (others : List CacheRun.Act) (answer : Webhook.ReplyPayload) (x y : Option Exchange) :
    Prop where
  spans : Spans W (handlerCfg cfg) as t start ended others
  called : computeTextPayload crates cfg start.cacheView (r.cid (handlerCfg cfg)) r.fromUser
    r.userMsg r.msgId w others = some ⟨.returned answer,
      x.elim [] (·.calls (r.call (handlerCfg cfg) w.wall .classify)) ++
        y.elim [] (·.calls (r.call (handlerCfg cfg) w.wall .reply)), ended.cacheView⟩
  payload : payload = withoutArticle answer
  asks : ∀ e, x = some e → asksClassifier crates cfg r.userMsg = true
  classify : StageOver (handlerCfg cfg) s t r w.wall .classify x
  reply : StageOver (handlerCfg cfg) s t r w.wall .reply y
  classifier : ∀ e, x = some e → w.classifier = e
  bridge : ∀ e, y = some e → w.bridge = e

/-- What holds of the request in a phase. -/
def Conforms : RequestPhase → Prop
  | .routing false => Missed cfg W as s t r
  | .checkout .classify | .asking .classify _ =>
      Missed cfg W as s t r ∧ asksClassifier crates cfg r.userMsg = true
  | .routing true => Missed cfg W as s t r ∧ asksClassifier crates cfg r.userMsg = true ∧
      ∃ wall e, StageOver (handlerCfg cfg) s t r wall .classify (some e)
  | .checkout .reply | .asking .reply _ => Missed cfg W as s t r ∧ ∃ w,
      Classified crates cfg s t r w ∧
        (computeReply crates cfg r.userMsg w).1 = .returned .fallbackToLlm
  | .computed payload => Missed cfg W as s t r ∧
      ∃ w answer, Answered crates cfg s t r w answer ∧ payload = withoutArticle answer
  | .leaving (some payload) | .finished (some payload) =>
      ∃ start ended w others answer x y,
        Computed crates cfg W as s t r payload start ended w others answer x y
  | _ => True

def AllConform : Prop := ∀ t r, s.requests t = some r → Conforms crates cfg W as s t r r.phase

end

section
variable {crates : TextCrates} {cfg : Config} {W : Wire} {as : List Act} {a : Act}
  {s s' : Plugin n} {t : TaskId} {r : Request}

theorem Spans.snoc {start left : Plugin n} {others : List CacheRun.Act}
    (h : Spans W (handlerCfg cfg) as t start left others) :
    Spans W (handlerCfg cfg) (as ++ [a]) t start left others := by
  cases h with
  | cached split before looks =>
      exact .cached (by rw [split, List.append_assoc, List.cons_append]) before looks
  | stored split before looks between stores =>
      exact .stored (by rw [split, List.append_assoc, List.cons_append, List.append_assoc,
        List.cons_append]) before looks between stores

theorem Missed.step (h : s.step W (handlerCfg cfg) a = some s') (hs : Missed cfg W as s t r) :
    Missed cfg W (as ++ [a]) s' t r := by
  obtain ⟨pre, mid, start, m, split, before, looks, since, missed⟩ := hs
  refine ⟨pre, mid ++ [a], start, m, ?_, before, looks,
    since.append (.cons trivial h (.nil s')), missed⟩
  rw [split, List.append_assoc, List.cons_append]

/-- The request is not about to begin a stage. -/
def NotBeginning (s' : Plugin n) (t : TaskId) (stage : Stage) : Prop :=
  ∀ r', s'.requests t = some r' → r'.phase ≠ .checkout stage

omit [NeZero n] in
theorem notBeginning {phase : RequestPhase} (hr : s.requests t = some r)
    (requests : s'.requests = (s.setPhase t phase).requests)
    (waits : ∀ stage, phase ≠ .checkout stage) (stage : Stage) : NotBeginning s' t stage := by
  intro r' hr'
  rw [requests, setPhase_requests_self _ hr] at hr'
  cases hr'
  exact waits stage

theorem Answered.step (h : s.step W (handlerCfg cfg) a = some s') {w : Surroundings}
    {answer : Webhook.ReplyPayload} (hs : Answered crates cfg s t r w answer)
    (later : ∀ stage, NotBeginning s' t stage) : Answered crates cfg s' t r w answer :=
  ⟨hs.classified.step h (later _), hs.replied.step h (later _), hs.payload⟩

theorem Computed.step (h : s.step W (handlerCfg cfg) a = some s') {payload : ReplyPayload}
    {start ended : Plugin n} {w : Surroundings} {others : List CacheRun.Act}
    {answer : Webhook.ReplyPayload} {x y : Option Exchange}
    (hs : Computed crates cfg W as s t r payload start ended w others answer x y)
    (later : ∀ stage, NotBeginning s' t stage) :
    Computed crates cfg W (as ++ [a]) s' t r payload start ended w others answer x y := by
  exact { hs with
    spans := hs.spans.snoc
    classify := hs.classify.step h (later _)
    reply := hs.reply.step h (later _) }

theorem Conforms.step (h : s.step W (handlerCfg cfg) a = some s') (hr' : s'.requests t = some r)
    (hs : Conforms crates cfg W as s t r r.phase) :
    Conforms crates cfg W (as ++ [a]) s' t r r.phase := by
  have later : ∀ stage, r.phase ≠ .checkout stage → NotBeginning s' t stage := by
    intro stage other r' same
    obtain rfl := Option.some.inj (hr'.symm.trans same)
    exact other
  generalize r.phase = phase at hs later ⊢
  match phase, hs, later with
  | .routing false, hs, _ => exact Missed.step h hs
  | .checkout .classify, hs, _ => exact ⟨hs.1.step h, hs.2⟩
  | .asking .classify _, hs, _ => exact ⟨hs.1.step h, hs.2⟩
  | .routing true, ⟨missed, asks, wall, e, outcome⟩, later =>
      exact ⟨missed.step h, asks, wall, e, outcome.step h (later _ (by simp))⟩
  | .checkout .reply, ⟨missed, w, classified, falls⟩, later =>
      exact ⟨missed.step h, w, classified.step h (later _ (by simp)), falls⟩
  | .asking .reply _, ⟨missed, w, classified, falls⟩, later =>
      exact ⟨missed.step h, w, classified.step h (later _ (by simp)), falls⟩
  | .computed _, ⟨missed, w, answer, answered, same⟩, later =>
      exact ⟨missed.step h, w, answer, answered.step h fun _ => later _ (by simp), same⟩
  | .leaving (some _), ⟨start, ended, w, others, answer, x, y, computed⟩, later =>
      exact ⟨start, ended, w, others, answer, x, y, computed.step h fun _ => later _ (by simp)⟩
  | .finished (some _), ⟨start, ended, w, others, answer, x, y, computed⟩, later =>
      exact ⟨start, ended, w, others, answer, x, y, computed.step h fun _ => later _ (by simp)⟩
  | .dispatched, _, _ | .acquired, _, _ | .waiting, _, _ | .entered, _, _ | .abandoned _ _, _, _
  | .leaving none, _, _ | .finished none, _, _ => trivial

theorem Conforms.message {phase : RequestPhase} (p : RequestPhase)
    (hs : Conforms crates cfg W as s t r phase) :
    Conforms crates cfg W as s t { r with phase := p } phase := by
  match phase, hs with
  | .computed _, ⟨missed, w, answer, answered, same⟩ =>
      exact ⟨missed, w, answer, ⟨answered.classified, answered.replied, answered.payload⟩, same⟩
  | .leaving (some _), ⟨start, ended, w, others, answer, x, y, c⟩ =>
      exact ⟨start, ended, w, others, answer, x, y, c.spans, c.called, c.payload, c.asks,
        c.classify, c.reply, c.classifier, c.bridge⟩
  | .finished (some _), ⟨start, ended, w, others, answer, x, y, c⟩ =>
      exact ⟨start, ended, w, others, answer, x, y, c.spans, c.called, c.payload, c.asks,
        c.classify, c.reply, c.classifier, c.bridge⟩
  | .routing true, hs | .routing false, hs | .checkout .classify, hs | .checkout .reply, hs
  | .asking .classify _, hs | .asking .reply _, hs => exact hs
  | .dispatched, _ | .acquired, _ | .waiting, _ | .entered, _ | .abandoned _ _, _
  | .leaving none, _ | .finished none, _ => trivial

theorem AllConform.same (h : s.step W (handlerCfg cfg) a = some s')
    (hs : AllConform crates cfg W as s) (requests : s'.requests = s.requests) :
    AllConform crates cfg W (as ++ [a]) s' :=
  fun t r hr => (hs t r (requests ▸ hr)).step h hr

theorem AllConform.setPhase {phase : RequestPhase}
    (h : s.step W (handlerCfg cfg) a = some s') (hs : AllConform crates cfg W as s)
    (requests : s'.requests = (s.setPhase t phase).requests)
    (own : ∀ r, s.requests t = some r → Conforms crates cfg W as s t r r.phase →
      Conforms crates cfg W (as ++ [a]) s' t r phase) : AllConform crates cfg W (as ++ [a]) s' := by
  intro t' r' hr'
  by_cases same : t' = t
  · subst same
    rw [requests, setPhase_requests, if_pos rfl] at hr'
    obtain ⟨r, hr, rfl⟩ := Option.map_eq_some_iff.mp hr'
    exact (own r hr (hs t' r hr)).message phase
  · refine (hs t' r' ?_).step h hr'
    rw [requests, setPhase_requests, if_neg same] at hr'
    exact hr'

/-- The request goes on to this phase. -/
theorem AllConform.goes {phase : RequestPhase}
    (h : s.step W (handlerCfg cfg) a = some s') (hs : AllConform crates cfg W as s)
    (hr : s.requests t = some r) (requests : s'.requests = (s.setPhase t phase).requests)
    (own : Conforms crates cfg W as s t r r.phase →
      Conforms crates cfg W (as ++ [a]) s' t r phase) : AllConform crates cfg W (as ++ [a]) s' := by
  refine hs.setPhase h requests fun r' hr' before => ?_
  obtain rfl := Option.some.inj (hr.symm.trans hr')
  exact own before

omit [NeZero n] in
theorem Owned.call_none (hs : Owned s) (hr : s.requests t = some r) {stage : Stage}
    (early : (RequestPhase.checkout stage).budget n < r.phase.budget n) :
    s.pool.calls (t, stage) = none := by
  refine Option.eq_none_iff_forall_ne_some.mpr fun ph hc => ?_
  obtain ⟨budget, _⟩ := (hs.by hr).called stage ph hc
  omega

/-- At the lookup the call begins; a cached text ends it. -/
theorem conforms_lookup (run : Run (step W (handlerCfg cfg)) anyStep (new : Plugin n) as s)
    (hr : s.requests t = some r) (entered : r.phase = .entered)
    (h : s.step W (handlerCfg cfg) (.lookupReply t) = some (s.lookupReply t r)) :
    Conforms crates cfg W (as ++ [.lookupReply t]) (s.lookupReply t r) t r
      (foundPhase (lookupPayload s.cacheView (cacheKey r.fromUser r.msgId)).1) := by
  have looked := lookupReply_view (s := s) (t := t) (r := r)
  cases found : (lookupPayload s.cacheView (cacheKey r.fromUser r.msgId)).1 with
  | panicked => trivial
  | returned cached =>
      cases cached with
      | none => exact ⟨as, [], s, _, rfl, run, h, .nil _, Prod.ext found looked.symm⟩
      | some text =>
          have owned := owned_reachable ⟨new, as, rfl, run⟩
          have pool : (s.lookupReply t r).pool = s.pool := by
            rw [lookupReply_eq]
            rfl
          have unasked : ∀ stage, StageOver (handlerCfg cfg) (s.lookupReply t r) t r
              unanswered.wall stage none := by
            intro stage
            change (s.lookupReply t r).pool.calls (t, stage) = none
            rw [pool]
            refine owned.call_none hr ?_
            rw [entered]
            cases stage <;> simp only [RequestPhase.budget] <;> omega
          refine ⟨s, s.lookupReply t r, unanswered, [], .text text, none, none,
            .cached rfl run h, ?_, rfl, (fun _ same => by cases same), unasked _, unasked _,
            (fun _ same => by cases same), fun _ same => by cases same⟩
          rw [looked]
          have both : lookupPayload s.cacheView (cacheKey r.fromUser r.msgId) =
              (.returned (some text),
                (lookupPayload s.cacheView (cacheKey r.fromUser r.msgId)).2) :=
            Prod.ext found rfl
          rw [computeTextPayload, both]
          rfl

omit [NeZero n] in
theorem Answered.calls {w : Surroundings} {answer : Webhook.ReplyPayload}
    (hs : Answered crates cfg s t r w answer) :
    computePayload crates cfg (r.cid (handlerCfg cfg)) r.fromUser r.userMsg w =
      (.returned answer,
        (if asksClassifier crates cfg r.userMsg then some w.classifier else none).elim []
            (·.calls (r.call (handlerCfg cfg) w.wall .classify)) ++
          (if asksBridge (computeReply crates cfg r.userMsg w).1 then some w.bridge else none).elim
            [] (·.calls (r.call (handlerCfg cfg) w.wall .reply))) := by
  refine Prod.ext hs.payload ?_
  have payload := hs.payload
  have classified : (computeReply crates cfg r.userMsg w).2 =
      (if asksClassifier crates cfg r.userMsg then some w.classifier else none).elim []
        (·.calls (r.call (handlerCfg cfg) w.wall .classify)) := by
    rw [computeReply_calls]
    split <;> rfl
  rw [computePayload_eq] at payload ⊢
  rw [← classified]
  match reply : (computeReply crates cfg r.userMsg w).1 with
  | .panicked =>
      rw [reply] at payload
      cases payload
  | .returned (.text _) | .returned (.news _) => exact (List.append_nil _).symm
  | .returned .fallbackToLlm => rfl

def leftWith : Outcome Webhook.ReplyPayload → Option ReplyPayload
  | .returned payload => some (withoutArticle payload)
  | .panicked => none

omit [NeZero n] in
theorem storePayload_requests (answer : Webhook.ReplyPayload) (r : Request) :
    (s.storePayload t r (withoutArticle answer)).requests =
      (s.setPhase t (.leaving (leftWith (EvoclawPluginWechat.storePayload s.cacheView
        (cacheKey r.fromUser r.msgId) answer []).payload))).requests := by
  rw [storePayload_eq answer []]
  rfl

omit [NeZero n] in
theorem storePayload_delivery (m : CacheRun) (key : Option String)
    (answer : Webhook.ReplyPayload) :
    (∀ asks, EvoclawPluginWechat.storePayload m key answer asks = ⟨.returned answer, asks,
        (EvoclawPluginWechat.storePayload m key answer []).after⟩) ∨
      (EvoclawPluginWechat.storePayload m key answer []).payload = .panicked := by
  unfold EvoclawPluginWechat.storePayload
  split
  · dsimp only
    split
    · exact .inr rfl
    · exact .inl fun _ => rfl
  · exact .inl fun _ => rfl

/-- At the store the call ends. -/
theorem conforms_store {w : Surroundings} {answer : Webhook.ReplyPayload}
    (missed : Missed cfg W as s t r)
    (answered : Answered crates cfg s t r w answer) (hr : s.requests t = some r)
    (h : s.step W (handlerCfg cfg) (.storeReply t) =
      some (s.storePayload t r (withoutArticle answer))) {left : Option ReplyPayload}
    (leaves : (s.storePayload t r (withoutArticle answer)).requests =
      (s.setPhase t (.leaving left)).requests)
    (same : left = leftWith (EvoclawPluginWechat.storePayload s.cacheView
      (cacheKey r.fromUser r.msgId) answer []).payload) :
    Conforms crates cfg W (as ++ [.storeReply t]) (s.storePayload t r (withoutArticle answer)) t r
      (.leaving left) := by
  obtain ⟨pre, mid, start, m, split, before, looks, between, notFound⟩ := missed
  have calm : Calm m := calm_turn (calm_run before) (turn_of_step looks)
  obtain stored | panicked :=
    storePayload_delivery s.cacheView (cacheKey r.fromUser r.msgId) answer
  · rw [stored []] at same
    subst same
    have answered' := answered.step h (notBeginning hr leaves (by simp))
    have whole : as ++ [.storeReply t] = pre ++ .lookupReply t :: (mid ++ [.storeReply t]) := by
      rw [split, List.append_assoc, List.cons_append]
    refine ⟨start, s.storePayload t r (withoutArticle answer), w, _, answer, _, _,
      .stored whole before looks between h, ?_, rfl, ?_, answered'.classified, answered'.replied,
      ?_, ?_⟩
    · rw [computeTextPayload, notFound]
      dsimp only
      rw [run_iff_exec.mp (cacheView_run calm between), Option.map_some]
      rw [answered.calls]
      dsimp only
      rw [stored, storePayload_view]
    · intro e chosen
      split at chosen
      · assumption
      · cases chosen
    · intro e chosen
      split at chosen
      · exact Option.some.inj chosen
      · cases chosen
    · intro e chosen
      split at chosen
      · exact Option.some.inj chosen
      · cases chosen
  · rw [panicked] at same
    subst same
    trivial

theorem routed (run : Run (step W (handlerCfg cfg)) anyStep (new : Plugin n) as s)
    {classified : Bool} {reply : Reply} (hr : s.requests t = some r)
    (phase : r.phase = .routing classified) (hs : Conforms crates cfg W as s t r r.phase)
    (allowed : s.configured crates cfg (.route t reply)) :
    Missed cfg W as s t r ∧ s.pool.calls (t, .reply) = none ∧ ∃ w answer,
      Classified crates cfg s t r w ∧ (computeReply crates cfg r.userMsg w).1 = .returned answer ∧
        reply = .ofRouter answer := by
  have owned := owned_reachable ⟨new, as, rfl, run⟩
  have fresh : s.pool.calls (t, .reply) = none := by
    refine owned.call_none hr ?_
    rw [phase]
    cases classified <;> simp only [RequestPhase.budget] <;> omega
  obtain ⟨same, w, answer, met, returned, rfl⟩ := allowed r classified hr phase
  rw [phase] at hs
  cases classified with
  | false =>
      refine ⟨hs, fresh, w, answer, ?_, returned, rfl⟩
      rw [Classified, ← same]
      refine owned.call_none hr ?_
      rw [phase]
      simp only [RequestPhase.budget]
      omega
  | true =>
      obtain ⟨missed, _, wall, e, outcome⟩ := hs
      obtain rfl : e = w.classifier := Option.some.inj (outcome.exchange.symm.trans (met rfl))
      refine ⟨missed, fresh, { w with wall }, answer, ?_, ?_, rfl⟩
      · rw [Classified, ← same]
        exact outcome
      · exact (computeReply_of_met wall w.bridge).trans returned

omit [NeZero n] in
theorem Classified.answered {w : Surroundings} {answer : WechatRouter.Reply}
    {payload : Webhook.ReplyPayload} (classified : Classified crates cfg s t r w)
    (fresh : s.pool.calls (t, .reply) = none)
    (returned : (computeReply crates cfg r.userMsg w).1 = .returned answer)
    (itself : routedPayload cfg answer = some payload) : Answered crates cfg s t r w payload := by
  cases answer with
  | text _ | news _ =>
      cases itself
      refine ⟨classified, ?_, ?_⟩
      · rw [returned]
        exact fresh
      · rw [computePayload_eq, returned]
  | fallbackToLlm => cases itself

omit [NeZero n] in
theorem askWithTimeout_asked {cid openid text : String}
    {result : Option (Except PluginError String)} :
    (askWithTimeout cfg cid openid text (.asked result)).1 = answer (handlerCfg cfg) result := by
  cases result with
  | none => rfl
  | some result => cases result <;> rfl

theorem conforms_replied {w : Surroundings} {e : Exchange}
    {result : Option (Except PluginError String)} (missed : Missed cfg W as s t r)
    (classified : Classified crates cfg s t r w)
    (falls : (computeReply crates cfg r.userMsg w).1 = .returned .fallbackToLlm)
    (outcome : StageOver (handlerCfg cfg) s t r w.wall .reply (some e))
    (same : (askWithTimeout cfg (r.cid (handlerCfg cfg)) r.fromUser r.userMsg e).1 =
      answer (handlerCfg cfg) result) :
    Conforms crates cfg W as s t r (afterAsk (handlerCfg cfg) result .reply) := by
  have still : (computeReply crates cfg r.userMsg { w with bridge := e }).1 =
      .returned .fallbackToLlm := (computeReply_of_met w.wall e).trans falls
  refine ⟨missed, { w with bridge := e },
    .text ((handlerCfg cfg).capReplyText (answer (handlerCfg cfg) result)),
    ⟨classified, ?_, ?_⟩, rfl⟩
  · rw [still]
    exact outcome
  · rw [computePayload_eq, still]
    dsimp only
    rw [same]
    rfl

theorem conforms_asking {stage : Stage} {b : BridgeId}
    (h : s.step W (handlerCfg cfg) a = some s')
    (later : NotBeginning s' t .classify)
    (hs : Conforms crates cfg W as s t r (.checkout stage)) :
    Conforms crates cfg W (as ++ [a]) s' t r (.asking stage b) := by
  cases stage with
  | classify => exact ⟨hs.1.step h, hs.2⟩
  | reply =>
      obtain ⟨missed, w, classified, falls⟩ := hs
      exact ⟨missed.step h, w, classified.step h later, falls⟩

theorem conforms_afterAsk {stage : Stage} {wall : Int} {e : Exchange}
    {result : Option (Except PluginError String)}
    (h : s.step W (handlerCfg cfg) a = some s') (later : ∀ stage, NotBeginning s' t stage)
    (outcome : StageOver (handlerCfg cfg) s t r wall stage (some e))
    (same : (askWithTimeout cfg (r.cid (handlerCfg cfg)) r.fromUser r.userMsg e).1 =
      answer (handlerCfg cfg) result)
    (hs : Conforms crates cfg W as s t r (.checkout stage)) :
    Conforms crates cfg W (as ++ [a]) s' t r (afterAsk (handlerCfg cfg) result stage) := by
  have outcome := outcome.step h (later stage)
  cases stage with
  | classify => exact ⟨hs.1.step h, hs.2, wall, e, outcome⟩
  | reply =>
      obtain ⟨missed, w, classified, falls⟩ := hs
      refine conforms_replied (missed.step h) (classified.step h (later _)) falls ?_ same
      exact outcome

theorem conforms_step (run : Run (step W (handlerCfg cfg)) anyStep (new : Plugin n) as s)
    (placed : Placed (handlerCfg cfg) s) (hs : AllConform crates cfg W as s)
    (allowed : s.configured crates cfg a) (h : s.step W (handlerCfg cfg) a = some s') :
    AllConform crates cfg W (as ++ [a]) s' := by
  have whole := h
  cases a with
  | tick _ | setClock _ | gcReplies =>
      cases h
      exact hs.same whole rfl
  | receive t fromUser userMsg msgId =>
      simp only [step] at h
      split at h
      · cases h
        intro t' r' hr'
        by_cases same : t' = t
        · subst same
          rw [setRequest_requests, if_pos rfl] at hr'
          cases hr'
          trivial
        · refine (hs t' r' ?_).step whole hr'
          rw [setRequest_requests, if_neg same] at hr'
          exact hr'
      · cases h
  | acquire t | lockOwned t | grant t =>
      simp only [step] at h
      split at h
      · obtain ⟨s₁, h₁, rfl⟩ := Option.map_eq_some_iff.mp h
        obtain ⟨ser, _, rfl⟩ := runSerializer_eq_some.mp h₁
        exact hs.setPhase (s := s) whole rfl fun _ _ _ => trivial
      · cases h
  | lookupReply t =>
      simp only [step] at h
      split at h
      · next hr =>
          cases h
          refine hs.goes whole hr (by rw [lookupReply_eq]) fun _ => ?_
          exact conforms_lookup run hr rfl whole
      · cases h
  | classifyByAi t =>
      simp only [step] at h
      split at h
      · next hr =>
          obtain ⟨s₁, h₁, rfl⟩ := Option.map_eq_some_iff.mp h
          obtain ⟨p, _, rfl⟩ := runPool_eq_some.mp h₁
          refine hs.goes (s := s) whole hr rfl fun missed => ?_
          exact ⟨Missed.step whole missed, allowed _ hr⟩
      · cases h
  | route t reply =>
      simp only [step] at h
      split at h
      · next hr =>
          obtain ⟨missed, fresh, w, answer, classified, returned, rfl⟩ :=
            routed run hr rfl (hs t _ hr) allowed
          cases answer with
          | text _ | news _ =>
              cases h
              refine hs.goes whole hr rfl fun _ => ?_
              have answered := classified.answered fresh returned rfl
              exact ⟨missed.step whole, w, _,
                answered.step whole (notBeginning hr rfl (by simp)), rfl⟩
          | fallbackToLlm =>
              obtain ⟨s₁, h₁, rfl⟩ := Option.map_eq_some_iff.mp h
              obtain ⟨p, _, rfl⟩ := runPool_eq_some.mp h₁
              refine hs.goes (s := s) whole hr rfl fun _ => ?_
              refine ⟨missed.step whole, w, classified.step whole fun r' hr' same => ?_, returned⟩
              rw [setPhase_requests_self (s := { s with pool := p }) _ hr] at hr'
              cases hr'
              cases same
      · cases h
  | checkedOut t ms =>
      simp only [step] at h
      split at h
      · next stage hr =>
          unfold startAsk at h
          split at h
          · next b out =>
              obtain ⟨s₁, h₁, rfl⟩ := Option.map_eq_some_iff.mp h
              obtain ⟨w, _, rfl⟩ := runWorker_eq_some.mp h₁
              refine hs.goes (s := s) whole hr rfl fun before => ?_
              exact conforms_asking whole (notBeginning (s := s) hr rfl (by simp) _) before
          · next e out =>
              cases h
              refine hs.goes whole hr rfl fun before => ?_
              have failed : ∀ r, StageOver (handlerCfg cfg) s t r 0 stage (some .noBridge) :=
                fun _ => ⟨e, out⟩
              exact conforms_afterAsk whole (notBeginning hr rfl (afterAsk_quiet _ _ _).2)
                (failed _) rfl before
          · cases h
      · cases h
  | finishAsk t =>
      simp only [step] at h
      split at h
      · next stage b hr =>
          obtain ⟨result, returned, rfl⟩ := Option.map_eq_some_iff.mp h
          refine hs.goes whole hr rfl fun before => ?_
          obtain ⟨msg, hx⟩ := askResult_eq_some.mp returned
          have out := placed.checkedOut b t stage _ hx
          have ended : s.exchange (t, stage) = some (.asked result) := by
            rw [Plugin.exchange, out]
            dsimp only
            rw [returned]
            rfl
          obtain ⟨wall, outcome⟩ := placed.stageOver hr ended
          refine conforms_afterAsk whole (notBeginning hr rfl (afterAsk_quiet _ _ _).2) outcome
            ?_ (by cases stage <;> exact before)
          exact askWithTimeout_asked
      · cases h
  | storeReply t =>
      simp only [step] at h
      split at h
      · next payload hr =>
          cases h
          obtain ⟨missed, w, answer, answered, rfl⟩ := hs t _ hr
          have leaves := storePayload_requests (s := s) (t := t) answer
          refine hs.goes whole hr (leaves _) fun _ => ?_
          exact conforms_store missed answered hr whole (leaves _) rfl
      · cases h
  | release t =>
      simp only [step] at h
      split at h
      · next payload hr =>
          obtain ⟨s₁, h₁, rfl⟩ := Option.map_eq_some_iff.mp h
          obtain ⟨ser, _, rfl⟩ := runSerializer_eq_some.mp h₁
          refine hs.goes (s := s) whole hr rfl fun before => ?_
          cases payload with
          | none => trivial
          | some payload =>
              obtain ⟨start, ended, w, others, answer, x, y, computed⟩ := before
              exact ⟨start, ended, w, others, answer, x, y,
                computed.step whole (notBeginning (s := s) hr rfl (by simp))⟩
      · cases h
  | disconnect t =>
      simp only [step] at h
      split at h
      · unfold disconnect at h
        split at h
        · obtain ⟨s₁, h₁, rfl⟩ := Option.map_eq_some_iff.mp h
          obtain ⟨ser, _, rfl⟩ := runSerializer_eq_some.mp h₁
          exact hs.setPhase (s := s) whole rfl fun _ _ _ => trivial
        · obtain ⟨s₁, h₁, rfl⟩ := Option.map_eq_some_iff.mp h
          obtain ⟨p, _, rfl⟩ := runPool_eq_some.mp h₁
          exact hs.setPhase (s := s) whole rfl fun _ _ _ => trivial
        · obtain ⟨s₁, h₁, rfl⟩ := Option.map_eq_some_iff.mp h
          obtain ⟨w, _, rfl⟩ := runWorker_eq_some.mp h₁
          exact hs.setPhase (s := s) whole rfl fun _ _ _ => trivial
        · cases h
      · cases h
  | unwind t =>
      simp only [step] at h
      split at h
      · obtain ⟨result, _, rfl⟩ := Option.map_eq_some_iff.mp h
        exact hs.setPhase whole rfl fun _ _ _ => trivial
      · cases h
  | pool op =>
      have same : ∀ {op : BridgePool.Act AskId}, s.runPool op = some s' →
          s'.requests = s.requests := fun h => by
        obtain ⟨p, _, rfl⟩ := runPool_eq_some.mp h
        rfl
      cases op with
      | call _ | cancel _ => cases h
      | _ => exact hs.same whole (same h)
  | worker b op =>
      have same : ∀ {op : Worker.Act AskId}, s.runWorker W b op = some s' →
          s'.requests = s.requests := fun h => by
        obtain ⟨w, _, rfl⟩ := runWorker_eq_some.mp h
        rfl
      cases op with
      | bridge op =>
          cases op with
          | call _ _ => cases h
          | _ => exact hs.same whole (same h)
      | _ => exact hs.same whole (same h)
  | gcBegin _ | gcVisit _ | gcEnd =>
      obtain ⟨ser, _, rfl⟩ := runSerializer_eq_some.mp h
      exact hs.same whole rfl

section
variable {payload : ReplyPayload} {start left : Plugin n} {w : Surroundings}
  {others : List CacheRun.Act} {answer : Webhook.ReplyPayload} {x y : Option Exchange}

theorem Computed.calledAsks
    (hs : Computed crates cfg W as s t r payload start left w others answer x y) :
    computeTextPayload crates cfg start.cacheView (r.cid (handlerCfg cfg)) r.fromUser r.userMsg
      r.msgId w others = some ⟨.returned answer, s.asksMade t, left.cacheView⟩ := by
  rw [asksMade, hs.classify.asked, hs.reply.asked]
  exact hs.called

theorem Computed.metClassifier
    (hs : Computed crates cfg W as s t r payload start left w others answer x y) (e : Exchange)
    (met : s.exchange (t, .classify) = some e) : w.classifier = e :=
  hs.classifier e (hs.classify.exchange.symm.trans met)

theorem Computed.metBridge
    (hs : Computed crates cfg W as s t r payload start left w others answer x y) (e : Exchange)
    (met : s.exchange (t, .reply) = some e) : w.bridge = e :=
  hs.bridge e (hs.reply.exchange.symm.trans met)

end

theorem computed_of_finished {payload : ReplyPayload}
    (run : Run (step W (handlerCfg cfg)) (configured crates cfg) (new : Plugin n) as s)
    (hr : s.requests t = some r) (ended : r.phase = .finished (some payload)) :
    ∃ start left w others answer x y,
      Computed crates cfg W as s t r payload start left w others answer x y := by
  have conform : Placed (handlerCfg cfg) s ∧ AllConform crates cfg W as s := by
    refine run.history (P := fun as s => Placed (handlerCfg cfg) s ∧ AllConform crates cfg W as s)
      (fun bs m a m' hm before allowed h => ?_) ⟨placed_new, fun _ _ h => by cases h⟩
    exact ⟨placed_step hm.1 h, conforms_step (before.mono fun _ _ _ => trivial) hm.1 hm.2 allowed h⟩
  have own := conform.2 t r hr
  rw [ended] at own
  exact own

/-- A request that ends with a payload has made one call of `compute_text_payload`: it begins
with the cache as the request looked into it, goes through what the others did to it meanwhile,
ends with the cache as the request left it, comes to this payload, and makes the calls of `ask`
that the request made, with their outcomes. -/
theorem request_computes_payload {payload : ReplyPayload}
    (run : Run (step W (handlerCfg cfg)) (configured crates cfg) (new : Plugin n) as s)
    (hr : s.requests t = some r) (ended : r.phase = .finished (some payload)) :
    ∃ (start left : Plugin n) (w : Surroundings) (others : List CacheRun.Act)
      (answer : Webhook.ReplyPayload),
      Spans W (handlerCfg cfg) as t start left others ∧
      computeTextPayload crates cfg start.cacheView (r.cid (handlerCfg cfg)) r.fromUser r.userMsg
        r.msgId w others = some ⟨.returned answer, s.asksMade t, left.cacheView⟩ ∧
      payload = withoutArticle answer ∧
      (∀ e, s.exchange (t, .classify) = some e → w.classifier = e) ∧
      ∀ e, s.exchange (t, .reply) = some e → w.bridge = e := by
  obtain ⟨start, left, w, others, answer, x, y, computed⟩ := computed_of_finished run hr ended
  exact ⟨start, left, w, others, answer, computed.spans, computed.calledAsks, computed.payload,
    computed.metClassifier, computed.metBridge⟩

def Act.classifies : Act → Bool
  | .classifyByAi _ | .route _ _ => true
  | _ => false

omit [NeZero n] in
theorem configured_of_not_classifies (h : a.classifies = false) : s.configured crates cfg a := by
  cases a with
  | classifyByAi _ | route _ _ => cases h
  | _ => trivial

/-- A message that the intent layer does not see; the subprocess answers it. -/
def pongTurn : List Act :=
  writesTurn serdeJson (handlerCfg chatCfg) 0 "fan" "hi" 0 ++
    [.worker 0 (.answer (plainReply "wx-wx1-fan" "pong")), .worker 0 .deliver] ++
    endsTurn 0 0 .recv

theorem pongTurn_run : ∃ s : Plugin 1,
    Run (step serdeJson (handlerCfg chatCfg)) (configured cityCrates chatCfg) (new : Plugin 1)
      pongTurn s ∧
    s.requests 0 = some ⟨"fan", "hi", none, .finished (some (.text "pong"))⟩ ∧
    s.asksMade 0 = [⟨"wx-wx1-fan", "fan", "hi"⟩] ∧
    s.exchange (0, .reply) = some (.asked (some (.ok "pong"))) := by
  have whole : (exec (step serdeJson (handlerCfg chatCfg)) (new : Plugin 1) pongTurn).any
      (fun s => decide (s.requests 0 = some ⟨"fan", "hi", none, .finished (some (.text "pong"))⟩ ∧
        s.asksMade 0 = [⟨"wx-wx1-fan", "fan", "hi"⟩] ∧
        s.pool.calls (0, .reply) = some (.returned (.ok 0)) ∧
        s.askResult 0 (0, .reply) = some (some (.ok "pong")))) = true := by
    decide +kernel
  have upToRoute : (exec (step serdeJson (handlerCfg chatCfg)) (new : Plugin 1)
      (pongTurn.take 5)).any (fun s => decide (s.requests 0 =
        some ⟨"fan", "hi", none, .routing false⟩)) = true := by
    decide +kernel
  obtain ⟨s, hrun, hs⟩ := (Option.any_eq_true _ _).mp whole
  obtain ⟨hr, asks, out, answered⟩ := of_decide_eq_true hs
  obtain ⟨m, hm, hroute⟩ := (Option.any_eq_true _ _).mp upToRoute
  have hq := of_decide_eq_true hroute
  have other : ∀ a ∈ pongTurn.take 5 ++ pongTurn.drop 6, a.classifies = false := by decide
  have quiet : ∀ {bs : List Act}, (∀ a ∈ bs, a ∈ pongTurn.take 5 ++ pongTurn.drop 6) →
      ∀ a ∈ bs, ∀ s : Plugin 1, s.configured cityCrates chatCfg a :=
    fun sub a ha _ => configured_of_not_classifies (other a (sub a ha))
  refine ⟨s, ?_, hr, asks, ?_⟩
  · have inOrder : Run (step serdeJson (handlerCfg chatCfg)) anyStep (new : Plugin 1)
        (pongTurn.take 5 ++ .route 0 .fallbackToLlm :: pongTurn.drop 6) s :=
      run_iff_exec.mpr hrun
    obtain ⟨m', before, after⟩ := inOrder.split
    obtain rfl := before.deterministic (run_iff_exec.mpr hm)
    cases after with
    | cons _ routed after =>
        refine (before.guard (quiet fun a ha => List.mem_append_left _ ha)).append
          (.cons ?_ routed (after.guard (quiet fun a ha => List.mem_append_right _ ha)))
        intro r classified hr phase
        obtain rfl := Option.some.inj (hq.symm.trans hr)
        cases phase
        exact ⟨rfl, unanswered, .fallbackToLlm, (fun h => by cases h), rfl, rfl⟩
  · rw [exchange, out]
    dsimp only
    rw [answered]
    rfl

theorem request_computes_payload_pong : ∃ (s : Plugin 1) (start left : Plugin 1)
    (w : Surroundings) (others : List CacheRun.Act),
    computeTextPayload cityCrates chatCfg start.cacheView "wx-wx1-fan" "fan" "hi" none w others =
      some ⟨.returned (.text "pong"), [⟨"wx-wx1-fan", "fan", "hi"⟩], left.cacheView⟩ ∧
    s.exchange (0, .reply) = some (.asked (some (.ok "pong"))) ∧
    w.bridge = .asked (some (.ok "pong")) := by
  obtain ⟨s, run, hr, asks, met⟩ := pongTurn_run
  obtain ⟨start, left, w, others, answer, _, called, payload, _, bridge⟩ :=
    request_computes_payload run hr rfl
  refine ⟨s, start, left, w, others, ?_, met, bridge _ met⟩
  cases answer with
  | news _ => cases payload
  | text text =>
      cases payload
      rw [asks] at called
      exact called

end
end Plugin
end EvoclawPluginWechat
