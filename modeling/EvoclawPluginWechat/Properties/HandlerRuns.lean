import EvoclawPluginWechat.Core.Handler
import EvoclawPluginWechat.Properties.InboundParsing
import EvoclawPluginWechat.Properties.ModeGate
import EvoclawPluginWechat.Properties.RequestSteps
import EvoclawPluginWechat.Properties.RetryCost

/-!
Runs of the whole handler. A request that has its response has the one that `handle_message` by
itself gives it, in the state in which it came, once the plugin's turn for its text is over.
-/
namespace EvoclawPluginWechat
open Transition

/-- The request is the one for the text of this message. -/
structure Request.Bears (r : Request) (inbound : InboundXml) : Prop where
  fromUser : r.fromUser = inbound.fromUserName
  userMsg : inbound.userMsg = some r.userMsg
  msgId : r.msgId = inbound.msgId

namespace Handler
open Webhook
variable {n : Nat}

section
variable (crates : CryptoCrates) (xmlReader : QuickXml) (cfg : Config) (aesKey : Option AesKey)

def readings (m : Handler n) (p : Post) : Readings := ⟨p.wall, m.plugin.now, m.plugin.now⟩

def screened (m : Handler n) (p : Post) : Outcome Decision × NonceCache :=
  screen crates (m.state cfg aesKey) (m.readings p) p.query p.body

/-- The request is handled by itself, from this state. -/
def alone (m : Handler n) (p : Post) (computeText : ComputeText) (draws : ReplyDraws) :
    Outcome Response :=
  (handleMessage crates xmlReader computeText (m.state cfg aesKey) (m.readings p) draws p.query
    p.body).1

/-- The message that the request has for `compute_text_payload`. -/
def Dispatches (m : Handler n) (p : Post) (inbound : InboundXml) (isEncrypted : Bool) : Prop :=
  ∃ xml, (m.screened crates cfg aesKey p).1 = .returned (.dispatched xml isEncrypted) ∧
    parseInbound xmlReader xml = .ok inbound

end

section
variable {crates : CryptoCrates} {xmlReader : QuickXml} {cfg : Config} {aesKey : Option AesKey}
  {m : Handler n} {p : Post} {xml : String} {inbound : InboundXml} {isEncrypted : Bool}

theorem alone_finish
    (dispatched : (m.screened crates cfg aesKey p).1 = .returned (.dispatched xml isEncrypted))
    (parsed : parseInbound xmlReader xml = .ok inbound) (s : Handler n)
    (computeText : ComputeText) (draws : ReplyDraws) :
    m.alone crates xmlReader cfg aesKey p computeText draws = .returned
      (finish crates (s.state cfg aesKey) draws inbound isEncrypted
        (payload cfg computeText inbound)) := by
  rw [alone, handleMessage_dispatched dispatched, dispatchAndReply_eq, parsed]
  rfl

theorem alone_rejected {response : Response}
    (rejected : (m.screened crates cfg aesKey p).1 = .returned (.rejected response))
    (computeText : ComputeText) (draws : ReplyDraws) :
    m.alone crates xmlReader cfg aesKey p computeText draws = .returned response := by
  have split : m.screened crates cfg aesKey p =
      (.returned (.rejected response), (m.screened crates cfg aesKey p).2) := Prod.ext rejected rfl
  rw [screened] at split
  rw [alone, handleMessage, split]

end

variable [NeZero n]

section
variable (crates : CryptoCrates) (xmlReader : QuickXml) (W : Wire) (cfg : Config)
  (aesKey : Option AesKey) (allow : Handler n → Act → Prop) (as : List Act)

structure Came (s : Handler n) (t : TaskId) (m : Handler n) (p : Post) : Prop where
  takes : ∃ draws, TakesIn (step crates xmlReader W cfg aesKey) allow new as
    (.post t p.query p.body draws) m
  wall : p.wall = m.plugin.wall
  posts : s.posts t = some p

/-- The plugin has the request's text. -/
structure Held (s : Handler n) (t : TaskId) (m : Handler n) (p : Post) (inbound : InboundXml)
    (isEncrypted : Bool) (r : Request) : Prop where
  came : Came crates xmlReader W cfg aesKey allow as s t m p
  dispatches : m.Dispatches crates xmlReader cfg aesKey p inbound isEncrypted
  texts : s.texts t = some (inbound, isEncrypted)
  requests : s.plugin.requests t = some r
  bears : r.Bears inbound

/-- The turn of the request has ended, and it has been answered in this state. -/
structure Replied (t : TaskId) (m : Handler n) (p : Post) (r : Request) (reply : ReplyPayload)
    (response : Response) (m' : Handler n) (article : NewsArticle) (draws : ReplyDraws) :
    Prop where
  ended : r.phase = .finished (some reply)
  takes : TakesIn (step crates xmlReader W cfg aesKey) allow new as (.respond t article draws) m'
  requests : m'.plugin.requests t = some r
  gives : m.alone crates xmlReader cfg aesKey p (fun _ _ _ => reply.withArticle article) draws =
    .returned response

/-- How far a request has come. -/
inductive Course (s : Handler n) (t : TaskId) : Prop
  | fresh : s.posts t = none → s.texts t = none → s.plugin.requests t = none →
      s.responses t = none → Course s t
  | closed {m : Handler n} {p : Post} : Came crates xmlReader W cfg aesKey allow as s t m p →
      (m.screened crates cfg aesKey p).1 = .panicked → s.texts t = none →
      s.plugin.requests t = none → s.responses t = none → Course s t
  /-- Without the plugin. -/
  | answered {m : Handler n} {p : Post} {response : Response} {draws : ReplyDraws} :
      Came crates xmlReader W cfg aesKey allow as s t m p → s.texts t = none →
      s.plugin.requests t = none → s.responses t = some response →
      (∀ computeText, m.alone crates xmlReader cfg aesKey p computeText draws =
        .returned response) → Course s t
  | turn {m : Handler n} {p : Post} {inbound : InboundXml} {isEncrypted : Bool} {r : Request} :
      Held crates xmlReader W cfg aesKey allow as s t m p inbound isEncrypted r →
      s.responses t = none → Course s t
  | replied {m m' : Handler n} {p : Post} {inbound : InboundXml} {isEncrypted : Bool}
      {r : Request} {reply : ReplyPayload} {response : Response} {article : NewsArticle}
      {draws : ReplyDraws} :
      Held crates xmlReader W cfg aesKey allow as s t m p inbound isEncrypted r →
      s.responses t = some response →
      Replied crates xmlReader W cfg aesKey allow as t m p r reply response m' article draws →
      Course s t

end

section
variable {crates : CryptoCrates} {xmlReader : QuickXml} {W : Wire} {cfg : Config}
  {aesKey : Option AesKey} {allow : Handler n → Act → Prop} {as : List Act} {s s' : Handler n}
  {a : Act} {t : TaskId}

structure SameAt (s s' : Handler n) (t : TaskId) : Prop where
  posts : s'.posts t = s.posts t
  texts : s'.texts t = s.texts t
  requests : s'.plugin.requests t = s.plugin.requests t
  responses : s'.responses t = s.responses t

omit [NeZero n] in
theorem SameAt.trans {s₁ : Handler n} (h : SameAt s s₁ t) (k : SameAt s₁ s' t) : SameAt s s' t :=
  ⟨k.posts.trans h.posts, k.texts.trans h.texts, k.requests.trans h.requests,
    k.responses.trans h.responses⟩

theorem Came.snoc {m : Handler n} {p : Post}
    (h : Came crates xmlReader W cfg aesKey allow as s t m p) (posts : s'.posts t = s.posts t) :
    Came crates xmlReader W cfg aesKey allow (as ++ [a]) s' t m p := by
  obtain ⟨draws, takes⟩ := h.takes
  exact ⟨⟨draws, takes.snoc⟩, h.wall, posts.trans h.posts⟩

theorem Held.snoc {m : Handler n} {p : Post} {inbound : InboundXml} {isEncrypted : Bool}
    {r r' : Request} (h : Held crates xmlReader W cfg aesKey allow as s t m p inbound isEncrypted r)
    (posts : s'.posts t = s.posts t) (texts : s'.texts t = s.texts t)
    (requests : s'.plugin.requests t = some r') (bears : r'.Bears inbound) :
    Held crates xmlReader W cfg aesKey allow (as ++ [a]) s' t m p inbound isEncrypted r' :=
  ⟨h.came.snoc posts, h.dispatches, texts.trans h.texts, requests, bears⟩

theorem Replied.snoc {m m' : Handler n} {p : Post} {r : Request} {reply : ReplyPayload}
    {response : Response} {article : NewsArticle} {draws : ReplyDraws}
    (h : Replied crates xmlReader W cfg aesKey allow as t m p r reply response m' article draws) :
    Replied crates xmlReader W cfg aesKey allow (as ++ [a]) t m p r reply response m' article
      draws :=
  ⟨h.ended, h.takes.snoc, h.requests, h.gives⟩

theorem Course.same (c : Course crates xmlReader W cfg aesKey allow as s t)
    (same : SameAt s s' t) : Course crates xmlReader W cfg aesKey allow (as ++ [a]) s' t := by
  obtain ⟨posts, texts, requests, responses⟩ := same
  cases c with
  | fresh h1 h2 h3 h4 =>
      exact .fresh (posts.trans h1) (texts.trans h2) (requests.trans h3) (responses.trans h4)
  | closed came panicked h2 h3 h4 =>
      exact .closed (came.snoc posts) panicked (texts.trans h2) (requests.trans h3)
        (responses.trans h4)
  | answered came h2 h3 h4 gives =>
      exact .answered (came.snoc posts) (texts.trans h2) (requests.trans h3) (responses.trans h4)
        gives
  | turn held h4 =>
      exact .turn (held.snoc posts texts (requests.trans held.requests) held.bears)
        (responses.trans h4)
  | replied held h4 replied =>
      exact .replied (held.snoc posts texts (requests.trans held.requests) held.bears)
        (responses.trans h4) replied.snoc

omit [NeZero n] in
theorem respond_responses (s : Handler n) (t t' : TaskId) (response : Response) :
    (s.respond t response).responses t' = if t' = t then some response else s.responses t' := by
  simp only [respond, Function.update_apply]

omit [NeZero n] in
theorem respond_elsewhere (s : Handler n) {t t' : TaskId} (response : Response) (other : t' ≠ t) :
    SameAt s (s.respond t response) t' :=
  ⟨rfl, rfl, rfl, (respond_responses s t t' response).trans (if_neg other)⟩

/-- The request has come and nothing else has happened to it. -/
structure Posted (crates : CryptoCrates) (xmlReader : QuickXml) (W : Wire) (cfg : Config)
    (aesKey : Option AesKey) (allow : Handler n → Act → Prop) (as : List Act) (s : Handler n)
    (t : TaskId) (m : Handler n) (p : Post) : Prop where
  came : Came crates xmlReader W cfg aesKey allow as s t m p
  texts : s.texts t = none
  requests : s.plugin.requests t = none
  responses : s.responses t = none

theorem Posted.respond {m : Handler n} {p : Post} {response : Response}
    (h : Posted crates xmlReader W cfg aesKey allow as s t m p) (draws : ReplyDraws)
    (gives : ∀ computeText, m.alone crates xmlReader cfg aesKey p computeText draws =
      .returned response) :
    Course crates xmlReader W cfg aesKey allow as (s.respond t response) t :=
  .answered ⟨h.came.takes, h.came.wall, h.came.posts⟩ h.texts h.requests
    ((respond_responses s t t response).trans (if_pos rfl)) gives

theorem Course.plugin {b : Plugin.Act} {plugin : Plugin n}
    (c : Course crates xmlReader W cfg aesKey allow as s t)
    (h : s.plugin.step W (handlerCfg cfg) b = some plugin)
    (own : ∀ fromUser userMsg msgId, b ≠ .receive t fromUser userMsg msgId) :
    Course crates xmlReader W cfg aesKey allow (as ++ [a]) { s with plugin } t := by
  have turn := Plugin.turn_of_step h
  have absent : s.plugin.requests t = none → plugin.requests t = none := by
    intro absent
    cases after : plugin.requests t with
    | none => rfl
    | some q =>
        obtain ⟨_, u, msg, id, receives, _⟩ | ⟨q₀, before, _⟩ := turn.request_before after
        · exact absurd receives (own u msg id)
        · cases absent.symm.trans before
  cases c with
  | fresh h1 h2 h3 h4 => exact .fresh h1 h2 (absent h3) h4
  | closed came panicked h2 h3 h4 => exact .closed (came.snoc rfl) panicked h2 (absent h3) h4
  | answered came h2 h3 h4 gives => exact .answered (came.snoc rfl) h2 (absent h3) h4 gives
  | turn held h4 =>
      obtain ⟨phase, after, _⟩ := turn.request_after held.requests
      have ⟨fromUser, userMsg, msgId⟩ := held.bears
      exact .turn (held.snoc rfl rfl after ⟨fromUser, userMsg, msgId⟩) h4
  | @replied m m' p inbound isEncrypted r reply response article draws held h4 replied =>
      obtain ⟨phase, after, same | next⟩ := turn.request_after held.requests
      · have unchanged : { r with phase := phase } = r := by rw [same]
        rw [unchanged] at after
        exact .replied (held.snoc rfl rfl after held.bears) h4 replied.snoc
      · have unfinished := next.not_ended
        rw [replied.ended] at unfinished
        cases unfinished

theorem dispatch_course {m : Handler n} {p : Post} {xml : String} {isEncrypted : Bool}
    {draws : ReplyDraws}
    (h : s.dispatch crates xmlReader W cfg aesKey t xml isEncrypted draws = some s')
    (posted : Posted crates xmlReader W cfg aesKey allow as s t m p)
    (dispatched : (m.screened crates cfg aesKey p).1 = .returned (.dispatched xml isEncrypted)) :
    Course crates xmlReader W cfg aesKey allow as s' t ∧ ∀ t', t' ≠ t → SameAt s s' t' := by
  rw [dispatch] at h
  cases parsed : parseInbound xmlReader xml with
  | error e =>
      rw [parsed] at h
      obtain rfl := Option.some.inj h
      refine ⟨posted.respond draws fun computeText => ?_, fun t' => respond_elsewhere s _⟩
      rw [alone, handleMessage_dispatched dispatched, dispatchAndReply_eq, parsed]
  | ok inbound =>
      rw [parsed] at h
      dsimp only at h
      cases text : inbound.userMsg with
      | none =>
          rw [text] at h
          obtain rfl := Option.some.inj h
          refine ⟨posted.respond draws fun computeText => ?_, fun t' => respond_elsewhere s _⟩
          rw [alone_finish dispatched parsed s, payload_eq, text]
          rfl
      | some userMsg =>
          rw [text] at h
          obtain ⟨plugin, received, rfl⟩ := Option.map_eq_some_iff.mp h
          simp only [Plugin.step, posted.requests] at received
          obtain rfl := Option.some.inj received
          have came := posted.came
          refine ⟨.turn ⟨⟨came.takes, came.wall, came.posts⟩, ⟨xml, dispatched, parsed⟩,
              Function.update_self _ _ _, (Plugin.setRequest_requests _ t t _).trans (if_pos rfl),
              ⟨rfl, text, rfl⟩⟩ posted.responses,
            fun t' other => ⟨rfl, Function.update_of_ne other _ _, ?_, rfl⟩⟩
          exact (Plugin.setRequest_requests _ t t' _).trans (if_neg other)

theorem Course.posted {p : Post} {kept : NonceCache} {draws : ReplyDraws}
    (run : Run (step crates xmlReader W cfg aesKey) allow (new : Handler n) as s)
    (ha : allow s (.post t p.query p.body draws)) (wall : p.wall = s.plugin.wall)
    (c : Course crates xmlReader W cfg aesKey allow as s t) (fresh : s.posts t = none) :
    Posted crates xmlReader W cfg aesKey allow (as ++ [.post t p.query p.body draws])
      { s with nonceCache := kept, posts := Function.update s.posts t (some p) } t s p := by
  cases c with
  | fresh _ texts requests responses =>
      exact ⟨⟨⟨draws, run.takesIn ha⟩, wall, Function.update_self _ _ _⟩, texts, requests,
        responses⟩
  | closed came _ _ _ _ | answered came _ _ _ _ => cases fresh.symm.trans came.posts
  | turn held _ | replied held _ _ => cases fresh.symm.trans held.came.posts

theorem post_course {q : WebhookQuery} {body : String} {draws : ReplyDraws}
    (run : Run (step crates xmlReader W cfg aesKey) allow (new : Handler n) as s)
    (ha : allow s (.post t q body draws)) (c : Course crates xmlReader W cfg aesKey allow as s t)
    (h : s.step crates xmlReader W cfg aesKey (.post t q body draws) = some s') :
    Course crates xmlReader W cfg aesKey allow (as ++ [.post t q body draws]) s' t ∧
      ∀ t', t' ≠ t → SameAt s s' t' := by
  simp only [step] at h
  cases fresh : s.posts t with
  | some p =>
      rw [fresh] at h
      cases h
  | none =>
      rw [fresh] at h
      dsimp only at h
      let p : Post := ⟨s.plugin.wall, 0, q, body⟩
      let s₁ : Handler n := { s with
        nonceCache := (s.screened crates cfg aesKey p).2
        posts := Function.update s.posts t (some p) }
      have posted : Posted crates xmlReader W cfg aesKey allow (as ++ [.post t q body draws]) s₁ t
          s p := c.posted (p := p) run ha rfl fresh
      have elsewhere : ∀ t', t' ≠ t → SameAt s s₁ t' := fun t' other =>
        ⟨Function.update_of_ne other _ _, rfl, rfl, rfl⟩
      split at h
      · next panicked =>
          obtain rfl := Option.some.inj h
          exact ⟨.closed posted.came panicked posted.texts posted.requests posted.responses,
            elsewhere⟩
      · next response rejected =>
          obtain rfl := Option.some.inj h
          have rejected : (s.screened crates cfg aesKey p).1 = .returned (.rejected response) :=
            rejected
          exact ⟨posted.respond draws (alone_rejected rejected · draws),
            fun t' other => (elsewhere t' other).trans (respond_elsewhere s₁ response other)⟩
      · next xml isEncrypted dispatched =>
          obtain ⟨course, same⟩ := dispatch_course h posted dispatched
          exact ⟨course, fun t' other => (elsewhere t' other).trans (same t' other)⟩

theorem respond_course {article : NewsArticle} {draws : ReplyDraws}
    (run : Run (step crates xmlReader W cfg aesKey) allow (new : Handler n) as s)
    (ha : allow s (.respond t article draws))
    (c : Course crates xmlReader W cfg aesKey allow as s t)
    (h : s.step crates xmlReader W cfg aesKey (.respond t article draws) = some s') :
    Course crates xmlReader W cfg aesKey allow (as ++ [.respond t article draws]) s' t ∧
      ∀ t', t' ≠ t → SameAt s s' t' := by
  simp only [step] at h
  split at h
  · next inbound isEncrypted u msg id reply texts waits requests =>
      obtain rfl := Option.some.inj h
      refine ⟨?_, fun t' => respond_elsewhere s _⟩
      cases c with
      | fresh _ none' _ _ | closed _ _ none' _ _ | answered _ none' _ _ _ =>
          cases none'.symm.trans texts
      | replied _ sent _ => cases waits.symm.trans sent
      | turn held _ =>
          cases held.texts.symm.trans texts
          obtain ⟨xml, dispatched, parsed⟩ := held.dispatches
          cases held.requests.symm.trans requests
          refine .replied (held.snoc rfl rfl requests held.bears)
            ((respond_responses s t t _).trans (if_pos rfl))
            ⟨rfl, run.takesIn ha, requests, ?_⟩
          rw [alone_finish dispatched parsed s, payload_eq, held.bears.userMsg]
          rfl
  · cases h

theorem step_plugin {b : Plugin.Act} (own : ∀ t u msg id, b ≠ .receive t u msg id) :
    s.step crates xmlReader W cfg aesKey (.plugin b) =
      (s.plugin.step W (handlerCfg cfg) b).map fun plugin => { s with plugin } := by
  cases b with
  | receive t u msg id => exact absurd rfl (own t u msg id)
  | _ => rfl

theorem plugin_eq_some {b : Plugin.Act}
    (h : s.step crates xmlReader W cfg aesKey (.plugin b) = some s') :
    (∀ t u msg id, b ≠ .receive t u msg id) ∧
      ∃ plugin, s.plugin.step W (handlerCfg cfg) b = some plugin ∧ { s with plugin } = s' := by
  have own : ∀ t u msg id, b ≠ .receive t u msg id := by
    rintro t u msg id rfl
    cases h
  rw [step_plugin own] at h
  exact ⟨own, Option.map_eq_some_iff.mp h⟩

theorem course_step
    (run : Run (step crates xmlReader W cfg aesKey) allow (new : Handler n) as s)
    (hs : ∀ t, Course crates xmlReader W cfg aesKey allow as s t) (ha : allow s a)
    (h : s.step crates xmlReader W cfg aesKey a = some s') (t : TaskId) :
    Course crates xmlReader W cfg aesKey allow (as ++ [a]) s' t := by
  have one : ∀ t', (Course crates xmlReader W cfg aesKey allow (as ++ [a]) s' t' ∧
      ∀ t, t ≠ t' → SameAt s s' t) →
      Course crates xmlReader W cfg aesKey allow (as ++ [a]) s' t := by
    rintro t' ⟨course, elsewhere⟩
    by_cases same : t = t'
    · exact same ▸ course
    · exact (hs t).same (elsewhere t same)
  cases a with
  | plugin b =>
      obtain ⟨own, plugin, hp, rfl⟩ := plugin_eq_some h
      exact (hs t).plugin hp (own t)
  | gcNonces =>
      obtain rfl := Option.some.inj h
      exact (hs t).same ⟨rfl, rfl, rfl, rfl⟩
  | respond t' article draws => exact one t' (respond_course run ha (hs t') h)
  | post t' q body draws => exact one t' (post_course run ha (hs t') h)

theorem course_run
    (run : Run (step crates xmlReader W cfg aesKey) allow (new : Handler n) as s) (t : TaskId) :
    Course crates xmlReader W cfg aesKey allow as s t := by
  refine run.history (P := fun as s => ∀ t, Course crates xmlReader W cfg aesKey allow as s t)
    (fun as m a s' hm before ha h => course_step before hm ha h) ?_ t
  exact fun _ => .fresh rfl rfl rfl rfl

section
variable (crates xmlReader W cfg aesKey)

/-- What a step of the handler does to the plugin. -/
def onPlugin (s : Handler n) : Act → List Plugin.Act
  | .plugin b => [b]
  | .post t q body _ =>
      match (screen crates (s.state cfg aesKey) ⟨s.plugin.wall, s.plugin.now, s.plugin.now⟩ q
        body).1 with
      | .returned (.dispatched xml _) =>
          match parseInbound xmlReader xml with
          | .ok inbound => inbound.userMsg.toList.map fun userMsg =>
              .receive t inbound.fromUserName userMsg inbound.msgId
          | .error _ => []
      | _ => []
  | _ => []

def pluginActs (s : Handler n) (as : List Act) : List Plugin.Act :=
  project (step crates xmlReader W cfg aesKey) (onPlugin crates xmlReader cfg aesKey) s as

end

theorem plugin_of_step (h : s.step crates xmlReader W cfg aesKey a = some s') :
    s.onPlugin crates xmlReader cfg aesKey a = [] ∧ s'.plugin = s.plugin ∨
      ∃ b, s.onPlugin crates xmlReader cfg aesKey a = [b] ∧
        s.plugin.step W (handlerCfg cfg) b = some s'.plugin ∧
        (a = .plugin b ∨ ∃ t u msg id, b = .receive t u msg id) := by
  cases a with
  | plugin b =>
      obtain ⟨_, plugin, hp, rfl⟩ := plugin_eq_some h
      exact .inr ⟨b, rfl, hp, .inl rfl⟩
  | gcNonces =>
      obtain rfl := Option.some.inj h
      exact .inl ⟨rfl, rfl⟩
  | respond t article draws =>
      simp only [step] at h
      split at h
      · obtain rfl := Option.some.inj h
        exact .inl ⟨rfl, rfl⟩
      · cases h
  | post t q body draws =>
      simp only [step] at h
      split at h
      · cases h
      · split at h
        · next panicked =>
            obtain rfl := Option.some.inj h
            exact .inl ⟨by simp only [onPlugin, panicked], rfl⟩
        · next rejected =>
            obtain rfl := Option.some.inj h
            exact .inl ⟨by simp only [onPlugin, rejected], rfl⟩
        · next dispatched =>
            simp only [dispatch] at h
            split at h
            · next bad =>
                obtain rfl := Option.some.inj h
                exact .inl ⟨by simp only [onPlugin, dispatched, bad], rfl⟩
            · next inbound parsed =>
                split at h
                · next userMsg said =>
                    obtain ⟨plugin, received, rfl⟩ := Option.map_eq_some_iff.mp h
                    refine .inr ⟨_, ?_, received, .inr ⟨_, _, _, _, rfl⟩⟩
                    simp only [onPlugin, dispatched, parsed, said, Option.toList_some,
                      List.map_cons, List.map_nil]
                · next silent =>
                    obtain rfl := Option.some.inj h
                    refine .inl ⟨?_, rfl⟩
                    simp only [onPlugin, dispatched, parsed, silent, Option.toList_none,
                      List.map_nil]

/-- A run of the handler is a run of the plugin in it. -/
theorem plugin_run {allowed : Plugin n → Plugin.Act → Prop}
    (own : ∀ s b, allow s (.plugin b) → allowed s.plugin b)
    (receives : ∀ s t u msg id, allowed s (.receive t u msg id))
    (run : Run (step crates xmlReader W cfg aesKey) allow (new : Handler n) as s) :
    Run (Plugin.step W (handlerCfg cfg)) allowed (Plugin.new : Plugin n)
      (pluginActs crates xmlReader W cfg aesKey (new : Handler n) as) s.plugin := by
  refine run.project_run (P := fun _ => True) Handler.plugin (fun _ _ _ _ _ _ => trivial)
    (fun s a s' _ ha hm => ?_) trivial
  obtain ⟨none, same⟩ | ⟨b, one, hb, rfl | ⟨_, _, _, _, rfl⟩⟩ := plugin_of_step hm
  · rw [none, same]
    exact .nil _
  · rw [one]
    exact .cons (own s b ha) hb (.nil _)
  · rw [one]
    exact .cons (receives ..) hb (.nil _)

theorem plugin_reachable
    (run : Run (step crates xmlReader W cfg aesKey) allow (new : Handler n) as s) :
    Reachable (Plugin.step W (handlerCfg cfg)) anyStep (· = (Plugin.new : Plugin n)) s.plugin := by
  have all : ∀ (s : Plugin n) (b : Plugin.Act), anyStep s b := fun _ _ => trivial
  exact ⟨_, _, rfl, plugin_run (fun s b _ => all s.plugin b) (fun s _ _ _ _ => all s _) run⟩

/-- A run of the plugin that receives nothing is a run of the handler. -/
theorem run_of_plugin {allowed : Plugin n → Plugin.Act → Prop} {bs : List Plugin.Act}
    {plugin : Plugin n} (allows : ∀ s b, allowed s.plugin b → allow s (.plugin b))
    (own : ∀ b ∈ bs, ∀ t u msg id, b ≠ .receive t u msg id)
    (run : Run (Plugin.step W (handlerCfg cfg)) allowed s.plugin bs plugin) :
    Run (step crates xmlReader W cfg aesKey) allow s (bs.map .plugin) { s with plugin } := by
  generalize before : s.plugin = start at run
  induction run generalizing s with
  | nil _ =>
      subst before
      exact .nil s
  | @cons start m plugin b bs ha hb _ ih =>
      subst before
      have rest := ih (s := { s with plugin := m })
        (fun b hb => own b (List.mem_cons_of_mem _ hb)) rfl
      refine .cons (allows s b ha) ?_ rest
      rw [step_plugin (own b List.mem_cons_self), hb]
      rfl

end

def signedText (crates : CryptoCrates) (content : String) : Post where
  wall := 0
  lag := 0
  query := ⟨some (Signature.plainSignature crates "token" "0" "n-1"), some "0", some "n-1", none,
    none⟩
  body := buildTextReply 0 "gh_abc" "fan" content

omit [NeZero n] in
theorem screened_signedText (crates : CryptoCrates) (content : String) :
    ((new : Handler n).screened crates chatCfg none (signedText crates content)).1 =
      .returned (.dispatched (signedText crates content).body false) := by
  have fresh : (checkReplay (.new ∅) 0 0 0 "0" "n-1").1 = .returned (.ok ()) := by decide
  simp only [screened, readings, screen, signedText, state, new, Plugin.new]
  split
  · next h => rw [h] at fresh; cases fresh
  · next h => rw [h] at fresh; cases fresh
  · simp only [decodeBody, chatCfg, Signature.verify_self, if_true]

theorem step_signedText (crates : CryptoCrates) (xmlReader : QuickXml) (W : Wire)
    (draws : ReplyDraws) {content : String} (whole : lastSection content = content)
    (said : isBlank content = false) : ∃ s : Handler n,
    (new : Handler n).step crates xmlReader W chatCfg none
        (.post 0 (signedText crates content).query (signedText crates content).body draws) =
      some s ∧
    s.plugin = (Plugin.new : Plugin n).setRequest 0 (some ⟨"fan", content, none, .dispatched⟩) ∧
    (∃ inbound, s.texts 0 = some (inbound, false)) ∧ s.responses 0 = none ∧
    s.posts 0 = some (signedText crates content) := by
  obtain ⟨extra, parsed⟩ := parseInbound_textReply xmlReader 0 "gh_abc" "fan" content
  have sender : lastSection "fan" = "fan" := by decide
  rw [whole, sender] at parsed
  have dispatched := screened_signedText (n := n) crates content
  simp only [step, new]
  split
  · next panicked => cases dispatched.symm.trans panicked
  · next rejected => cases dispatched.symm.trans rejected
  · next xml isEncrypted dispatched' =>
      cases dispatched.symm.trans dispatched'
      have body : (signedText crates content).body = buildTextReply 0 "gh_abc" "fan" content := rfl
      rw [dispatch, body, parsed]
      simp only [InboundXml.userMsg, Option.getD_some, said, and_self, if_true, Plugin.step,
        Plugin.new, Option.map_some]
      exact ⟨_, rfl, rfl, ⟨_, rfl⟩, rfl, rfl⟩

end Handler
end EvoclawPluginWechat
