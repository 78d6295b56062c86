import EvoclawPluginWechat.Properties.FinishedRequests
import EvoclawPluginWechat.Properties.ReplyIsolation
import EvoclawPluginWechat.Properties.ReplyLines

/-!
Where the texts come from that go to the fans. A text is found for a request itself: by the
router, as the fallback, or on a line that a subprocess wrote in its conversation. Or it stood
in the reply cache when the request looked, left there by an earlier request with the same
cache key, for which it had been found.
-/
namespace EvoclawPluginWechat
open Transition

/-- The text that the request is about to go away with. -/
def RequestPhase.text : RequestPhase → Option String
  | .computed (.text text) | .leaving (some (.text text))
  | .finished (some (.text text)) => some text
  | _ => none

/-- A request computes a text on its way from a cache lookup that found nothing. -/
theorem RequestPhase.Next.computes {p p' : RequestPhase} {payload : ReplyPayload} (h : p.Next p')
    (computed : p' = .computed payload) : p.text = none ∧ p ≠ .entered := by
  cases h with
  | route | unanswered | answered => exact ⟨rfl, RequestPhase.noConfusion⟩
  | _ => cases computed

namespace Worker
variable {ι : Type} [DecidableEq ι] {W : Wire} {w w' : Worker ι} {a : Act ι}

/-- The reader has read this text in the conversation. -/
def Read (W : Wire) (w : Worker ι) (cid text : String) : Prop :=
  ∃ k < w.delivered, ∃ out msg, w.answers[k]? = some out ∧ W.decode out = some msg ∧
    msg.conversationId = cid ∧ msg.text = text

/-- What is in a channel has been read. -/
structure Heard (W : Wire) (w : Worker ι) : Prop where
  sound : w.bridge.Sound
  read : ∀ i b text, w.bridge.asks i = some b → b.cell = .sent text →
    w.Read W b.msg.conversationId text

omit [DecidableEq ι] in
theorem heard_new : Heard W (new : Worker ι) := ⟨Bridge.sound_new, fun _ _ _ h => by cases h⟩

theorem Move.read_after (m : Move W w a w') {cid text : String} (h : w.Read W cid text) :
    w'.Read W cid text := by
  obtain ⟨k, below, out, msg, hk, rest⟩ := h
  cases m with
  | bridge _ _ | exit => exact ⟨k, below, out, msg, hk, rest⟩
  | answer _ _ _ _ _ =>
      refine ⟨k, below, out, msg, ?_, rest⟩
      change (w.answers ++ _)[k]? = _
      rw [List.getElem?_append_left (List.getElem?_eq_some_iff.mp hk).1, hk]
  | deliver _ _ => exact ⟨k, Nat.lt_succ_of_lt below, out, msg, hk, rest⟩

theorem heard_move (hs : Heard W w) (m : Move W w a w') : Heard W w' := by
  have kept : ∀ {i : ι} {b : Ask} {text : String}, (∃ c, w.bridge.asks i = some c ∧ c.msg = b.msg ∧
      c.cell = .sent text) → w'.Read W b.msg.conversationId text := by
    rintro i b text ⟨c, hc, same, sent⟩
    exact same ▸ m.read_after (hs.read i c text hc sent)
  have m' := m
  cases m with
  | bridge quiet move =>
      refine ⟨Bridge.sound_move hs.sound move, fun i b text hb sent => ?_⟩
      obtain old | ⟨out, _, read, _⟩ := move.sent_before hs.sound.linked hb sent
      · exact kept old
      · exact absurd read (quiet out)
  | answer _ _ _ _ _ => exact ⟨hs.sound, fun i b text hb sent => kept ⟨b, hb, rfl, sent⟩⟩
  | deliver hout move =>
      refine ⟨Bridge.sound_move hs.sound move, fun i b text hb sent => ?_⟩
      obtain old | ⟨out, msg, read, decoded, same, cid, _⟩ :=
        move.sent_before hs.sound.linked hb sent
      · exact kept old
      · cases read
        exact ⟨w.delivered, Nat.lt_succ_self _, _, msg, hout, decoded, cid, same⟩
  | exit =>
      refine ⟨Bridge.sound_move hs.sound (.breakPipe (W := W)), fun i b text hb sent => ?_⟩
      exact kept ⟨b, hb, rfl, sent⟩

end Worker

namespace Plugin
variable {n : Nat} {W : Wire} {cfg : HandlerCfg} {s s' : Plugin n} {t : TaskId} {r r' : Request}

/-- How a step comes to a text for this request. -/
inductive Source (cfg : HandlerCfg) (s : Plugin n) (a : Act) (t : TaskId) (r : Request) :
    String → Prop
  | routed {text : String} : a = .route t (.text text) → Source cfg s a t r (cfg.capReplyText text)
  | fallback : Source cfg s a t r (cfg.capReplyText cfg.fallback)
  | answered {b : BridgeId} {text : String} : s.askResult b (t, .reply) = some (some (.ok text)) →
      isBlank text = false → Source cfg s a t r (cfg.capReplyText text)
  | cached {key text : String} : a = .lookupReply t → r.phase = .entered →
      r.cacheKey = some key →
      (lookupCachedReply s.replies s.now key).1 = .returned (some text) →
      Source cfg s a t r text

theorem afterAsk_text {result : Option (Except PluginError String)} {stage : Stage} {text : String}
    (h : (afterAsk cfg result stage).text = some text) :
    text = cfg.capReplyText cfg.fallback ∨ stage = .reply ∧ ∃ reply, result = some (.ok reply) ∧
      isBlank reply = false ∧ text = cfg.capReplyText reply := by
  cases stage with
  | classify => cases h
  | reply =>
      obtain rfl : cfg.capReplyText (answer cfg result) = text := Option.some.inj h
      unfold answer
      split
      · next reply =>
          cases blank : isBlank reply with
          | true => exact .inl rfl
          | false => exact .inr ⟨rfl, reply, rfl, blank, rfl⟩
      · exact .inl rfl
      · exact .inl rfl

/-- The request that a text belongs to had it before, or the step found it for the request. -/
def Found (cfg : HandlerCfg) (s : Plugin n) (a : Act) (t : TaskId) (r' : Request)
    (text : String) : Prop :=
  ∃ r, s.requests t = some r ∧ r' = { r with phase := r'.phase } ∧
    (r.phase.text = some text ∨ Source cfg s a t r text)

theorem Found.setPhase {s₁ : Plugin n} {a : Act} {t' : TaskId} {phase : RequestPhase}
    {text : String}
    (requests : s₁.requests = s.requests)
    (own : t = t' → ∀ r, s.requests t' = some r → phase.text = some text →
      r.phase.text = some text ∨ Source cfg s a t r text)
    (hr : (s₁.setPhase t' phase).requests t = some r') (out : r'.phase.text = some text) :
    Found cfg s a t r' text := by
  rw [setPhase_requests, requests] at hr
  split at hr
  · next same =>
      obtain ⟨r, hr₀, rfl⟩ := Option.map_eq_some_iff.mp hr
      exact ⟨r, same ▸ hr₀, rfl, own same r hr₀ out⟩
  · exact ⟨r', hr, rfl, .inl out⟩

theorem Found.silent {s₁ : Plugin n} {a : Act} {t' : TaskId} {phase : RequestPhase} {text : String}
    (requests : s₁.requests = s.requests) (none : phase.text = none)
    (hr : (s₁.setPhase t' phase).requests t = some r') (out : r'.phase.text = some text) :
    Found cfg s a t r' text :=
  .setPhase requests (fun _ _ _ h => by cases none.symm.trans h) hr out

theorem Found.serial {op : ConvSerializer.Act} {a : Act} {t' : TaskId} {phase : RequestPhase}
    {text : String} (none : phase.text = none)
    (h : ((s.runSerializer op).map fun s => s.setPhase t' phase) = some s')
    (hr : s'.requests t = some r') (out : r'.phase.text = some text) : Found cfg s a t r' text := by
  obtain ⟨s₁, h₁, rfl⟩ := Option.map_eq_some_iff.mp h
  obtain ⟨ser, hser, rfl⟩ := runSerializer_eq_some.mp h₁
  exact .silent rfl none hr out

theorem Found.lookupReply {q : Request} {t' : TaskId} {text : String}
    (hq : s.requests t' = some q) (entered : q.phase = .entered)
    (hr : (s.lookupReply t' q).requests t = some r') (out : r'.phase.text = some text) :
    Found cfg s (.lookupReply t') t r' text := by
  unfold Plugin.lookupReply at hr
  split at hr
  · exact .silent rfl rfl hr out
  · next key hkey =>
      split at hr
      · next looked =>
          refine .setPhase rfl (fun same r hr₀ h => ?_) hr out
          obtain rfl := Option.some.inj (hq.symm.trans hr₀)
          obtain rfl := Option.some.inj h
          exact .inr (.cached (same ▸ rfl) entered hkey (congrArg Prod.fst looked))
      · exact .silent rfl rfl hr out
      · exact .silent rfl rfl hr out

theorem Found.storePayload {q : Request} {a : Act} {t' : TaskId} {payload : ReplyPayload}
    {text : String} (hq : s.requests t' = some q) (computed : q.phase = .computed payload)
    (hr : (s.storePayload t' q payload).requests t = some r') (out : r'.phase.text = some text) :
    Found cfg s a t r' text := by
  have same : ∀ r, s.requests t' = some r →
      (RequestPhase.leaving (some payload)).text = some text → r.phase.text = some text := by
    intro r hr₀ h
    obtain rfl := Option.some.inj (hq.symm.trans hr₀)
    rw [computed]
    cases payload with
    | text _ => exact h
    | news => cases h
  unfold Plugin.storePayload at hr
  split at hr
  · split at hr
    · exact .setPhase rfl (fun _ r hr₀ h => .inl (same r hr₀ h)) hr out
    · exact .silent rfl rfl hr out
  · exact .setPhase rfl (fun _ r hr₀ h => .inl (same r hr₀ h)) hr out

theorem Found.afterAsk {s₁ : Plugin n} {a : Act} {t' : TaskId} {stage : Stage}
    {result : Option (Except PluginError String)} {text : String}
    (requests : s₁.requests = s.requests)
    (asked : stage = .reply → ∀ reply, result = some (.ok reply) →
      ∃ b, s.askResult b (t', .reply) = some (some (.ok reply)))
    (hr : (s₁.setPhase t' (Plugin.afterAsk cfg result stage)).requests t = some r')
    (out : r'.phase.text = some text) : Found cfg s a t r' text := by
  refine .setPhase requests (fun same r _ h => .inr ?_) hr out
  obtain rfl | ⟨rfl, reply, answered, blank, rfl⟩ := afterAsk_text h
  · exact .fallback
  · obtain ⟨b, returned⟩ := asked rfl reply answered
    exact .answered (same ▸ returned) blank

variable [NeZero n]

theorem found_of_step {a : Act} {text : String} (h : s.step W cfg a = some s')
    (hr : s'.requests t = some r') (out : r'.phase.text = some text) : Found cfg s a t r' text := by
  have kept : s'.requests = s.requests → Found cfg s a t r' text := fun same =>
    ⟨r', same ▸ hr, rfl, .inl out⟩
  cases a with
  | tick _ | setClock _ | gcReplies =>
      cases h
      exact kept rfl
  | receive t' fromUser userMsg msgId =>
      simp only [step] at h
      split at h
      · cases h
        rw [setRequest_requests] at hr
        split at hr
        · cases hr
          cases out
        · exact ⟨r', hr, rfl, .inl out⟩
      · cases h
  | acquire t' | lockOwned t' | grant t' =>
      simp only [step] at h
      split at h
      · exact .serial rfl h hr out
      · cases h
  | lookupReply t' =>
      simp only [step] at h
      split at h
      · next hq =>
          cases h
          exact .lookupReply hq rfl hr out
      · cases h
  | classifyByAi t' =>
      simp only [step] at h
      split at h
      · obtain ⟨s₁, h₁, rfl⟩ := Option.map_eq_some_iff.mp h
        obtain ⟨p, _, rfl⟩ := runPool_eq_some.mp h₁
        exact .silent rfl rfl hr out
      · cases h
  | route t' reply =>
      simp only [step] at h
      split at h
      · split at h
        · cases h
          refine .setPhase rfl (fun same r _ h => .inr ?_) hr out
          obtain rfl := Option.some.inj h
          exact .routed (same ▸ rfl)
        · cases h
          exact .silent rfl rfl hr out
        · obtain ⟨s₁, h₁, rfl⟩ := Option.map_eq_some_iff.mp h
          obtain ⟨p, _, rfl⟩ := runPool_eq_some.mp h₁
          exact .silent rfl rfl hr out
      · cases h
  | checkedOut t' ms =>
      simp only [step] at h
      split at h
      · unfold startAsk at h
        split at h
        · obtain ⟨s₁, h₁, rfl⟩ := Option.map_eq_some_iff.mp h
          obtain ⟨w, _, rfl⟩ := runWorker_eq_some.mp h₁
          exact .silent rfl rfl hr out
        · cases h
          exact .afterAsk rfl (fun _ _ failed => by cases failed) hr out
        · cases h
      · cases h
  | finishAsk t' =>
      simp only [step] at h
      split at h
      · obtain ⟨result, returned, rfl⟩ := Option.map_eq_some_iff.mp h
        refine .afterAsk rfl (fun same reply answered => ?_) hr out
        subst same answered
        exact ⟨_, returned⟩
      · cases h
  | storeReply t' =>
      simp only [step] at h
      split at h
      · next hq =>
          cases h
          exact .storePayload hq rfl hr out
      · cases h
  | release t' =>
      simp only [step] at h
      split at h
      · next payload hq =>
          obtain ⟨s₁, h₁, rfl⟩ := Option.map_eq_some_iff.mp h
          obtain ⟨ser, hser, rfl⟩ := runSerializer_eq_some.mp h₁
          refine .setPhase (s := s) rfl (fun _ r hr₀ h => .inl ?_) hr out
          obtain rfl := Option.some.inj (hq.symm.trans hr₀)
          cases payload with
          | none => cases h
          | some payload =>
              cases payload with
              | text _ => exact h
              | news => cases h
      · cases h
  | disconnect t' =>
      simp only [step] at h
      split at h
      · unfold disconnect at h
        split at h
        · exact .serial rfl h hr out
        · obtain ⟨s₁, h₁, rfl⟩ := Option.map_eq_some_iff.mp h
          obtain ⟨p, _, rfl⟩ := runPool_eq_some.mp h₁
          exact .silent rfl rfl hr out
        · obtain ⟨s₁, h₁, rfl⟩ := Option.map_eq_some_iff.mp h
          obtain ⟨w, _, rfl⟩ := runWorker_eq_some.mp h₁
          exact .silent rfl rfl hr out
        · cases h
      · cases h
  | unwind t' =>
      simp only [step] at h
      split at h
      · obtain ⟨result, _, rfl⟩ := Option.map_eq_some_iff.mp h
        exact .silent rfl rfl hr out
      · cases h
  | pool op =>
      have same : ∀ {op : BridgePool.Act AskId}, s.runPool op = some s' →
          Found cfg s (.pool op) t r' text := fun h => by
        obtain ⟨p, _, rfl⟩ := runPool_eq_some.mp h
        exact ⟨r', hr, rfl, .inl out⟩
      cases op with
      | call _ | cancel _ => cases h
      | _ => exact same h
  | worker b op =>
      have same : ∀ {op : Worker.Act AskId}, s.runWorker W b op = some s' →
          s'.requests = s.requests := fun h => by
        obtain ⟨w, _, rfl⟩ := runWorker_eq_some.mp h
        rfl
      cases op with
      | bridge op =>
          cases op with
          | call _ _ => cases h
          | _ => exact kept (same h)
      | _ => exact kept (same h)
  | gcBegin _ | gcVisit _ | gcEnd =>
      obtain ⟨ser, _, rfl⟩ := runSerializer_eq_some.mp h
      exact kept rfl

/-- Where a text of this request starts: with the router, as the fallback, or as a line that
was read in the fan's conversation. -/
inductive Origin (W : Wire) (cfg : HandlerCfg) (as : List Act) (s : Plugin n) (t : TaskId)
    (cid : String) : String → Prop
  | routed {text : String} : .route t (.text text) ∈ as →
      Origin W cfg as s t cid (cfg.capReplyText text)
  | fallback : Origin W cfg as s t cid (cfg.capReplyText cfg.fallback)
  | answered {b : BridgeId} {text : String} : (s.workers b).Read W cid text →
      isBlank text = false → Origin W cfg as s t cid (cfg.capReplyText text)

/-- The run has left the text in the cache under the key, for this request, which it had been
found for. -/
def Left (W : Wire) (cfg : HandlerCfg) (as : List Act) (t : TaskId) (key text : String) : Prop :=
  ∃ pre post m r, as = pre ++ .storeReply t :: post ∧
    Run (step W cfg) anyStep (new : Plugin n) pre m ∧ m.requests t = some r ∧
    r.phase = .computed (.text text) ∧ r.cacheKey = some key ∧
    Origin W cfg pre m t (r.cid cfg) text

/-- How a request came to its text: it was found for the request, or it was the answer of the
cache when the request looked, where another request had left it before. -/
inductive Traced (W : Wire) (cfg : HandlerCfg) (as : List Act) (s : Plugin n) (t : TaskId)
    (r : Request) (text : String) : Prop
  | own : Origin W cfg as s t (r.cid cfg) text → Traced W cfg as s t r text
  | cached {pre post : List Act} {m : Plugin n} {t' : TaskId} {key : String} :
      as = pre ++ .lookupReply t :: post → Run (step W cfg) anyStep new pre m →
      r.cacheKey = some key →
      (lookupCachedReply m.replies m.now key).1 = .returned (some text) →
      t' ≠ t → Left (n := n) W cfg pre t' key text → Traced W cfg as s t r text

structure AllTraced (W : Wire) (cfg : HandlerCfg) (as : List Act) (s : Plugin n) : Prop where
  texts : ∀ t r text, s.requests t = some r → r.phase.text = some text →
    Traced W cfg as s t r text
  computed : ∀ t r text, s.requests t = some r → r.phase = .computed (.text text) →
    Origin W cfg as s t (r.cid cfg) text
  /-- The request that left the entry has gone away with its text. -/
  stored : ∀ key e, s.replies.value.lookup key = some e → ∃ t r, s.requests t = some r ∧
    r.phase.settled = some (.text e.replyText) ∧ Left (n := n) W cfg as t key e.replyText

section
variable {as : List Act} {a : Act} {text : String}

theorem heard_reachable (h : Reachable (step W cfg) anyStep (· = (new : Plugin n)) s)
    (b : BridgeId) : (s.workers b).Heard W := by
  refine h.invariant (P := fun s => (s.workers b).Heard W) ?_ fun s a s' hs _ hm => ?_
  · rintro _ rfl
    exact Worker.heard_new
  · obtain same | ⟨op, _, _, hop⟩ | ⟨_, _, _, _, _, _, _, _, hop⟩ :=
      (move_of_step hm).worker_after b
    · exact same ▸ hs
    · exact Worker.heard_move hs (Worker.move_of_step hop)
    · exact Worker.heard_move hs (Worker.move_of_step hop)

theorem read_step {b : BridgeId} {cid : String} (h : s.step W cfg a = some s')
    (read : (s.workers b).Read W cid text) : (s'.workers b).Read W cid text := by
  obtain same | ⟨op, _, _, hop⟩ | ⟨_, _, _, _, _, _, _, _, hop⟩ := (move_of_step h).worker_after b
  · exact same ▸ read
  · exact (Worker.move_of_step hop).read_after read
  · exact (Worker.move_of_step hop).read_after read

theorem Origin.step {cid : String} (o : Origin W cfg as s t cid text)
    (h : s.step W cfg a = some s') : Origin W cfg (as ++ [a]) s' t cid text := by
  cases o with
  | routed routed => exact .routed (List.mem_append_left _ routed)
  | fallback => exact .fallback
  | answered read blank => exact .answered (read_step h read) blank

omit [NeZero n] in
theorem append_step {pre post : List Act} {b : Act} (split : as = pre ++ b :: post) :
    as ++ [a] = pre ++ b :: (post ++ [a]) := by
  rw [split, List.append_assoc, List.cons_append]

theorem Left.step {key : String} (left : Left (n := n) W cfg as t key text) :
    Left (n := n) W cfg (as ++ [a]) t key text := by
  obtain ⟨pre, post, m, r, split, rest⟩ := left
  exact ⟨pre, post ++ [a], m, r, append_step split, rest⟩

theorem Traced.step (traced : Traced W cfg as s t r text) (h : s.step W cfg a = some s') :
    Traced W cfg (as ++ [a]) s' t r text := by
  cases traced with
  | own origin => exact .own (origin.step h)
  | cached split before hkey hit other left =>
      exact .cached (append_step split) before hkey hit other left

theorem Traced.message (traced : Traced W cfg as s t r text) (phase : RequestPhase) :
    Traced W cfg as s t { r with phase } text := by
  cases traced with
  | own origin => exact .own origin
  | cached split before hkey hit other left => exact .cached split before hkey hit other left

theorem read_of_askResult (h : Reachable (step W cfg) anyStep (· = (new : Plugin n)) s)
    (hr : s.requests t = some r) {b : BridgeId}
    (answered : s.askResult b (t, .reply) = some (some (.ok text))) :
    (s.workers b).Read W (r.cid cfg) text := by
  have heard := heard_reachable h b
  unfold askResult at answered
  split at answered
  · next msg result cell ha =>
      cases answered
      have sent := heard.sound.returned _ _ text ha rfl
      have read := heard.read _ _ text ha sent
      obtain ⟨q, hq, speaks, _⟩ := (attended_reachable h).asked b _ _ _ (Bridge.place_of ha)
      obtain rfl := Option.some.inj (hr.symm.trans hq)
      exact (show msg.conversationId = r.cid cfg from speaks) ▸ read
  · cases answered

theorem Source.origin (source : Source cfg s a t r text)
    (reached : Reachable (Plugin.step W cfg) anyStep (· = (new : Plugin n)) s)
    (h : s.step W cfg a = some s') (hr : s.requests t = some r) :
    Origin W cfg (as ++ [a]) s' t (r.cid cfg) text ∨
      a = .lookupReply t ∧ r.phase = .entered ∧ ∃ key, r.cacheKey = some key ∧
        (lookupCachedReply s.replies s.now key).1 = .returned (some text) := by
  cases source with
  | routed act =>
      exact .inl (.routed (act ▸ List.mem_append_right _ (List.mem_singleton_self _)))
  | fallback => exact .inl .fallback
  | answered returned blank =>
      exact .inl (.answered (read_step h (read_of_askResult reached hr returned)) blank)
  | cached act entered hkey hit => exact .inr ⟨act, entered, _, hkey, hit⟩

/-- What the cache answers was left there by another request, which is past its own lookup. -/
theorem AllTraced.cached (hs : AllTraced W cfg as s)
    (run : Run (Plugin.step W cfg) anyStep (new : Plugin n) as s) (hr : s.requests t = some r)
    (entered : r.phase = .entered) {key : String} (hkey : r.cacheKey = some key)
    (hit : (lookupCachedReply s.replies s.now key).1 = .returned (some text)) :
    Traced W cfg (as ++ [.lookupReply t]) s' t r text := by
  obtain ⟨e, he, rfl⟩ := lookupCachedReply_found hit
  obtain ⟨t', q, hq, settled, left⟩ := hs.stored _ e he
  refine .cached rfl run hkey hit ?_ left
  rintro rfl
  obtain rfl := Option.some.inj (hr.symm.trans hq)
  rw [entered] at settled
  cases settled

theorem allTraced_step (hs : AllTraced W cfg as s)
    (run : Run (Plugin.step W cfg) anyStep (new : Plugin n) as s)
    (h : s.step W cfg a = some s') : AllTraced W cfg (as ++ [a]) s' := by
  have turn := turn_of_step h
  have kept : ∀ key e, s.replies.value.lookup key = some e → ∃ t r, s'.requests t = some r ∧
      r.phase.settled = some (.text e.replyText) ∧
      Left (n := n) W cfg (as ++ [a]) t key e.replyText := by
    intro key e he
    obtain ⟨t, r, hr, settled, left⟩ := hs.stored key e he
    obtain ⟨phase, hr', next⟩ := turn.request_after hr
    refine ⟨t, _, hr', ?_, left.step⟩
    obtain same | next := next
    · exact (congrArg RequestPhase.settled same).trans settled
    · exact next.settled_after settled
  refine ⟨fun t r' text hr' out => ?_, fun t r' text hr' fresh => ?_, fun key e he => ?_⟩
  · obtain ⟨r, hr, same, old | new⟩ := found_of_step h hr' out
    · exact same ▸ ((hs.texts t r text hr old).step h).message _
    · obtain own | ⟨rfl, entered, key, hkey, hit⟩ := new.origin ⟨_, as, rfl, run⟩ h hr
      · exact same ▸ Traced.message (.own own) _
      · exact same ▸ (hs.cached run hr entered hkey hit).message _
  · have out : r'.phase.text = some text := by
      rw [fresh]
      rfl
    obtain ⟨r, hr, same, found⟩ := found_of_step h hr' out
    have own : Origin W cfg (as ++ [a]) s' t (r.cid cfg) text := by
      obtain ⟨phase, after, next⟩ := turn.request_after hr
      have moved : r'.phase = phase :=
        congrArg Request.phase (Option.some.inj (hr'.symm.trans after))
      rw [moved] at fresh
      obtain unmoved | next := next
      · exact (hs.computed t r text hr (unmoved.symm.trans fresh)).step h
      · obtain ⟨silent, past⟩ := next.computes fresh
        obtain old | new := found
        · cases silent.symm.trans old
        · obtain own | ⟨_, entered, _⟩ := new.origin ⟨_, as, rfl, run⟩ h hr
          · exact own
          · exact absurd entered past
    rw [same]
    exact own
  · have before : s.replies.value.lookup key = some e → _ := kept key e
    cases turn with
    | others _ replies _ => exact before (replies ▸ he)
    | sweep => exact before (lookup_of_sweepCache he)
    | received _ => exact before he
    | lookup _ _ => exact before (lookup_of_lookupReply he)
    | @store t r payload hr computed =>
        obtain old | ⟨hkey, rfl, hr'⟩ := lookup_of_storePayload hr he
        · exact before old
        · exact ⟨t, _, hr', rfl, as, [], s, r, rfl, run, hr, computed, hkey,
            hs.computed t r _ hr computed⟩
    | moves _ _ _ _ replies _ => exact before (replies ▸ he)

/-- Every text that a request goes away with was capped, and comes from the router, from the
fallback, or from a line that was read in the conversation of the request; or the cache answered
with it, and it had come so to an earlier request with the same cache key. -/
theorem every_text_has_an_origin (run : Run (step W cfg) anyStep (new : Plugin n) as s)
    (hr : s.requests t = some r) (out : r.phase.text = some text) :
    Traced W cfg as s t r text := by
  have traced : AllTraced W cfg as s := by
    refine run.history (P := AllTraced W cfg) (fun bs m a m' hm before _ h => ?_) ?_
    · exact allTraced_step hm before h
    · exact ⟨fun _ _ _ h => (by cases h), fun _ _ _ h => (by cases h), fun _ _ h => by cases h⟩
  exact traced.texts t r text hr out

def answeredTurn : List Act :=
  writesTurn serdeJson plainCfg 0 "fan" "hi" 0 ++
    [.worker 0 (.answer (plainReply "wx-app-fan" "hello")), .worker 0 .deliver] ++
    endsTurn 0 0 .recv

/-- One text was read for the request, the other had been left by the first delivery. -/
theorem every_text_has_an_origin_answered :
    (∃ (s : Plugin 1) (r : Request),
      s.requests 0 = some r ∧ r.phase = .finished (some (.text "hello")) ∧
        Traced serdeJson plainCfg answeredTurn s 0 r "hello") ∧
    ∃ (s : Plugin 1) (r : Request),
      s.requests 1 = some r ∧ r.phase = .leaving (some (.text "pong")) ∧
        Traced serdeJson plainCfg (deliveredTwice ++ [.lookupReply 1]) s 1 r "pong" := by
  constructor
  · have run : (exec (step serdeJson plainCfg) (new : Plugin 1) answeredTurn).any
        (fun s => decide (s.requests 0 =
          some ⟨"fan", "hi", none, .finished (some (.text "hello"))⟩)) = true := by
      decide +kernel
    obtain ⟨s, hrun, hs⟩ := (Option.any_eq_true _ _).mp run
    have hr := of_decide_eq_true hs
    exact ⟨s, _, hr, rfl, every_text_has_an_origin (run_iff_exec.mpr hrun) hr rfl⟩
  · have run : (exec (step serdeJson plainCfg) (new : Plugin 1)
        (deliveredTwice ++ [.lookupReply 1])).any (fun s => decide (s.requests 1 =
          some ⟨"fan", "hello", some "77", .leaving (some (.text "pong"))⟩)) = true := by
      decide +kernel
    obtain ⟨s, hrun, hs⟩ := (Option.any_eq_true _ _).mp run
    have hr := of_decide_eq_true hs
    exact ⟨s, _, hr, rfl, every_text_has_an_origin (run_iff_exec.mpr hrun) hr rfl⟩

end
end Plugin
end EvoclawPluginWechat
