import EvoclawPluginWechat.Core.Plugin
import EvoclawPluginWechat.Properties.Correlation
import EvoclawPluginWechat.Properties.SerializerExclusion

/-!
The steps of the plugin, sorted by what they do to the serializer, the workers and the
requests.
-/
namespace EvoclawPluginWechat

/-- What the request has made of its conversation's mutex. -/
def RequestPhase.hold : RequestPhase → Option Hold
  | .dispatched | .finished _ => none
  | .acquired => some .returned
  | .waiting => some .waiting
  | _ => some .inside

/-- The stage of the ask the request has under way, and the bridge it asks. -/
def RequestPhase.asks : RequestPhase → Option (Stage × BridgeId)
  | .asking stage b | .abandoned stage b => some (stage, b)
  | _ => none

theorem RequestPhase.hold_of_asks {phase : RequestPhase} {x : Stage × BridgeId}
    (h : phase.asks = some x) : phase.hold = some .inside := by
  cases phase with
  | asking _ _ | abandoned _ _ => rfl
  | _ => cases h

/-- The conversation in which the request asks. -/
def Request.Speaks (cfg : HandlerCfg) (r : Request) : Stage → String → Prop
  | .reply, cid => cid = r.cid cfg
  | .classify, cid => ∃ nanos, cid = ephemeralCid nanos

namespace Plugin
variable {n : Nat}

/-- The step of a worker that is part of a step of the plugin; the begin of an ask apart. -/
def Act.onWorker (s : Plugin n) : Act → Option (BridgeId × Worker.Act AskId)
  | .worker b a => some (b, a)
  | .disconnect t =>
      match (s.requests t).map Request.phase with
      | some (.asking stage b) => some (b, .bridge (.drop (t, stage)))
      | _ => none
  | _ => none

def plainCfg : HandlerCfg := ⟨"app", "busy", id, id⟩

/-- One message from the webhook to the flush of its line, undisturbed. -/
def writesTurn (W : Wire) (cfg : HandlerCfg) (t : TaskId) (fromUser userMsg : String)
    (b : BridgeId) : List Act :=
  let i : AskId := (t, .reply)
  let msg := Bridge.inbound (buildConversationId cfg.appId fromUser) fromUser userMsg 0
  let asks : List (Bridge.Act AskId) := .checkAlive i :: .insert i :: Bridge.writesLine W i msg
  [.receive t fromUser userMsg none, .acquire t, .lockOwned t, .grant t, .lookupReply t,
    .route t .fallbackToLlm, .pool (.fetchAdd i), .pool (.readSlot i), .checkedOut t 0] ++
  asks.map fun a => .worker b (.bridge a)

/-- The end of the wait, by an answer or by the timeout, up to the release of the
conversation. -/
def endsTurn (t : TaskId) (b : BridgeId) (a : AskId → Bridge.Act AskId) : List Act :=
  [.worker b (.bridge (a (t, .reply))), .worker b (.bridge (.dropGuard (t, .reply))),
    .finishAsk t, .storeReply t, .release t]

/-- The step touches the request only, and leaves it inside its critical section. -/
structure Inner (s : Plugin n) (t : TaskId) (r : Request) (phase : RequestPhase)
    (s' : Plugin n) : Prop where
  serializer : s'.serializer = s.serializer
  workers : s'.workers = s.workers
  requests : s'.requests = (s.setPhase t phase).requests
  before : r.phase.hold = some .inside
  after : phase.hold = some .inside
  returned : ∀ stage b, r.phase.asks = some (stage, b) →
    ∃ result, s.askResult b (t, stage) = some result

inductive Move (W : Wire) (cfg : HandlerCfg) (s : Plugin n) : Act → Plugin n → Prop
  | quiet {a : Act} {s' : Plugin n} : s'.serializer = s.serializer → s'.workers = s.workers →
      s'.requests = s.requests → Move W cfg s a s'
  | receive {t : TaskId} {fromUser userMsg : String} {msgId : Option String} :
      s.requests t = none → Move W cfg s (.receive t fromUser userMsg msgId)
        (s.setRequest t (some ⟨fromUser, userMsg, msgId, .dispatched⟩))
  | acquire {t : TaskId} {r : Request} {ser : ConvSerializer} :
      s.requests t = some r → r.phase = .dispatched →
      s.serializer.step (.acquire t (r.cid cfg) s.now) = some ser →
      Move W cfg s (.acquire t) ({ s with serializer := ser }.setPhase t .acquired)
  | lockOwned {t : TaskId} {r : Request} {ser : ConvSerializer} :
      s.requests t = some r → r.phase = .acquired →
      s.serializer.step (.lockOwned t) = some ser →
      Move W cfg s (.lockOwned t) ({ s with serializer := ser }.setPhase t .waiting)
  | grant {t : TaskId} {r : Request} {ser : ConvSerializer} :
      s.requests t = some r → r.phase = .waiting → s.serializer.step (.grant t) = some ser →
      Move W cfg s (.grant t) ({ s with serializer := ser }.setPhase t .entered)
  | release {a : Act} {t : TaskId} {r : Request} {ser : ConvSerializer}
      {payload : Option ReplyPayload} : s.requests t = some r →
      r.phase.asks = none → s.serializer.step (.release t) = some ser →
      Move W cfg s a ({ s with serializer := ser }.setPhase t (.finished payload))
  | inner {a : Act} {t : TaskId} {r : Request} {phase : RequestPhase} {s' : Plugin n} :
      s.requests t = some r → Inner s t r phase s' → Move W cfg s a s'
  | startAsk {t : TaskId} {r : Request} {stage : Stage} {b : BridgeId} {ms : Int}
      {w : Worker AskId} : s.requests t = some r → r.phase = .checkout stage →
      s.pool.calls (t, stage) = some (.returned (.ok b)) →
      (s.workers b).step W (.bridge (.call (t, stage) (message cfg s r ms stage))) = some w →
      Move W cfg s (.checkedOut t ms) ((s.setWorker b w).setPhase t (.asking stage b))
  | dropAsk {t : TaskId} {r : Request} {stage : Stage} {b : BridgeId} {w : Worker AskId} :
      s.requests t = some r → r.phase = .asking stage b →
      (s.workers b).step W (.bridge (.drop (t, stage))) = some w →
      Move W cfg s (.disconnect t) ((s.setWorker b w).setPhase t (.abandoned stage b))
  | worker {b : BridgeId} {a : Worker.Act AskId} {w : Worker AskId} :
      (∀ i msg, a ≠ .bridge (.call i msg)) → (s.workers b).step W a = some w →
      Move W cfg s (.worker b a) (s.setWorker b w)
  | gc {a : Act} {op : ConvSerializer.Act} {ser : ConvSerializer} :
      s.serializer.step op = some ser → ser.handles = s.serializer.handles →
      Move W cfg s a { s with serializer := ser }

section
variable {W : Wire} {cfg : HandlerCfg} {s s' : Plugin n} {t : TaskId} {r : Request}

theorem runSerializer_eq_some {a : ConvSerializer.Act} :
    s.runSerializer a = some s' ↔
      ∃ ser, s.serializer.step a = some ser ∧ { s with serializer := ser } = s' :=
  Option.map_eq_some_iff

theorem runWorker_eq_some {b : BridgeId} {a : Worker.Act AskId} :
    s.runWorker W b a = some s' ↔
      ∃ w, (s.workers b).step W a = some w ∧ s.setWorker b w = s' :=
  Option.map_eq_some_iff

theorem inner_of {phase : RequestPhase} (serializer : s'.serializer = s.serializer)
    (workers : s'.workers = s.workers) (requests : s'.requests = (s.setPhase t phase).requests)
    (before : r.phase.hold = some .inside) (after : phase.hold = some .inside)
    (asked : r.phase.asks = none) : Inner s t r phase s' := by
  refine ⟨serializer, workers, requests, before, after, fun stage b h => ?_⟩
  rw [asked] at h
  cases h

theorem lookupReply_inner (hr : r.phase = .entered) :
    ∃ phase, Inner s t r phase (s.lookupReply t r) := by
  have before : r.phase.hold = some .inside := by rw [hr]; rfl
  have asked : r.phase.asks = none := by rw [hr]; rfl
  unfold lookupReply
  split
  · exact ⟨_, inner_of rfl rfl rfl before rfl asked⟩
  · split
    · exact ⟨_, inner_of rfl rfl rfl before rfl asked⟩
    · exact ⟨_, inner_of rfl rfl rfl before rfl asked⟩
    · exact ⟨_, inner_of rfl rfl rfl before rfl asked⟩

theorem storePayload_inner {payload : ReplyPayload} (hr : r.phase = .computed payload) :
    ∃ phase, Inner s t r phase (s.storePayload t r payload) := by
  have before : r.phase.hold = some .inside := by rw [hr]; rfl
  have asked : r.phase.asks = none := by rw [hr]; rfl
  unfold storePayload
  split
  · split
    · exact ⟨_, inner_of rfl rfl rfl before rfl asked⟩
    · exact ⟨_, inner_of rfl rfl rfl before rfl asked⟩
  · exact ⟨_, inner_of rfl rfl rfl before rfl asked⟩

theorem afterAsk_hold (result : Option (Except PluginError String)) (stage : Stage) :
    (afterAsk cfg result stage).hold = some .inside := by
  cases stage with
  | classify => rfl
  | reply => rfl

theorem message_speaks (s : Plugin n) (r : Request) (ms : Int) (stage : Stage) :
    r.Speaks cfg stage (message cfg s r ms stage).conversationId := by
  cases stage with
  | classify => exact ⟨_, rfl⟩
  | reply => exact rfl

variable [NeZero n]

theorem runPool_eq_some {a : BridgePool.Act AskId} :
    s.runPool a = some s' ↔
      ∃ p, s.pool.step s.alive s.now a = some p ∧ { s with pool := p } = s' :=
  Option.map_eq_some_iff

theorem move_of_runPool {a : Act} {op : BridgePool.Act AskId} (h : s.runPool op = some s') :
    Move W cfg s a s' := by
  obtain ⟨p, _, rfl⟩ := runPool_eq_some.mp h
  exact .quiet rfl rfl rfl

omit [NeZero n] in
theorem move_of_startAsk {a : Act} {stage : Stage} {ms : Int} (ha : a = .checkedOut t ms)
    (hr : s.requests t = some r) (hp : r.phase = .checkout stage)
    (h : s.startAsk W cfg t r stage ms = some s') : Move W cfg s a s' := by
  subst ha
  unfold startAsk at h
  split at h
  · next out =>
      obtain ⟨s₁, h₁, rfl⟩ := Option.map_eq_some_iff.mp h
      obtain ⟨w, hw, rfl⟩ := runWorker_eq_some.mp h₁
      exact .startAsk hr hp out hw
  · cases h
    refine .inner hr (inner_of rfl rfl rfl ?_ (afterAsk_hold _ stage) ?_)
    · rw [hp]
      rfl
    · rw [hp]
      rfl
  · cases h

theorem move_of_disconnect (hr : s.requests t = some r)
    (h : s.disconnect W t r.phase = some s') : Move W cfg s (.disconnect t) s' := by
  unfold disconnect at h
  split at h
  · next hp =>
      obtain ⟨s₁, h₁, rfl⟩ := Option.map_eq_some_iff.mp h
      obtain ⟨ser, hser, rfl⟩ := runSerializer_eq_some.mp h₁
      exact .release hr (by rw [hp]; rfl) hser
  · next hp =>
      obtain ⟨s₁, h₁, rfl⟩ := Option.map_eq_some_iff.mp h
      obtain ⟨p, _, rfl⟩ := runPool_eq_some.mp h₁
      exact .inner hr (inner_of rfl rfl rfl (by rw [hp]; rfl) rfl (by rw [hp]; rfl))
  · next hp =>
      obtain ⟨s₁, h₁, rfl⟩ := Option.map_eq_some_iff.mp h
      obtain ⟨w, hw, rfl⟩ := runWorker_eq_some.mp h₁
      exact .dropAsk hr hp hw
  · cases h

omit [NeZero n] in
theorem move_of_askOver {a : Act} {stage : Stage} {b : BridgeId} {phase : RequestPhase}
    {result : Option (Except PluginError String)} (hr : s.requests t = some r)
    (asked : r.phase.asks = some (stage, b)) (before : r.phase.hold = some .inside)
    (returned : s.askResult b (t, stage) = some result) (after : phase.hold = some .inside) :
    Move W cfg s a (s.setPhase t phase) := by
  refine .inner hr ⟨rfl, rfl, rfl, before, after, fun stage' b' h => ?_⟩
  cases asked.symm.trans h
  exact ⟨result, returned⟩

theorem move_of_step {a : Act} (h : s.step W cfg a = some s') : Move W cfg s a s' := by
  cases a with
  | tick _ | setClock _ =>
      cases h
      exact .quiet rfl rfl rfl
  | receive t fromUser userMsg msgId =>
      simp only [step] at h
      split at h
      · next hr => cases h; exact .receive hr
      · cases h
  | acquire t =>
      simp only [step] at h
      split at h
      · next hr =>
          obtain ⟨s₁, h₁, rfl⟩ := Option.map_eq_some_iff.mp h
          obtain ⟨ser, hser, rfl⟩ := runSerializer_eq_some.mp h₁
          exact .acquire hr rfl hser
      · cases h
  | lockOwned t =>
      simp only [step] at h
      split at h
      · next hr =>
          obtain ⟨s₁, h₁, rfl⟩ := Option.map_eq_some_iff.mp h
          obtain ⟨ser, hser, rfl⟩ := runSerializer_eq_some.mp h₁
          exact .lockOwned hr rfl hser
      · cases h
  | grant t =>
      simp only [step] at h
      split at h
      · next hr =>
          obtain ⟨s₁, h₁, rfl⟩ := Option.map_eq_some_iff.mp h
          obtain ⟨ser, hser, rfl⟩ := runSerializer_eq_some.mp h₁
          exact .grant hr rfl hser
      · cases h
  | lookupReply t =>
      simp only [step] at h
      split at h
      · next hr =>
          cases h
          obtain ⟨phase, inner⟩ :=
            lookupReply_inner (s := s) (t := t) (r := ⟨_, _, _, .entered⟩) rfl
          exact .inner hr inner
      · cases h
  | classifyByAi t =>
      simp only [step] at h
      split at h
      · next hr =>
          obtain ⟨s₁, h₁, rfl⟩ := Option.map_eq_some_iff.mp h
          obtain ⟨p, _, rfl⟩ := runPool_eq_some.mp h₁
          exact .inner hr (inner_of rfl rfl rfl rfl rfl rfl)
      · cases h
  | route t reply =>
      simp only [step] at h
      split at h
      · next hr =>
          split at h
          · cases h
            exact .inner hr (inner_of rfl rfl rfl rfl rfl rfl)
          · cases h
            exact .inner hr (inner_of rfl rfl rfl rfl rfl rfl)
          · obtain ⟨s₁, h₁, rfl⟩ := Option.map_eq_some_iff.mp h
            obtain ⟨p, _, rfl⟩ := runPool_eq_some.mp h₁
            exact .inner hr (inner_of rfl rfl rfl rfl rfl rfl)
      · cases h
  | checkedOut t ms =>
      simp only [step] at h
      split at h
      · next hr => exact move_of_startAsk rfl hr rfl h
      · cases h
  | finishAsk t =>
      simp only [step] at h
      split at h
      · next hr =>
          obtain ⟨result, hres, rfl⟩ := Option.map_eq_some_iff.mp h
          exact move_of_askOver hr rfl rfl hres (afterAsk_hold _ _)
      · cases h
  | storeReply t =>
      simp only [step] at h
      split at h
      · next payload hr =>
          cases h
          obtain ⟨phase, inner⟩ := storePayload_inner (s := s) (t := t)
            (r := ⟨_, _, _, .computed payload⟩) rfl
          exact .inner hr inner
      · cases h
  | release t =>
      simp only [step] at h
      split at h
      · next hr =>
          obtain ⟨s₁, h₁, rfl⟩ := Option.map_eq_some_iff.mp h
          obtain ⟨ser, hser, rfl⟩ := runSerializer_eq_some.mp h₁
          exact .release hr rfl hser
      · cases h
  | disconnect t =>
      simp only [step] at h
      split at h
      · next hr => exact move_of_disconnect hr h
      · cases h
  | unwind t =>
      simp only [step] at h
      split at h
      · next hr =>
          obtain ⟨result, hres, rfl⟩ := Option.map_eq_some_iff.mp h
          exact move_of_askOver hr rfl rfl hres rfl
      · cases h
  | pool a =>
      cases a with
      | call c | cancel c => cases h
      | fetchAdd c | readSlot c | testCooldown c | lockSlot c | recheck c | spawnOk c | spawnErr c
      | markRespawnFailed c | giveUp c => exact move_of_runPool h
  | worker b a =>
      by_cases hc : ∃ i msg, a = .bridge (.call i msg)
      · obtain ⟨i, msg, rfl⟩ := hc
        cases h
      · have same : s.step W cfg (.worker b a) = s.runWorker W b a := by
          cases a with
          | bridge a =>
              cases a with
              | call i msg => exact absurd ⟨i, msg, rfl⟩ hc
              | _ => rfl
          | _ => rfl
        rw [same] at h
        obtain ⟨w, hw, rfl⟩ := runWorker_eq_some.mp h
        exact .worker (fun i msg hi => hc ⟨i, msg, hi⟩) hw
  | gcBegin _ | gcVisit _ | gcEnd =>
      obtain ⟨ser, hser, rfl⟩ := runSerializer_eq_some.mp h
      have handles := ConvSerializer.handleMove_of_step hser
      generalize same : ser.handles = after at handles
      cases handles
      exact .gc hser same
  | gcReplies =>
      cases h
      exact .quiet rfl rfl rfl

omit [NeZero n] in
theorem setWorker_workers (s : Plugin n) (b b' : BridgeId) (w : Worker AskId) :
    (b' = b ∧ (s.setWorker b w).workers b' = w) ∨ (s.setWorker b w).workers b' = s.workers b' := by
  by_cases same : b' = b
  · subst same
    exact .inl ⟨rfl, Function.update_self _ _ _⟩
  · exact .inr (Function.update_of_ne same _ _)

omit [NeZero n] in
/-- What becomes of one worker: an ask begins on it, it takes a step, or nothing. -/
theorem Move.worker_after {a : Act} (m : Move W cfg s a s') (b : BridgeId) :
    s'.workers b = s.workers b ∨
    (∃ op, a.onWorker s = some (b, op) ∧ (∀ i msg, op ≠ .bridge (.call i msg)) ∧
      (s.workers b).step W op = some (s'.workers b)) ∨
    ∃ t r stage ms, a = .checkedOut t ms ∧ s.requests t = some r ∧ r.phase = .checkout stage ∧
      s.pool.calls (t, stage) = some (.returned (.ok b)) ∧
      (s.workers b).step W (.bridge (.call (t, stage) (message cfg s r ms stage))) =
        some (s'.workers b) := by
  cases m with
  | quiet _ workers _ => exact .inl (congrFun workers b)
  | inner _ inner => exact .inl (congrFun inner.workers b)
  | receive _ | acquire _ _ _ | lockOwned _ _ _ | grant _ _ _ | release _ _ _ | gc _ _ =>
      exact .inl rfl
  | @startAsk t r stage b' ms w hr hp out hw =>
      obtain ⟨rfl, same⟩ | same := setWorker_workers s b' b w
      · refine .inr (.inr ⟨t, r, stage, ms, rfl, hr, hp, out, ?_⟩)
        exact hw.trans (congrArg some same.symm)
      · exact .inl same
  | @dropAsk t r stage b' w hr hp hw =>
      obtain ⟨rfl, same⟩ | same := setWorker_workers s b' b w
      · refine .inr (.inl ⟨_, ?_, fun i msg h => (by cases h),
          hw.trans (congrArg some same.symm)⟩)
        rw [Act.onWorker, hr, Option.map_some, hp]
      · exact .inl same
  | @worker b' op w nocall hw =>
      obtain ⟨rfl, same⟩ | same := setWorker_workers s b' b w
      · exact .inr (.inl ⟨op, rfl, nocall, hw.trans (congrArg some same.symm)⟩)
      · exact .inl same

end

end Plugin
end EvoclawPluginWechat
