import EvoclawPluginWechat.Properties.TurnExclusion

/-!
The life of a request: which phase may follow which, and what a step of the plugin does
to the requests, the reply cache and the monotonic clock.
-/
namespace EvoclawPluginWechat
namespace RequestPhase

/-- One step of a request. -/
inductive Next : RequestPhase → RequestPhase → Prop
  | acquire : Next .dispatched .acquired
  | lockOwned : Next .acquired .waiting
  | grant : Next .waiting .entered
  | giveUp : Next .waiting (.finished none)
  | hit {payload : Option ReplyPayload} : Next .entered (.leaving payload)
  | miss : Next .entered (.routing false)
  | classify : Next (.routing false) (.checkout .classify)
  | fallback {classified : Bool} : Next (.routing classified) (.checkout .reply)
  | route {classified : Bool} {payload : ReplyPayload} :
      Next (.routing classified) (.computed payload)
  | ask {stage : Stage} {b : BridgeId} : Next (.checkout stage) (.asking stage b)
  | cancel {stage : Stage} : Next (.checkout stage) (.leaving none)
  | unclassified : Next (.checkout .classify) (.routing true)
  | unanswered {payload : ReplyPayload} : Next (.checkout .reply) (.computed payload)
  | classified {b : BridgeId} : Next (.asking .classify b) (.routing true)
  | answered {b : BridgeId} {payload : ReplyPayload} :
      Next (.asking .reply b) (.computed payload)
  | drop {stage : Stage} {b : BridgeId} : Next (.asking stage b) (.abandoned stage b)
  | unwind {stage : Stage} {b : BridgeId} : Next (.abandoned stage b) (.leaving none)
  | store {payload : ReplyPayload} {left : Option ReplyPayload} :
      Next (.computed payload) (.leaving left)
  | release {payload : Option ReplyPayload} : Next (.leaving payload) (.finished payload)

/-- Past a cache lookup without a hit, short of the store. -/
def computing : RequestPhase → Bool
  | .routing _ | .checkout _ | .asking _ _ | .abandoned _ _ | .computed _ => true
  | _ => false

/-- Short of the cache lookup. -/
def early : RequestPhase → Bool
  | .dispatched | .acquired | .waiting | .entered => true
  | _ => false

/-- The reply the request goes away with, once that is settled. -/
def settled : RequestPhase → Option ReplyPayload
  | .leaving payload | .finished payload => payload
  | _ => none

def ended : RequestPhase → Bool
  | .finished _ => true
  | _ => false

variable {p p' : RequestPhase}

theorem hold_of_computing (h : p.computing = true) : p.hold = some .inside := by
  cases p with
  | routing _ | checkout _ | asking _ _ | abandoned _ _ | computed _ => rfl
  | _ => cases h

theorem Next.computing_before (h : Next p p') (after : p'.computing = true) :
    p.computing = true ∨ p = .entered := by
  cases h with
  | miss => exact .inr rfl
  | classify | fallback | route | ask | unclassified | unanswered | classified | answered | drop =>
      exact .inl rfl
  | _ => cases after

theorem Next.early_before (h : Next p p') (after : p'.early = true) : p.early = true := by
  cases h with
  | acquire | lockOwned | grant => rfl
  | _ => cases after

theorem Next.settled_after (h : Next p p') {payload : ReplyPayload}
    (before : p.settled = some payload) : p'.settled = some payload := by
  cases h with
  | release => exact before
  | _ => cases before

theorem Next.inside_after (h : Next p p') (before : p.hold = some .inside) :
    p'.hold = some .inside ∨ p'.ended = true := by
  cases h with
  | acquire | lockOwned | grant | giveUp => cases before
  | release => exact .inr rfl
  | _ => exact .inl rfl

theorem Next.not_ended (h : Next p p') : p.ended = false := by
  cases h <;> rfl

end RequestPhase

namespace Plugin
variable {n : Nat} {W : Wire} {cfg : HandlerCfg} {s s' : Plugin n}

/-- What a step puts on the monotonic clock. -/
def Act.elapsed : Act → Nat
  | .tick d => d
  | _ => 0

/-- The step, by what it does to the requests, the reply cache and the clock. -/
inductive Turn (s : Plugin n) : Act → Plugin n → Prop
  | others {a : Act} {s' : Plugin n} : s'.requests = s.requests → s'.replies = s.replies →
      s'.now = s.now + a.elapsed → Turn s a s'
  | sweep : Turn s .gcReplies { s with
      replies := (sweepCache s.replies s.now replyCacheTtl CacheEntry.insertedAt).2 }
  | received {t : TaskId} {fromUser userMsg : String} {msgId : Option String} :
      s.requests t = none → Turn s (.receive t fromUser userMsg msgId)
        (s.setRequest t (some ⟨fromUser, userMsg, msgId, .dispatched⟩))
  | lookup {t : TaskId} {r : Request} : s.requests t = some r → r.phase = .entered →
      Turn s (.lookupReply t) (s.lookupReply t r)
  | store {t : TaskId} {r : Request} {payload : ReplyPayload} : s.requests t = some r →
      r.phase = .computed payload → Turn s (.storeReply t) (s.storePayload t r payload)
  | moves {a : Act} {s' : Plugin n} {t : TaskId} {r : Request} {phase : RequestPhase} :
      s.requests t = some r → r.phase.Next phase → r.phase ≠ .entered →
      s'.requests = (s.setPhase t phase).requests → s'.replies = s.replies → s'.now = s.now →
      Turn s a s'

section
variable {t : TaskId} {r : Request}

theorem next_afterAsk_checkout (stage : Stage) (e : PluginError) :
    (RequestPhase.checkout stage).Next (afterAsk cfg (some (.error e)) stage) := by
  cases stage with
  | classify => exact .unclassified
  | reply => exact .unanswered

theorem next_afterAsk_asking (stage : Stage) (b : BridgeId)
    (result : Option (Except PluginError String)) :
    (RequestPhase.asking stage b).Next (afterAsk cfg result stage) := by
  cases stage with
  | classify => exact .classified
  | reply => exact .answered

variable [NeZero n]

theorem turn_of_runPool {a : Act} {op : BridgePool.Act AskId} (still : a.elapsed = 0)
    (h : s.runPool op = some s') : Turn s a s' := by
  obtain ⟨p, _, rfl⟩ := runPool_eq_some.mp h
  exact .others rfl rfl (by rw [still]; exact (Int.add_zero _).symm)

omit [NeZero n] in
theorem turn_of_serializer {a : Act} {op : ConvSerializer.Act} {phase : RequestPhase}
    (hr : s.requests t = some r) (next : r.phase.Next phase) (outside : r.phase ≠ .entered)
    (h : ((s.runSerializer op).map fun s => s.setPhase t phase) = some s') : Turn s a s' := by
  obtain ⟨s₁, h₁, rfl⟩ := Option.map_eq_some_iff.mp h
  obtain ⟨ser, _, rfl⟩ := runSerializer_eq_some.mp h₁
  exact .moves hr next outside rfl rfl rfl

theorem turn_of_pool {a : Act} {op : BridgePool.Act AskId} {phase : RequestPhase}
    (hr : s.requests t = some r) (next : r.phase.Next phase) (outside : r.phase ≠ .entered)
    (h : ((s.runPool op).map fun s => s.setPhase t phase) = some s') : Turn s a s' := by
  obtain ⟨s₁, h₁, rfl⟩ := Option.map_eq_some_iff.mp h
  obtain ⟨p, _, rfl⟩ := runPool_eq_some.mp h₁
  exact .moves hr next outside rfl rfl rfl

omit [NeZero n] in
theorem turn_of_worker {a : Act} {b : BridgeId} {op : Worker.Act AskId} {phase : RequestPhase}
    (hr : s.requests t = some r) (next : r.phase.Next phase) (outside : r.phase ≠ .entered)
    (h : ((s.runWorker W b op).map fun s => s.setPhase t phase) = some s') : Turn s a s' := by
  obtain ⟨s₁, h₁, rfl⟩ := Option.map_eq_some_iff.mp h
  obtain ⟨w, _, rfl⟩ := runWorker_eq_some.mp h₁
  exact .moves hr next outside rfl rfl rfl

omit [NeZero n] in
theorem turn_of_startAsk {a : Act} {stage : Stage} {ms : Int} (hr : s.requests t = some r)
    (hp : r.phase = .checkout stage) (h : s.startAsk W cfg t r stage ms = some s') :
    Turn s a s' := by
  have outside : r.phase ≠ .entered := by
    rw [hp]
    exact RequestPhase.noConfusion
  unfold startAsk at h
  split at h
  · exact turn_of_worker hr (by rw [hp]; exact .ask) outside h
  · cases h
    exact .moves hr (by rw [hp]; exact next_afterAsk_checkout stage _) outside rfl rfl rfl
  · cases h

theorem turn_of_disconnect {a : Act} (hr : s.requests t = some r)
    (h : s.disconnect W t r.phase = some s') : Turn s a s' := by
  unfold disconnect at h
  split at h
  · next hp => exact turn_of_serializer hr (by rw [hp]; exact .giveUp) (by simp [hp]) h
  · next hp => exact turn_of_pool hr (by rw [hp]; exact .cancel) (by simp [hp]) h
  · next hp => exact turn_of_worker hr (by rw [hp]; exact .drop) (by simp [hp]) h
  · cases h

theorem turn_of_step {a : Act} (h : s.step W cfg a = some s') : Turn s a s' := by
  cases a with
  | tick d =>
      cases h
      exact .others rfl rfl rfl
  | setClock _ =>
      cases h
      exact .others rfl rfl (Int.add_zero _).symm
  | receive t fromUser userMsg msgId =>
      simp only [step] at h
      split at h
      · next hr =>
          cases h
          exact .received hr
      · cases h
  | acquire t =>
      simp only [step] at h
      split at h
      · next hr => exact turn_of_serializer hr .acquire (by simp) h
      · cases h
  | lockOwned t =>
      simp only [step] at h
      split at h
      · next hr => exact turn_of_serializer hr .lockOwned (by simp) h
      · cases h
  | grant t =>
      simp only [step] at h
      split at h
      · next hr => exact turn_of_serializer hr .grant (by simp) h
      · cases h
  | lookupReply t =>
      simp only [step] at h
      split at h
      · next hr =>
          cases h
          exact .lookup hr rfl
      · cases h
  | classifyByAi t =>
      simp only [step] at h
      split at h
      · next hr => exact turn_of_pool hr .classify (by simp) h
      · cases h
  | route t reply =>
      simp only [step] at h
      split at h
      · next hr =>
          split at h
          · cases h
            exact .moves hr .route (by simp) rfl rfl rfl
          · cases h
            exact .moves hr .route (by simp) rfl rfl rfl
          · exact turn_of_pool hr .fallback (by simp) h
      · cases h
  | checkedOut t ms =>
      simp only [step] at h
      split at h
      · next hr => exact turn_of_startAsk hr rfl h
      · cases h
  | finishAsk t =>
      simp only [step] at h
      split at h
      · next hr =>
          obtain ⟨result, _, rfl⟩ := Option.map_eq_some_iff.mp h
          exact .moves hr (next_afterAsk_asking _ _ result) (by simp) rfl rfl rfl
      · cases h
  | storeReply t =>
      simp only [step] at h
      split at h
      · next hr =>
          cases h
          exact .store hr rfl
      · cases h
  | release t =>
      simp only [step] at h
      split at h
      · next hr => exact turn_of_serializer hr .release (by simp) h
      · cases h
  | disconnect t =>
      simp only [step] at h
      split at h
      · next hr => exact turn_of_disconnect hr h
      · cases h
  | unwind t =>
      simp only [step] at h
      split at h
      · next hr =>
          obtain ⟨_, _, rfl⟩ := Option.map_eq_some_iff.mp h
          exact .moves hr .unwind (by simp) rfl rfl rfl
      · cases h
  | pool a =>
      cases a with
      | call c | cancel c => cases h
      | fetchAdd c | readSlot c | testCooldown c | lockSlot c | recheck c | spawnOk c | spawnErr c
      | markRespawnFailed c | giveUp c => exact turn_of_runPool rfl h
  | worker b a =>
      have quiet : ∀ s', s.runWorker W b a = some s' → Turn s (.worker b a) s' := by
        intro s' h
        obtain ⟨w, _, rfl⟩ := runWorker_eq_some.mp h
        exact .others rfl rfl (Int.add_zero _).symm
      cases a with
      | bridge op =>
          cases op with
          | call i msg => cases h
          | _ => exact quiet s' h
      | _ => exact quiet s' h
  | gcBegin _ | gcVisit _ | gcEnd =>
      obtain ⟨ser, _, rfl⟩ := runSerializer_eq_some.mp h
      exact .others rfl rfl (Int.add_zero _).symm
  | gcReplies =>
      cases h
      exact .sweep

end

section
variable {t : TaskId}

theorem setPhase_requests_after {t' : TaskId} {r : Request} {phase : RequestPhase}
    (next : r.phase.Next phase) (hr : s.requests t = some r) {q : Request}
    (hq : s.requests t' = some q) :
    ∃ phase', (s.setPhase t phase).requests t' = some { q with phase := phase' } ∧
      (phase' = q.phase ∨ q.phase.Next phase') := by
  by_cases same : t' = t
  · subst same
    obtain rfl := Option.some.inj (hr.symm.trans hq)
    exact ⟨phase, setPhase_requests_self phase hr, .inr next⟩
  · refine ⟨q.phase, ?_, .inl rfl⟩
    rw [setPhase_requests, if_neg same, hq]

theorem lookupReply_phase {r : Request} (entered : r.phase = .entered) :
    ∃ phase, r.phase.Next phase ∧
      (s.lookupReply t r).requests = (s.setPhase t phase).requests := by
  rw [entered]
  unfold lookupReply
  split
  · exact ⟨_, .miss, rfl⟩
  · split
    · exact ⟨_, .hit, rfl⟩
    · exact ⟨_, .miss, rfl⟩
    · exact ⟨_, .hit, rfl⟩

theorem storePayload_phase {r : Request} {payload : ReplyPayload}
    (computed : r.phase = .computed payload) :
    ∃ left, r.phase.Next (.leaving left) ∧
      (s.storePayload t r payload).requests = (s.setPhase t (.leaving left)).requests := by
  rw [computed]
  unfold storePayload
  split
  · split
    · exact ⟨_, .store, rfl⟩
    · exact ⟨_, .store, rfl⟩
  · exact ⟨_, .store, rfl⟩

/-- A request stays what it is and goes on to a next phase at most. -/
theorem Turn.request_after {a : Act} (turn : Turn s a s') {q : Request}
    (hq : s.requests t = some q) :
    ∃ phase, s'.requests t = some { q with phase } ∧
      (phase = q.phase ∨ q.phase.Next phase) := by
  cases turn with
  | others requests _ _ =>
      refine ⟨q.phase, ?_, .inl rfl⟩
      rw [requests, hq]
  | sweep => exact ⟨q.phase, hq, .inl rfl⟩
  | @received t' _ _ _ hr =>
      have other : t ≠ t' := by
        rintro rfl
        cases hr.symm.trans hq
      refine ⟨q.phase, ?_, .inl rfl⟩
      rw [setRequest_requests, if_neg other, hq]
  | lookup hr entered =>
      obtain ⟨phase, next, requests⟩ := lookupReply_phase entered
      rw [requests]
      exact setPhase_requests_after next hr hq
  | store hr computed =>
      obtain ⟨left, next, requests⟩ := storePayload_phase computed
      rw [requests]
      exact setPhase_requests_after next hr hq
  | moves hr next _ requests _ _ =>
      rw [requests]
      exact setPhase_requests_after next hr hq

theorem Turn.request_before {a : Act} (turn : Turn s a s') {q : Request}
    (hq : s'.requests t = some q) :
    (s.requests t = none ∧ ∃ fromUser userMsg msgId, a = .receive t fromUser userMsg msgId ∧
      q = ⟨fromUser, userMsg, msgId, .dispatched⟩) ∨
    ∃ q₀, s.requests t = some q₀ ∧ q = { q₀ with phase := q.phase } ∧
      (q.phase = q₀.phase ∨ q₀.phase.Next q.phase) := by
  cases hq₀ : s.requests t with
  | some q₀ =>
      obtain ⟨phase, after, next⟩ := turn.request_after hq₀
      obtain rfl := Option.some.inj (after.symm.trans hq)
      exact .inr ⟨q₀, rfl, rfl, next⟩
  | none =>
      have absent : ∀ {t' : TaskId} {r : Request} {phase : RequestPhase},
          s.requests t' = some r → (s.setPhase t' phase).requests t ≠ some q := by
        intro t' r phase hr h
        rw [setPhase_requests] at h
        split at h
        · next same =>
            subst same
            cases hq₀.symm.trans hr
        · cases hq₀.symm.trans h
      cases turn with
      | others requests _ _ => cases hq₀.symm.trans ((congrFun requests t).symm.trans hq)
      | sweep => cases hq₀.symm.trans hq
      | received _ =>
          rw [setRequest_requests] at hq
          split at hq
          · next same =>
              subst same
              exact .inl ⟨rfl, _, _, _, rfl, (Option.some.inj hq).symm⟩
          · cases hq₀.symm.trans hq
      | lookup hr entered =>
          obtain ⟨phase, _, requests⟩ := lookupReply_phase entered
          exact absurd (requests ▸ hq) (absent hr)
      | store hr computed =>
          obtain ⟨left, _, requests⟩ := storePayload_phase computed
          exact absurd (requests ▸ hq) (absent hr)
      | moves hr _ _ requests _ _ => exact absurd (requests ▸ hq) (absent hr)

end

end Plugin
end EvoclawPluginWechat
