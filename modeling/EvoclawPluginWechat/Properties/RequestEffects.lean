import EvoclawPluginWechat.Properties.BridgeHistory
import EvoclawPluginWechat.Properties.PoolLocks
import EvoclawPluginWechat.Properties.RequestSteps

/-!
Whose step a step of the plugin is, and what it does to what the requests hold: the handles
of the serializer, the calls of the pool and the asks on the bridges.
-/
namespace EvoclawPluginWechat
namespace Bridge
variable {ι : Type}

/-- The ask that takes the step; `none` for the reader task, the pipe and a new ask. -/
def Act.asker : Act ι → Option ι
  | .checkAlive i | .insert i | .lockStdin i | .write i _ | .writeNewline i | .flush i
  | .writeError i _ | .markDead i | .recv i | .drop i | .dropGuard i => some i
  | .call _ _ | .readLine _ | .readerEnd | .readerFlag | .readerDrain | .breakPipe => none

variable [DecidableEq ι] {W : Wire} {s s' : Bridge ι} {a : Act ι} {i j : ι}

theorem Move.place_other (m : Move W s a s') (other : a.asker ≠ some j)
    (nocall : ∀ i msg, a ≠ .call i msg) : s'.place j = s.place j := by
  cases m with
  | call _ => exact absurd rfl (nocall _ _)
  | checkOk ha _ | refused ha | lock ha _ | write ha _ | newline ha _ | flush ha | markDead ha
  | recvText ha | recvClosed ha _ | writeError ha _ _ | dropWriting ha _ | dropWaiting ha _ =>
      exact (place_setAsk s _ j _).trans (if_neg fun same => other (congrArg some same.symm))
  | insert ha | dropGuard ha =>
      exact (place_displace_setAsk s _ _ j _).trans
        (if_neg fun same => other (congrArg some same.symm))
  | readNoise _ | readerEnd _ | readerFlag _ | breakPipe => rfl
  | deliver _ _ => rw [place_deliver]
  | readerDrain _ =>
      change s.clear.place j = s.place j
      rw [place_clear]

end Bridge

namespace Plugin

/-- The request whose step it is; the requests come by themselves. -/
def Act.request : Act → Option TaskId
  | .acquire t | .lockOwned t | .grant t | .lookupReply t | .classifyByAi t | .route t _
  | .checkedOut t _ | .finishAsk t | .storeReply t | .release t | .disconnect t
  | .unwind t => some t
  | .pool a => some a.actor.1
  | .worker _ (.bridge a) => a.asker.map Prod.fst
  | .tick _ | .setClock _ | .receive _ _ _ _ | .worker _ (.answer _) | .worker _ .deliver
  | .worker _ .exit | .gcBegin _ | .gcVisit _ | .gcEnd | .gcReplies => none

variable {n : Nat}

/-- The request goes on by itself, with nothing under way. -/
structure Alone (s : Plugin n) (t : TaskId) (r : Request) (phase : RequestPhase)
    (s' : Plugin n) : Prop where
  serializer : s'.serializer = s.serializer
  pool : s'.pool = s.pool
  workers : s'.workers = s.workers
  requests : s'.requests = (s.setPhase t phase).requests
  held : r.phase.hold = phase.hold
  asks : phase.asks = none
  waits : ∀ stage, phase ≠ .checkout stage
  called : ∀ stage, r.phase = .checkout stage →
    ∃ result, s.pool.calls (t, stage) = some (.returned result)
  asked : ∀ stage b, r.phase.asks = some (stage, b) →
    ∃ result, s.askResult b (t, stage) = some result

variable [NeZero n]

inductive Effect (W : Wire) (cfg : HandlerCfg) (s : Plugin n) : Act → Plugin n → Prop
  /-- A step of no request, which leaves what they hold as it is. -/
  | outside {a : Act} {s' : Plugin n} : a.request = none → s'.requests = s.requests →
      s'.pool = s.pool → s'.serializer.handles = s.serializer.handles →
      (∀ b, (s'.workers b).bridge.place = (s.workers b).bridge.place) → Effect W cfg s a s'
  | receive {t : TaskId} {fromUser userMsg : String} {msgId : Option String} :
      s.requests t = none → Effect W cfg s (.receive t fromUser userMsg msgId)
        (s.setRequest t (some ⟨fromUser, userMsg, msgId, .dispatched⟩))
  | pool {op : BridgePool.Act AskId} {p : BridgePool n AskId} : (∀ c, op ≠ .call c) →
      (∀ c, op ≠ .cancel c) → s.pool.step s.alive s.now op = some p →
      Effect W cfg s (.pool op) { s with pool := p }
  | ask {b : BridgeId} {op : Bridge.Act AskId} {i : AskId} {w : Worker AskId} :
      op.asker = some i → (s.workers b).step W (.bridge op) = some w →
      Effect W cfg s (.worker b (.bridge op)) (s.setWorker b w)
  | serializer {a : Act} {t : TaskId} {r : Request} {op : ConvSerializer.Act}
      {ser : ConvSerializer} {phase : RequestPhase} : a.request = some t →
      s.requests t = some r → r.phase.Next phase → s.serializer.step op = some ser →
      r.phase.asks = none → phase.asks = none → (∀ stage, r.phase ≠ .checkout stage) →
      (∀ stage, phase ≠ .checkout stage) →
      (op = .acquire t (r.cid cfg) s.now ∧ phase.hold = some .returned ∨
        op = .lockOwned t ∧ phase.hold = some .waiting ∨
        op = .grant t ∧ phase.hold = some .inside ∨ op = .release t ∧ phase.hold = none) →
      Effect W cfg s a ({ s with serializer := ser }.setPhase t phase)
  | alone {a : Act} {t : TaskId} {r : Request} {phase : RequestPhase} {s' : Plugin n} :
      a.request = some t → s.requests t = some r → r.phase.Next phase →
      Alone s t r phase s' → Effect W cfg s a s'
  | call {a : Act} {t : TaskId} {r : Request} {classified : Bool} {stage : Stage}
      {p : BridgePool n AskId} : a.request = some t → s.requests t = some r →
      r.phase = .routing classified →
      (RequestPhase.routing classified).Next (.checkout stage) →
      s.pool.step s.alive s.now (.call (t, stage)) = some p →
      Effect W cfg s a ({ s with pool := p }.setPhase t (.checkout stage))
  | cancel {t : TaskId} {r : Request} {stage : Stage} {p : BridgePool n AskId} :
      s.requests t = some r → r.phase = .checkout stage →
      s.pool.step s.alive s.now (.cancel (t, stage)) = some p →
      Effect W cfg s (.disconnect t) ({ s with pool := p }.setPhase t (.leaving none))
  | startAsk {t : TaskId} {r : Request} {stage : Stage} {b : BridgeId} {ms : Int}
      {w : Worker AskId} : s.requests t = some r → r.phase = .checkout stage →
      s.pool.calls (t, stage) = some (.returned (.ok b)) →
      (s.workers b).step W (.bridge (.call (t, stage) (message cfg s r ms stage))) = some w →
      Effect W cfg s (.checkedOut t ms) ((s.setWorker b w).setPhase t (.asking stage b))
  | dropAsk {t : TaskId} {r : Request} {stage : Stage} {b : BridgeId} {w : Worker AskId} :
      s.requests t = some r → r.phase = .asking stage b →
      (s.workers b).step W (.bridge (.drop (t, stage))) = some w →
      Effect W cfg s (.disconnect t) ((s.setWorker b w).setPhase t (.abandoned stage b))

section
variable {W : Wire} {cfg : HandlerCfg} {s s' : Plugin n} {t : TaskId} {r : Request}

omit [NeZero n] in
theorem alone_of {phase : RequestPhase} (serializer : s'.serializer = s.serializer)
    (pool : s'.pool = s.pool) (workers : s'.workers = s.workers)
    (requests : s'.requests = (s.setPhase t phase).requests) (held : r.phase.hold = phase.hold)
    (idle : r.phase.asks = none ∧ phase.asks = none)
    (waits : ∀ stage, r.phase ≠ .checkout stage ∧ phase ≠ .checkout stage) :
    Alone s t r phase s' := by
  refine ⟨serializer, pool, workers, requests, held, idle.2, fun stage => (waits stage).2,
    fun stage h => absurd h (waits stage).1, fun stage b h => ?_⟩
  rw [idle.1] at h
  cases h

omit [NeZero n] in
theorem lookupReply_alone (entered : r.phase = .entered) :
    ∃ phase, r.phase.Next phase ∧ Alone s t r phase (s.lookupReply t r) := by
  have quiet : ∀ phase : RequestPhase, r.phase.Next phase → phase.asks = none →
      phase.hold = some .inside → (∀ stage, phase ≠ .checkout stage) →
      ∀ s' : Plugin n, s'.serializer = s.serializer → s'.pool = s.pool →
        s'.workers = s.workers → s'.requests = (s.setPhase t phase).requests →
      ∃ phase, r.phase.Next phase ∧ Alone s t r phase s' := by
    intro phase next asks hold waits s' serializer pool workers requests
    refine ⟨phase, next, alone_of serializer pool workers requests ?_ ⟨?_, asks⟩
      fun stage => ⟨?_, waits stage⟩⟩
    · rw [entered, hold]
      rfl
    · rw [entered]
      rfl
    · rw [entered]
      exact RequestPhase.noConfusion
  have found : ∀ payload, r.phase.Next (.leaving payload) := fun _ => by rw [entered]; exact .hit
  have missed : r.phase.Next (.routing false) := by rw [entered]; exact .miss
  unfold lookupReply
  split
  · exact quiet _ missed rfl rfl (fun _ => RequestPhase.noConfusion) _ rfl rfl rfl rfl
  · split
    · exact quiet _ (found _) rfl rfl (fun _ => RequestPhase.noConfusion) _ rfl rfl rfl rfl
    · exact quiet _ missed rfl rfl (fun _ => RequestPhase.noConfusion) _ rfl rfl rfl rfl
    · exact quiet _ (found _) rfl rfl (fun _ => RequestPhase.noConfusion) _ rfl rfl rfl rfl

omit [NeZero n] in
theorem storePayload_alone {payload : ReplyPayload} (computed : r.phase = .computed payload) :
    ∃ phase, r.phase.Next phase ∧ Alone s t r phase (s.storePayload t r payload) := by
  have quiet : ∀ left, ∀ s' : Plugin n, s'.serializer = s.serializer → s'.pool = s.pool →
      s'.workers = s.workers → s'.requests = (s.setPhase t (.leaving left)).requests →
      ∃ phase, r.phase.Next phase ∧ Alone s t r phase s' := by
    intro left s' serializer pool workers requests
    refine ⟨.leaving left, ?_, alone_of serializer pool workers requests ?_ ⟨?_, rfl⟩
      fun stage => ⟨?_, RequestPhase.noConfusion⟩⟩
    · rw [computed]
      exact .store
    · rw [computed]
      rfl
    · rw [computed]
      rfl
    · rw [computed]
      exact RequestPhase.noConfusion
  unfold storePayload
  split
  · split
    · exact quiet _ _ rfl rfl rfl rfl
    · exact quiet _ _ rfl rfl rfl rfl
  · exact quiet _ _ rfl rfl rfl rfl

omit [NeZero n] in
theorem alone_of_askOver {stage : Stage} {b : BridgeId} {phase : RequestPhase}
    {result : Option (Except PluginError String)} (asks : r.phase.asks = some (stage, b))
    (returned : s.askResult b (t, stage) = some result) (inside : phase.hold = some .inside)
    (idle : phase.asks = none) (waits : ∀ stage, phase ≠ .checkout stage) :
    Alone s t r phase (s.setPhase t phase) := by
  refine ⟨rfl, rfl, rfl, rfl, ?_, idle, waits, fun stage' h => ?_, fun stage' b' h => ?_⟩
  · rw [RequestPhase.hold_of_asks asks, inside]
  · rw [h] at asks
    cases asks
  · cases asks.symm.trans h
    exact ⟨result, returned⟩

omit [NeZero n] in
theorem afterAsk_quiet (cfg : HandlerCfg) (result : Option (Except PluginError String))
    (stage : Stage) : (afterAsk cfg result stage).asks = none ∧
      ∀ stage', afterAsk cfg result stage ≠ .checkout stage' := by
  cases stage with
  | classify => exact ⟨rfl, fun _ => RequestPhase.noConfusion⟩
  | reply => exact ⟨rfl, fun _ => RequestPhase.noConfusion⟩

theorem effect_of_startAsk {stage : Stage} {ms : Int} (hr : s.requests t = some r)
    (hp : r.phase = .checkout stage) (h : s.startAsk W cfg t r stage ms = some s') :
    Effect W cfg s (.checkedOut t ms) s' := by
  unfold startAsk at h
  split at h
  · next out =>
      obtain ⟨s₁, h₁, rfl⟩ := Option.map_eq_some_iff.mp h
      obtain ⟨w, hw, rfl⟩ := runWorker_eq_some.mp h₁
      exact .startAsk hr hp out hw
  · next e out =>
      cases h
      have quiet := afterAsk_quiet cfg (some (.error e)) stage
      refine .alone (r := r) rfl hr (by rw [hp]; exact next_afterAsk_checkout stage e)
        ⟨rfl, rfl, rfl, rfl, ?_, quiet.1, quiet.2, fun stage' same => ?_, fun stage' b same => ?_⟩
      · rw [hp, afterAsk_hold]
        rfl
      · rw [hp] at same
        cases same
        exact ⟨_, out⟩
      · rw [hp] at same
        cases same
  · cases h

theorem effect_of_disconnect (hr : s.requests t = some r)
    (h : s.disconnect W t r.phase = some s') : Effect W cfg s (.disconnect t) s' := by
  unfold disconnect at h
  split at h
  · next hp =>
      obtain ⟨s₁, h₁, rfl⟩ := Option.map_eq_some_iff.mp h
      obtain ⟨ser, hser, rfl⟩ := runSerializer_eq_some.mp h₁
      exact .serializer rfl hr (by rw [hp]; exact .giveUp) hser (by rw [hp]; rfl) rfl
        (fun stage => by rw [hp]; exact RequestPhase.noConfusion)
        (fun _ => RequestPhase.noConfusion) (.inr (.inr (.inr ⟨rfl, rfl⟩)))
  · next hp =>
      obtain ⟨s₁, h₁, rfl⟩ := Option.map_eq_some_iff.mp h
      obtain ⟨p, pool, rfl⟩ := runPool_eq_some.mp h₁
      exact .cancel hr hp pool
  · next hp =>
      obtain ⟨s₁, h₁, rfl⟩ := Option.map_eq_some_iff.mp h
      obtain ⟨w, hw, rfl⟩ := runWorker_eq_some.mp h₁
      exact .dropAsk hr hp hw
  · cases h

theorem effect_of_call {a : Act} {classified : Bool} {stage : Stage} (mine : a.request = some t)
    (hr : s.requests t = some r) (hp : r.phase = .routing classified)
    (next : (RequestPhase.routing classified).Next (.checkout stage))
    (h : ((s.runPool (.call (t, stage))).map fun s => s.setPhase t (.checkout stage)) = some s') :
    Effect W cfg s a s' := by
  obtain ⟨s₁, h₁, rfl⟩ := Option.map_eq_some_iff.mp h
  obtain ⟨p, pool, rfl⟩ := runPool_eq_some.mp h₁
  exact .call mine hr hp next pool

theorem effect_of_worker {b : BridgeId} {a : Worker.Act AskId}
    (h : s.step W cfg (.worker b a) = some s') : Effect W cfg s (.worker b a) s' := by
  have outside : ∀ w, (Act.worker b a).request = none →
      w.bridge.place = (s.workers b).bridge.place →
      Effect W cfg s (.worker b a) (s.setWorker b w) := by
    intro w nobody same
    refine .outside nobody rfl rfl rfl fun b' => ?_
    obtain ⟨rfl, new⟩ | new := setWorker_workers s b b' w
    · rw [new, same]
    · rw [new]
  have own : ∀ op, a = .bridge op → (∀ i msg, op ≠ .call i msg) →
      s.runWorker W b a = some s' → Effect W cfg s (.worker b a) s' := by
    rintro op rfl nocall h
    obtain ⟨w, hw, rfl⟩ := runWorker_eq_some.mp h
    cases hi : op.asker with
    | some i => exact .ask hi hw
    | none =>
        refine outside w ?_ ?_
        · rw [Act.request, hi]
          rfl
        · funext j
          cases Worker.move_of_step hw with
          | bridge _ m => exact m.place_other (by rw [hi]; simp) nocall
  cases a with
  | bridge op =>
      cases op with
      | call i msg => cases h
      | _ => exact own _ rfl (fun _ _ same => by cases same) h
  | answer out =>
      obtain ⟨w, hw, rfl⟩ := runWorker_eq_some.mp h
      refine outside w rfl ?_
      cases Worker.move_of_step hw with
      | answer _ _ _ _ _ => rfl
  | deliver =>
      obtain ⟨w, hw, rfl⟩ := runWorker_eq_some.mp h
      refine outside w rfl ?_
      funext j
      cases Worker.move_of_step hw with
      | deliver _ m => exact m.place_other (fun same => by cases same) fun _ _ same => by cases same
  | exit =>
      obtain ⟨w, hw, rfl⟩ := runWorker_eq_some.mp h
      refine outside w rfl ?_
      cases Worker.move_of_step hw with
      | exit => rfl

theorem effect_of_step {a : Act} (h : s.step W cfg a = some s') : Effect W cfg s a s' := by
  have serial : ∀ {phase : RequestPhase} {op : ConvSerializer.Act} {t : TaskId} {r : Request},
      a.request = some t → s.requests t = some r → r.phase.Next phase → r.phase.asks = none →
      phase.asks = none → (∀ stage, r.phase ≠ .checkout stage ∧ phase ≠ .checkout stage) →
      (op = .acquire t (r.cid cfg) s.now ∧ phase.hold = some .returned ∨
        op = .lockOwned t ∧ phase.hold = some .waiting ∨
        op = .grant t ∧ phase.hold = some .inside ∨ op = .release t ∧ phase.hold = none) →
      ((s.runSerializer op).map fun s => s.setPhase t phase) = some s' → Effect W cfg s a s' := by
    intro phase op t r mine hr next asks asks' waits which h
    obtain ⟨s₁, h₁, rfl⟩ := Option.map_eq_some_iff.mp h
    obtain ⟨ser, hser, rfl⟩ := runSerializer_eq_some.mp h₁
    exact .serializer mine hr next hser asks asks' (fun stage => (waits stage).1)
      (fun stage => (waits stage).2) which
  have waitless : ∀ {p p' : RequestPhase}, (∀ stage, p ≠ .checkout stage) →
      (∀ stage, p' ≠ .checkout stage) → ∀ stage, p ≠ .checkout stage ∧ p' ≠ .checkout stage :=
    fun before after stage => ⟨before stage, after stage⟩
  cases a with
  | tick _ | setClock _ =>
      cases h
      exact .outside rfl rfl rfl rfl fun _ => rfl
  | receive t fromUser userMsg msgId =>
      simp only [step] at h
      split at h
      · next hr => cases h; exact .receive hr
      · cases h
  | acquire t =>
      simp only [step] at h
      split at h
      · next hr =>
          exact serial rfl hr .acquire rfl rfl (waitless (by simp) (by simp)) (.inl ⟨rfl, rfl⟩) h
      · cases h
  | lockOwned t =>
      simp only [step] at h
      split at h
      · next hr =>
          exact serial rfl hr .lockOwned rfl rfl (waitless (by simp) (by simp))
            (.inr (.inl ⟨rfl, rfl⟩)) h
      · cases h
  | grant t =>
      simp only [step] at h
      split at h
      · next hr =>
          exact serial rfl hr .grant rfl rfl (waitless (by simp) (by simp))
            (.inr (.inr (.inl ⟨rfl, rfl⟩))) h
      · cases h
  | lookupReply t =>
      simp only [step] at h
      split at h
      · next hr =>
          cases h
          obtain ⟨phase, next, alone⟩ :=
            lookupReply_alone (s := s) (t := t) (r := ⟨_, _, _, .entered⟩) rfl
          exact .alone rfl hr next alone
      · cases h
  | classifyByAi t =>
      simp only [step] at h
      split at h
      · next hr => exact effect_of_call rfl hr rfl .classify h
      · cases h
  | route t reply =>
      simp only [step] at h
      split at h
      · next hr =>
          split at h
          · cases h
            exact .alone rfl hr .route
              (alone_of rfl rfl rfl rfl rfl ⟨rfl, rfl⟩ (waitless (by simp) (by simp)))
          · cases h
            exact .alone rfl hr .route
              (alone_of rfl rfl rfl rfl rfl ⟨rfl, rfl⟩ (waitless (by simp) (by simp)))
          · exact effect_of_call rfl hr rfl .fallback h
      · cases h
  | checkedOut t ms =>
      simp only [step] at h
      split at h
      · next hr => exact effect_of_startAsk hr rfl h
      · cases h
  | finishAsk t =>
      simp only [step] at h
      split at h
      · next hr =>
          obtain ⟨result, returned, rfl⟩ := Option.map_eq_some_iff.mp h
          have quiet := afterAsk_quiet cfg result
          exact .alone rfl hr (next_afterAsk_asking _ _ result)
            (alone_of_askOver rfl returned (afterAsk_hold _ _) (quiet _).1 (quiet _).2)
      · cases h
  | storeReply t =>
      simp only [step] at h
      split at h
      · next payload hr =>
          cases h
          obtain ⟨phase, next, alone⟩ := storePayload_alone (s := s) (t := t)
            (r := ⟨_, _, _, .computed payload⟩) rfl
          exact .alone rfl hr next alone
      · cases h
  | release t =>
      simp only [step] at h
      split at h
      · next hr =>
          exact serial rfl hr .release rfl rfl (waitless (by simp) (by simp))
            (.inr (.inr (.inr ⟨rfl, rfl⟩))) h
      · cases h
  | disconnect t =>
      simp only [step] at h
      split at h
      · next hr => exact effect_of_disconnect hr h
      · cases h
  | unwind t =>
      simp only [step] at h
      split at h
      · next hr =>
          obtain ⟨result, returned, rfl⟩ := Option.map_eq_some_iff.mp h
          exact .alone rfl hr .unwind (alone_of_askOver rfl returned rfl rfl (by simp))
      · cases h
  | pool a =>
      have inner : ∀ {op : BridgePool.Act AskId}, (∀ c, op ≠ .call c) → (∀ c, op ≠ .cancel c) →
          s.runPool op = some s' → Effect W cfg s (.pool op) s' := by
        intro op nocall nocancel h
        obtain ⟨p, pool, rfl⟩ := runPool_eq_some.mp h
        exact .pool nocall nocancel pool
      cases a with
      | call c | cancel c => cases h
      | fetchAdd c | readSlot c | testCooldown c | lockSlot c | recheck c | spawnOk c | spawnErr c
      | markRespawnFailed c | giveUp c => exact inner (by simp) (by simp) h
  | worker b a => exact effect_of_worker h
  | gcBegin _ | gcVisit _ | gcEnd =>
      obtain ⟨ser, hser, rfl⟩ := runSerializer_eq_some.mp h
      have moved := ConvSerializer.handleMove_of_step hser
      generalize same : ser.handles = after at moved
      cases moved
      exact .outside rfl rfl rfl same fun _ => rfl
  | gcReplies =>
      cases h
      exact .outside rfl rfl rfl rfl fun _ => rfl

end
end Plugin
end EvoclawPluginWechat
