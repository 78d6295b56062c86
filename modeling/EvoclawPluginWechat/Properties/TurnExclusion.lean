import EvoclawPluginWechat.Properties.PluginSteps

/-!
Who asks is inside: an ask in flight belongs to a request that holds the guard of its
conversation. So a fan never has two asks in flight, on whatever bridges.
-/
namespace EvoclawPluginWechat

/-- The ask comes from `ask_with_timeout`, not from the classifier. -/
def AskId.ofFan (i : AskId) : Bool := i.2 == .reply

namespace Plugin
variable {n : Nat} {W : Wire} {cfg : HandlerCfg} {s s' : Plugin n}

structure Attended (cfg : HandlerCfg) (s : Plugin n) : Prop where
  linked : s.serializer.Linked
  handle : ∀ t r hold, s.requests t = some r → r.phase.hold = some hold →
    ∃ m, s.serializer.handles.lookup t = some ⟨r.cid cfg, m, hold⟩
  /-- An ask belongs to a request, which waits for it as long as it is in flight. -/
  asked : ∀ b i msg p, (s.workers b).bridge.place i = some (msg, p) →
    ∃ r, s.requests i.1 = some r ∧ r.Speaks cfg i.2 msg.conversationId ∧
      (p.isDone = false → r.phase.asks = some (i.2, b))

theorem attended_new [NeZero n] : Attended cfg (new : Plugin n) := by
  refine ⟨ConvSerializer.linked_new, fun t r hold h => ?_, fun b i msg p h => ?_⟩
  · cases h
  · cases h

theorem setRequest_requests (s : Plugin n) (t t' : TaskId) (r : Option Request) :
    (s.setRequest t r).requests t' = if t' = t then r else s.requests t' := by
  simp only [setRequest, Function.update_apply]

theorem setPhase_requests (s : Plugin n) (t t' : TaskId) (phase : RequestPhase) :
    (s.setPhase t phase).requests t' =
      if t' = t then (s.requests t).map fun r => { r with phase } else s.requests t' := by
  rw [setPhase, setRequest_requests]

theorem setPhase_requests_self {t : TaskId} {r : Request} (phase : RequestPhase)
    (hr : s.requests t = some r) :
    (s.setPhase t phase).requests t = some { r with phase } := by
  rw [setPhase_requests, if_pos rfl, hr]
  rfl

theorem Attended.asked_setPhase (hs : Attended cfg s) {t : TaskId} {r : Request}
    {phase : RequestPhase} (hr : s.requests t = some r)
    (hworkers : s'.workers = s.workers) (hrequests : s'.requests = (s.setPhase t phase).requests)
    (flight : ∀ b stage msg p, (s.workers b).bridge.place (t, stage) = some (msg, p) →
      p.isDone = false → phase.asks = some (stage, b))
    (b : BridgeId) (i : AskId) (msg : InboundMessage) (p : AskPhase)
    (h : (s'.workers b).bridge.place i = some (msg, p)) :
    ∃ r, s'.requests i.1 = some r ∧ r.Speaks cfg i.2 msg.conversationId ∧
      (p.isDone = false → r.phase.asks = some (i.2, b)) := by
  rw [hworkers] at h
  rw [hrequests]
  obtain ⟨r', hr', speaks, waits⟩ := hs.asked b i msg p h
  by_cases same : i.1 = t
  · obtain ⟨t', stage⟩ := i
    obtain rfl : t' = t := same
    obtain rfl := Option.some.inj (hr.symm.trans hr')
    exact ⟨_, setPhase_requests_self phase hr, speaks, flight b stage msg p h⟩
  · refine ⟨r', ?_, speaks, waits⟩
    rw [setPhase_requests, if_neg same, hr']

theorem Attended.idle_flight (hs : Attended cfg s) {t : TaskId} {r : Request}
    {phase : RequestPhase} (hr : s.requests t = some r) (idle : r.phase.asks = none)
    (b : BridgeId) (stage : Stage) (msg : InboundMessage) (p : AskPhase)
    (h : (s.workers b).bridge.place (t, stage) = some (msg, p)) (flight : p.isDone = false) :
    phase.asks = some (stage, b) := by
  obtain ⟨r', hr', _, waits⟩ := hs.asked b _ msg p h
  obtain rfl := Option.some.inj (hr.symm.trans hr')
  cases idle.symm.trans (waits flight)

theorem Attended.handle_setPhase (hs : Attended cfg s) {t : TaskId} {r : Request}
    {phase : RequestPhase} (hr : s.requests t = some r)
    (hrequests : s'.requests = (s.setPhase t phase).requests)
    (own : ∀ hold, phase.hold = some hold →
      ∃ m, s'.serializer.handles.lookup t = some ⟨r.cid cfg, m, hold⟩)
    (others : ∀ t', t' ≠ t →
      s'.serializer.handles.lookup t' = s.serializer.handles.lookup t')
    (t' : TaskId) (r' : Request) (hold : Hold) (h : s'.requests t' = some r')
    (hh : r'.phase.hold = some hold) :
    ∃ m, s'.serializer.handles.lookup t' = some ⟨r'.cid cfg, m, hold⟩ := by
  rw [hrequests] at h
  by_cases same : t' = t
  · subst same
    rw [setPhase_requests_self phase hr] at h
    obtain rfl := Option.some.inj h
    exact own hold hh
  · rw [setPhase_requests, if_neg same] at h
    rw [others t' same]
    exact hs.handle t' r' hold h hh

theorem Attended.inner (hs : Attended cfg s) {t : TaskId} {r : Request} {phase : RequestPhase}
    (hr : s.requests t = some r) (hi : Inner s t r phase s') : Attended cfg s' := by
  refine ⟨hi.serializer ▸ hs.linked, ?_, ?_⟩
  · refine hs.handle_setPhase hr hi.requests (fun hold h => ?_) fun t' _ => ?_
    · rw [hi.after] at h
      cases h
      rw [hi.serializer]
      exact hs.handle t r _ hr hi.before
    · rw [hi.serializer]
  · refine hs.asked_setPhase hr hi.workers hi.requests fun b stage msg p h flight => ?_
    obtain ⟨r', hr', _, waits⟩ := hs.asked b _ msg p h
    obtain rfl := Option.some.inj (hr.symm.trans hr')
    obtain ⟨result, returned⟩ := hi.returned stage b (waits flight)
    obtain ⟨cell, ha⟩ := Bridge.place_eq_some.mp h
    rw [askResult, ha] at returned
    split at returned
    · next same =>
        cases same
        cases flight
    · cases returned

theorem Attended.serialize (hs : Attended cfg s) {t : TaskId} {r : Request}
    {phase : RequestPhase} {op : ConvSerializer.Act} {ser : ConvSerializer}
    (hr : s.requests t = some r) (idle : r.phase.asks = none)
    (hop : s.serializer.step op = some ser)
    (own : ∀ hold, phase.hold = some hold →
      ∃ m, ser.handles.lookup t = some ⟨r.cid cfg, m, hold⟩)
    (others : ∀ t', t' ≠ t → ser.handles.lookup t' = s.serializer.handles.lookup t') :
    Attended cfg ({ s with serializer := ser }.setPhase t phase) := by
  refine ⟨ConvSerializer.linked_step hs.linked op hop, ?_, ?_⟩
  · exact hs.handle_setPhase hr rfl own others
  · exact hs.asked_setPhase hr rfl rfl (hs.idle_flight hr idle)

theorem Attended.rehold (hs : Attended cfg s) {t : TaskId} {r : Request} {phase : RequestPhase}
    {op : ConvSerializer.Act} {ser : ConvSerializer} {m : MutexId} {hold : Hold}
    (hr : s.requests t = some r) (idle : r.phase.asks = none)
    (hop : s.serializer.step op = some ser)
    (after : ser.handles = s.serializer.handles.insert t ⟨r.cid cfg, m, hold⟩)
    (hp : phase.hold = some hold) :
    Attended cfg ({ s with serializer := ser }.setPhase t phase) := by
  refine hs.serialize hr idle hop (fun hold' h => ?_) fun t' ht => ?_
  · obtain rfl := Option.some.inj (hp.symm.trans h)
    rw [after, AList.lookup_insert]
    exact ⟨m, rfl⟩
  · rw [after, AList.lookup_insert_ne ht]

end Plugin

namespace Worker
variable {ι : Type} [DecidableEq ι] {W : Wire} {w w' : Worker ι}

theorem Move.place_before {a : Act ι} (m : Move W w a w') {i : ι} {msg : InboundMessage}
    {p' : AskPhase} (h : w'.bridge.place i = some (msg, p')) :
    (∃ p, w.bridge.place i = some (msg, p) ∧ p.Later p') ∨
      a = .bridge (.call i msg) ∧ p' = .called := by
  cases m with
  | bridge quiet m =>
      obtain before | ⟨call, _, called⟩ := m.place_before h
      · exact .inl before
      · exact .inr ⟨congrArg Act.bridge call, called⟩
  | answer _ _ _ _ _ | exit => exact .inl ⟨p', h, id, fun _ => rfl⟩
  | deliver _ m =>
      obtain before | ⟨call, _, _⟩ := m.place_before h
      · exact .inl before
      · cases call

end Worker

namespace Plugin
variable {n : Nat} {W : Wire} {cfg : HandlerCfg} {s s' : Plugin n}

theorem Attended.asked_worker (hs : Attended cfg s) {b : BridgeId} {a : Worker.Act AskId}
    {w : Worker AskId} (hw : (s.workers b).step W a = some w)
    (hworkers : s'.workers = (s.setWorker b w).workers) {b' : BridgeId} {i : AskId}
    {msg : InboundMessage} {p' : AskPhase}
    (h : (s'.workers b').bridge.place i = some (msg, p')) :
    (∃ r, s.requests i.1 = some r ∧ r.Speaks cfg i.2 msg.conversationId ∧
      (p'.isDone = false → r.phase.asks = some (i.2, b'))) ∨
      b' = b ∧ a = .bridge (.call i msg) := by
  rw [hworkers] at h
  obtain ⟨rfl, same⟩ | same := setWorker_workers s b b' w
  · rw [same] at h
    obtain ⟨p, hp, later⟩ | ⟨call, _⟩ := (Worker.move_of_step hw).place_before h
    · obtain ⟨r, hr, speaks, waits⟩ := hs.asked b' i msg p hp
      exact .inl ⟨r, hr, speaks, fun flight => waits (later.unfinished flight)⟩
    · exact .inr ⟨rfl, call⟩
  · rw [same] at h
    exact .inl (hs.asked b' i msg p' h)

theorem Attended.worker (hs : Attended cfg s) {b : BridgeId} {a : Worker.Act AskId}
    {w : Worker AskId} (nocall : ∀ i msg, a ≠ .bridge (.call i msg))
    (hw : (s.workers b).step W a = some w) : Attended cfg (s.setWorker b w) := by
  refine ⟨hs.linked, hs.handle, fun b' i msg p h => ?_⟩
  have same : (s.setWorker b w).workers = (s.setWorker b w).workers := rfl
  obtain kept | ⟨_, call⟩ := hs.asked_worker hw same h
  · exact kept
  · exact absurd call (nocall i msg)

theorem Attended.ask (hs : Attended cfg s) {t : TaskId} {r : Request} {stage : Stage}
    {phase : RequestPhase} {b : BridgeId} {a : Worker.Act AskId} {w : Worker AskId}
    (hr : s.requests t = some r) (before : r.phase.hold = some .inside)
    (after : phase.hold = some .inside) (asks : phase.asks = some (stage, b))
    (asked : r.phase.asks = none ∨ r.phase.asks = some (stage, b))
    (call : ∀ i msg, a = .bridge (.call i msg) →
      i = (t, stage) ∧ r.Speaks cfg stage msg.conversationId)
    (hw : (s.workers b).step W a = some w) :
    Attended cfg ((s.setWorker b w).setPhase t phase) := by
  have hrequests : ((s.setWorker b w).setPhase t phase).requests = (s.setPhase t phase).requests :=
    rfl
  refine ⟨hs.linked, ?_, fun b' i msg p h => ?_⟩
  · refine hs.handle_setPhase hr hrequests (fun hold h => ?_) fun _ _ => rfl
    rw [after] at h
    cases h
    exact hs.handle t r _ hr before
  · have hworkers : ((s.setWorker b w).setPhase t phase).workers = (s.setWorker b w).workers := rfl
    rw [hrequests]
    obtain ⟨r', hr', speaks, waits⟩ | ⟨rfl, called⟩ := hs.asked_worker hw hworkers h
    · by_cases same : i.1 = t
      · obtain ⟨t', stage'⟩ := i
        obtain rfl : t' = t := same
        obtain rfl := Option.some.inj (hr.symm.trans hr')
        refine ⟨_, setPhase_requests_self phase hr, speaks, fun flight => ?_⟩
        obtain none' | some' := asked
        · cases none'.symm.trans (waits flight)
        · exact asks.trans (some'.symm.trans (waits flight))
      · refine ⟨r', ?_, speaks, waits⟩
        rw [setPhase_requests, if_neg same, hr']
    · obtain ⟨rfl, speaks⟩ := call i msg called
      exact ⟨_, setPhase_requests_self phase hr, speaks, fun _ => asks⟩

theorem attended_move [NeZero n] {a : Act} (hs : Attended cfg s) (m : Move W cfg s a s') :
    Attended cfg s' := by
  cases m with
  | quiet hser hw hreq =>
      refine ⟨hser ▸ hs.linked, ?_, ?_⟩
      · rw [hreq, hser]
        exact hs.handle
      · rw [hreq, hw]
        exact hs.asked
  | @receive t _ _ _ hr =>
      have absent : ∀ t' r', s.requests t' = some r' → t' ≠ t := by
        rintro t' r' h rfl
        cases hr.symm.trans h
      refine ⟨hs.linked, fun t' r' hold h hh => ?_, fun b i msg p h => ?_⟩
      · rw [setRequest_requests] at h
        split at h
        · cases h
          cases hh
        · exact hs.handle t' r' hold h hh
      · obtain ⟨r', hr', rest⟩ := hs.asked b i msg p h
        refine ⟨r', ?_, rest⟩
        rw [setRequest_requests, if_neg (absent _ _ hr'), hr']
  | acquire hr hp hser =>
      obtain ⟨m, after⟩ := ConvSerializer.handles_acquire hser
      exact hs.rehold hr (by rw [hp]; rfl) hser after rfl
  | lockOwned hr hp hser =>
      obtain ⟨m, own⟩ := hs.handle _ _ .returned hr (by rw [hp]; rfl)
      have after := ConvSerializer.handles_lockOwned hser own
      exact hs.rehold hr (by rw [hp]; rfl) hser after rfl
  | grant hr hp hser =>
      obtain ⟨m, own⟩ := hs.handle _ _ .waiting hr (by rw [hp]; rfl)
      have after := ConvSerializer.handles_grant hser own
      exact hs.rehold hr (by rw [hp]; rfl) hser after rfl
  | release hr idle hser =>
      refine hs.serialize hr idle hser (fun hold h => (by cases h)) fun t' ht => ?_
      rw [ConvSerializer.handles_release hser, AList.lookup_erase_ne ht]
  | inner hr hi => exact hs.inner hr hi
  | startAsk hr hp _ hw =>
      refine hs.ask hr (by rw [hp]; rfl) rfl rfl (.inl (by rw [hp]; rfl)) (fun i msg h => ?_) hw
      cases h
      exact ⟨rfl, message_speaks _ _ _ _⟩
  | dropAsk hr hp hw =>
      refine hs.ask hr (by rw [hp]; rfl) rfl rfl (.inr (by rw [hp]; rfl)) (fun i msg h => ?_) hw
      cases h
  | worker nocall hw => exact hs.worker nocall hw
  | gc hser same =>
      refine ⟨ConvSerializer.linked_step hs.linked _ hser, ?_, hs.asked⟩
      intro t r hold hr hh
      rw [same]
      exact hs.handle t r hold hr hh

/-- The conversation of a fan belongs to one request inside at a time, for one stage. -/
theorem Attended.one_speaker (hs : Attended cfg s) {t t' : TaskId} {r r' : Request}
    {stage : Stage} {cid : String} (hr : s.requests t = some r) (hr' : s.requests t' = some r')
    (inside : r.phase.hold = some .inside) (inside' : r'.phase.hold = some .inside)
    (speaks : r.Speaks cfg .reply cid) (speaks' : r'.Speaks cfg stage cid) :
    t = t' ∧ stage = .reply := by
  cases stage with
  | classify =>
      obtain ⟨nanos, ephemeral⟩ := speaks'
      exact absurd (speaks.symm.trans ephemeral) (buildConversationId_ne_ephemeralCid _ _ _)
  | reply =>
      obtain ⟨m, hm⟩ := hs.handle t r _ hr inside
      obtain ⟨m', hm'⟩ := hs.handle t' r' _ hr' inside'
      rw [← speaks] at hm
      rw [← speaks'] at hm'
      exact ⟨hs.linked.inside_unique ⟨m, hm⟩ ⟨m', hm'⟩, rfl⟩

/-- A request that is about to ask finds no ask in flight in the conversation it will use,
where one of the two is a fan's. -/
theorem Attended.none_asks (hs : Attended cfg s) {t : TaskId} {r : Request} {stage : Stage}
    {cid : String} (hr : s.requests t = some r) (hp : r.phase = .checkout stage)
    (speaks : r.Speaks cfg stage cid) {b : BridgeId} {j : AskId} {msg : InboundMessage}
    {p : AskPhase} (hj : (s.workers b).bridge.place j = some (msg, p)) (flight : p.isDone = false)
    (fan : stage = .reply ∨ j.2 = .reply) : msg.conversationId ≠ cid := by
  intro same
  obtain ⟨r', hr', speaks', waits⟩ := hs.asked b j msg p hj
  rw [same] at speaks'
  have inside : r.phase.hold = some .inside := by
    rw [hp]
    rfl
  have inside' := RequestPhase.hold_of_asks (waits flight)
  have task : t = j.1 := by
    obtain rfl | fan := fan
    · exact (hs.one_speaker hr hr' inside inside' speaks speaks').1
    · rw [fan] at speaks'
      exact (hs.one_speaker hr' hr inside' inside speaks' speaks).1.symm
  rw [← task] at hr'
  obtain rfl := Option.some.inj (hr.symm.trans hr')
  have asks := waits flight
  rw [hp] at asks
  cases asks

/-- No two asks of one conversation are in flight where one of them is a fan's. -/
theorem Attended.one_ask (hs : Attended cfg s) {b b' : BridgeId} {i j : AskId}
    {msg msg' : InboundMessage} {p p' : AskPhase} (fan : i.2 = .reply)
    (hi : (s.workers b).bridge.place i = some (msg, p))
    (hj : (s.workers b').bridge.place j = some (msg', p')) (flight : p.isDone = false)
    (flight' : p'.isDone = false) (same : msg'.conversationId = msg.conversationId) :
    b = b' ∧ i = j := by
  obtain ⟨r, hr, speaks, waits⟩ := hs.asked b i msg p hi
  obtain ⟨r', hr', speaks', waits'⟩ := hs.asked b' j msg' p' hj
  rw [fan] at speaks
  rw [same] at speaks'
  obtain ⟨task, stage⟩ := hs.one_speaker hr hr' (RequestPhase.hold_of_asks (waits flight))
    (RequestPhase.hold_of_asks (waits' flight')) speaks speaks'
  rw [task] at hr
  obtain rfl := Option.some.inj (hr.symm.trans hr')
  have one := (waits flight).symm.trans (waits' flight')
  rw [Option.some.injEq, Prod.mk.injEq] at one
  exact ⟨one.2, Prod.ext task one.1⟩

end Plugin
end EvoclawPluginWechat
