import EvoclawPluginWechat.Core.ConfiguredPlugin
import EvoclawPluginWechat.Properties.RequestOwnership

/-!
What comes of the stages of a request. The checkout of a stage and its ask leave their results
in the state, where no later step changes them; the ask is at the bridge that was checked out,
and its arguments are those of the request.
-/
namespace EvoclawPluginWechat

namespace Plugin
variable {n : Nat} [NeZero n] {W : Wire} {cfg : HandlerCfg} {s s' : Plugin n} {t : TaskId}

/-- A step and a checkout: it is left as it is, it goes on, or its request begins it. -/
theorem call_cases {a : Act} (e : Effect W cfg s a s') (c : AskId) :
    s'.pool.calls c = s.pool.calls c ∨
      (∃ ph, s.pool.calls c = some ph ∧ 0 < ph.stepsLeft ∧ s'.pool.calls c ≠ none) ∨
      s.pool.calls c = none ∧ ∃ r, s'.requests c.1 = some r ∧ r.phase = .checkout c.2 := by
  cases e with
  | outside _ _ pool _ _ => exact .inl (by rw [pool])
  | receive _ | ask _ _ | serializer _ _ _ _ _ _ _ _ _ | startAsk _ _ _ _ | dropAsk _ _ _ =>
      exact .inl rfl
  | alone _ _ _ alone => exact .inl (by rw [alone.pool])
  | @pool op p nocall nocancel hp =>
      have m := BridgePool.move_of_step hp
      by_cases same : c = op.actor
      · obtain ⟨ph, ph', before, after, _, less⟩ := m.charge nocall nocancel
        subst same
        exact .inr (.inl ⟨ph, before, by omega, by simp [after]⟩)
      · exact .inl (m.calls_other same)
  | @call _ t r _ stage p _ hr _ _ hp =>
      obtain ⟨fresh, calls⟩ := BridgePool.call_eq_some hp
      by_cases same : c = (t, stage)
      · subst same
        exact .inr (.inr ⟨fresh, _, setPhase_requests_self _ hr, rfl⟩)
      · refine .inl ?_
        change p.calls c = _
        rw [calls, Function.update_of_ne same]
  | @cancel t r stage p hr _ hp =>
      have m := BridgePool.move_of_step hp
      by_cases same : c = (t, stage)
      · subst same
        refine .inr (.inl ?_)
        have after : p.calls (t, stage) ≠ none := by
          rw [BridgePool.cancel_eq_some hp, Function.update_self]
          simp
        cases m with
        | cancelRead hc | cancelWrite hc =>
            exact ⟨_, hc, by simp only [CheckoutPhase.stepsLeft]; omega, after⟩
      · exact .inl (m.calls_other same)

/-- A step and an ask: it is left as it is, it goes on with its message, or its request begins
it at the bridge that was checked out. -/
theorem place_cases {a : Act} (e : Effect W cfg s a s') (b : BridgeId) (i : AskId) :
    s'.placeOf b i = s.placeOf b i ∨
      (∃ msg p p', s.placeOf b i = some (msg, p) ∧ p.isDone = false ∧
        s'.placeOf b i = some (msg, p')) ∨
      s.placeOf b i = none ∧ ∃ r ms p, s.requests i.1 = some r ∧
        s.pool.calls i = some (.returned (.ok b)) ∧
          s'.placeOf b i = some (message cfg s r ms i.2, p) := by
  have moved : ∀ {b' : BridgeId} {op : Bridge.Act AskId} {w : Worker AskId} {j : AskId},
      op.asker = some j → (s.workers b').step W (.bridge op) = some w →
      (s.setWorker b' w).placeOf b i = s.placeOf b i ∨
        ∃ msg p p', s.placeOf b i = some (msg, p) ∧ p.isDone = false ∧
          (s.setWorker b' w).placeOf b i = some (msg, p') := by
    intro b' op w j hj hw
    by_cases same : b = b' ∧ i = j
    · obtain ⟨rfl, rfl⟩ := same
      cases Worker.move_of_step hw with
      | bridge _ m =>
          obtain ⟨msg, p, p', before, after, flight, _⟩ := m.charge hj
          refine .inr ⟨msg, p, p', before, flight, ?_⟩
          rw [setWorker_placeOf, if_pos rfl]
          exact after
    · exact .inl (placeOf_step (.inl hj) hw b fun hb hi => same ⟨hb, hi⟩)
  cases e with
  | outside _ _ _ _ places => exact .inl (congrFun (places b) i)
  | receive _ | pool _ _ _ | serializer _ _ _ _ _ _ _ _ _ | call _ _ _ _ _ | cancel _ _ _ =>
      exact .inl rfl
  | alone _ _ _ alone => exact .inl (by rw [placeOf, alone.workers]; rfl)
  | ask hi hw =>
      obtain same | going := moved hi hw
      · exact .inl same
      · exact .inr (.inl going)
  | dropAsk _ _ hw =>
      obtain same | going := moved rfl hw
      · exact .inl same
      · exact .inr (.inl going)
  | @startAsk t r stage b' ms w hr _ out hw =>
      by_cases same : b = b' ∧ i = (t, stage)
      · obtain ⟨rfl, rfl⟩ := same
        cases Worker.move_of_step hw with
        | bridge _ m =>
            cases m with
            | call fresh =>
                refine .inr (.inr ⟨by rw [placeOf, Bridge.place, fresh]; rfl, r, ms, .called, hr,
                  out, ?_⟩)
                change (s.setWorker b _).placeOf b (t, stage) = _
                rw [setWorker_placeOf, if_pos rfl]
                exact (Bridge.place_setAsk _ _ _ _).trans (if_pos rfl)
      · exact .inl (placeOf_step (.inr ⟨_, rfl⟩) hw b fun hb hi => same ⟨hb, hi⟩)

theorem returned_after {a : Act} (e : Effect W cfg s a s') {c : AskId}
    {result : Except PluginError BridgeId} (hc : s.pool.calls c = some (.returned result)) :
    s'.pool.calls c = some (.returned result) := by
  obtain same | ⟨ph, before, left, _⟩ | ⟨fresh, _⟩ := call_cases e c
  · rw [same, hc]
  · cases before.symm.trans hc
    cases left
  · cases fresh.symm.trans hc

theorem place_after {a : Act} (e : Effect W cfg s a s') {b : BridgeId} {i : AskId}
    {msg : InboundMessage} {p : AskPhase} (hx : s.placeOf b i = some (msg, p)) :
    ∃ p', s'.placeOf b i = some (msg, p') ∧ (p.isDone = true → p' = p) := by
  obtain same | ⟨_, _, p', before, flight, after⟩ | ⟨fresh, _⟩ := place_cases e b i
  · exact ⟨p, same.trans hx, fun _ => rfl⟩
  · cases before.symm.trans hx
    refine ⟨p', after, fun ended => ?_⟩
    rw [flight] at ended
    cases ended
  · cases fresh.symm.trans hx

end Plugin

/-- The call of `ask` in a stage, at a reading of the wall clock. -/
def Request.call (cfg : HandlerCfg) (r : Request) (wall : Int) : Stage → AskCall
  | .classify => ⟨ephemeralCid (currentUnixNanos wall), "intent-classifier", cfg.prompt r.userMsg⟩
  | .reply => ⟨r.cid cfg, r.fromUser, r.userMsg⟩

namespace Plugin
variable {n : Nat} {W : Wire} {cfg : HandlerCfg} {s s' : Plugin n} {t : TaskId} {r : Request}

theorem message_call (r : Request) (ms : Int) (stage : Stage) :
    (message cfg s r ms stage).call = r.call cfg s.wall stage := by
  cases stage <;> rfl

/-- Where the asks are, and what they ask. -/
structure Placed (cfg : HandlerCfg) (s : Plugin n) : Prop where
  checkedOut : ∀ b t stage x, s.placeOf b (t, stage) = some x →
    s.pool.calls (t, stage) = some (.returned (.ok b))
  worded : ∀ b t stage x, s.placeOf b (t, stage) = some x →
    ∃ r wall, s.requests t = some r ∧ x.1.call = r.call cfg wall stage

theorem placed_new [NeZero n] : Placed cfg (new : Plugin n) :=
  ⟨fun _ _ _ _ h => (by cases h), fun _ _ _ _ h => by cases h⟩

theorem placed_step [NeZero n] {a : Act} (hs : Placed cfg s) (h : s.step W cfg a = some s') :
    Placed cfg s' := by
  have e := effect_of_step h
  have before : ∀ {b : BridgeId} {t : TaskId} {stage : Stage} {x : InboundMessage × AskPhase},
      s'.placeOf b (t, stage) = some x → s.pool.calls (t, stage) = some (.returned (.ok b)) ∧
        ∃ r wall, s.requests t = some r ∧ x.1.call = r.call cfg wall stage := by
    intro b t stage x hx
    have old : ∀ {y : InboundMessage × AskPhase}, s.placeOf b (t, stage) = some y → x.1 = y.1 →
        s.pool.calls (t, stage) = some (.returned (.ok b)) ∧
          ∃ r wall, s.requests t = some r ∧ x.1.call = r.call cfg wall stage := by
      intro y hy same
      rw [same]
      exact ⟨hs.checkedOut b t stage y hy, hs.worded b t stage y hy⟩
    obtain same | ⟨msg, p, p', hy, _, after⟩ | ⟨_, r, ms, p, hr, out, after⟩ :=
      place_cases e b (t, stage)
    · exact old (same.symm.trans hx) rfl
    · cases after.symm.trans hx
      exact old hy rfl
    · cases after.symm.trans hx
      exact ⟨out, r, s.wall, hr, message_call r ms stage⟩
  refine ⟨fun b t stage x hx => returned_after e (before hx).1, fun b t stage x hx => ?_⟩
  obtain ⟨_, r, wall, hr, said⟩ := before hx
  obtain ⟨phase, after, _⟩ := (turn_of_step h).request_after hr
  exact ⟨_, wall, after, said⟩

/-- The stage is over, with these arguments and this outcome, or it was never begun. -/
def StageOver (cfg : HandlerCfg) (s : Plugin n) (t : TaskId) (r : Request) (wall : Int)
    (stage : Stage) : Option Exchange → Prop
  | none => s.pool.calls (t, stage) = none
  | some .noBridge => ∃ e, s.pool.calls (t, stage) = some (.returned (.error e))
  | some (.asked result) => ∃ b msg, s.pool.calls (t, stage) = some (.returned (.ok b)) ∧
      s.placeOf b (t, stage) = some (msg, .done result) ∧ msg.call = r.call cfg wall stage

section
variable {wall : Int} {stage : Stage} {x : Option Exchange}

theorem askResult_eq_some {b : BridgeId} {i : AskId} {result : Option (Except PluginError String)} :
    s.askResult b i = some result ↔ ∃ msg, s.placeOf b i = some (msg, .done result) := by
  constructor
  · intro h
    rw [askResult] at h
    split at h
    · next msg result' cell ha =>
        obtain rfl := Option.some.inj h
        exact ⟨msg, Bridge.place_of ha⟩
    · cases h
  · rintro ⟨msg, hx⟩
    obtain ⟨cell, ha⟩ := Bridge.place_eq_some.mp hx
    rw [askResult, ha]

theorem StageOver.exchange (h : StageOver cfg s t r wall stage x) :
    s.exchange (t, stage) = x := by
  match x with
  | none =>
      have none : s.pool.calls (t, stage) = none := h
      rw [Plugin.exchange, none]
  | some .noBridge =>
      obtain ⟨e, failed⟩ := h
      rw [Plugin.exchange, failed]
  | some (.asked result) =>
      obtain ⟨b, msg, out, hx, _⟩ := h
      rw [Plugin.exchange, out]
      dsimp only
      rw [askResult_eq_some.mpr ⟨msg, hx⟩]
      rfl

theorem StageOver.asked (h : StageOver cfg s t r wall stage x) :
    (s.asked (t, stage)).toList = x.elim [] (·.calls (r.call cfg wall stage)) := by
  match x with
  | none =>
      have none : s.pool.calls (t, stage) = none := h
      rw [Plugin.asked, none]
      rfl
  | some .noBridge =>
      obtain ⟨e, failed⟩ := h
      rw [Plugin.asked, failed]
      rfl
  | some (.asked result) =>
      obtain ⟨b, msg, out, hx, said⟩ := h
      obtain ⟨cell, ha⟩ := Bridge.place_eq_some.mp hx
      rw [Plugin.asked, out]
      dsimp only
      rw [ha, ← said]
      rfl

theorem StageOver.step [NeZero n] {a : Act} (h : s.step W cfg a = some s')
    (hs : StageOver cfg s t r wall stage x)
    (later : ∀ r', s'.requests t = some r' → r'.phase ≠ .checkout stage) :
    StageOver cfg s' t r wall stage x := by
  have e := effect_of_step h
  match x with
  | none =>
      have none : s.pool.calls (t, stage) = none := hs
      obtain same | ⟨_, before, _⟩ | ⟨_, r', hr', began⟩ := call_cases e (t, stage)
      · exact same.trans none
      · cases before.symm.trans none
      · exact absurd began (later r' hr')
  | some .noBridge =>
      obtain ⟨error, failed⟩ := hs
      exact ⟨error, returned_after e failed⟩
  | some (.asked result) =>
      obtain ⟨b, msg, out, hx, said⟩ := hs
      obtain ⟨p', after, kept⟩ := place_after e hx
      exact ⟨b, msg, returned_after e out, kept rfl ▸ after, said⟩

theorem exchange_after [NeZero n] {a : Act} (h : s.step W cfg a = some s') {i : AskId}
    {e : Exchange} (ended : s.exchange i = some e) : s'.exchange i = some e := by
  have effect := effect_of_step h
  rw [Plugin.exchange] at ended
  split at ended
  · next b out =>
      obtain ⟨result, answered, rfl⟩ := Option.map_eq_some_iff.mp ended
      obtain ⟨msg, hx⟩ := askResult_eq_some.mp answered
      obtain ⟨p', after, kept⟩ := place_after effect hx
      obtain rfl := kept rfl
      rw [Plugin.exchange, returned_after effect out]
      dsimp only
      rw [askResult_eq_some.mpr ⟨msg, after⟩]
      rfl
  · next failed =>
      obtain rfl := Option.some.inj ended
      rw [Plugin.exchange, returned_after effect failed]
  · cases ended

theorem Placed.stageOver (hs : Placed cfg s) (hr : s.requests t = some r) {e : Exchange}
    (ended : s.exchange (t, stage) = some e) : ∃ wall, StageOver cfg s t r wall stage (some e) := by
  rw [Plugin.exchange] at ended
  split at ended
  · next b out =>
      obtain ⟨result, answered, rfl⟩ := Option.map_eq_some_iff.mp ended
      obtain ⟨msg, hx⟩ := askResult_eq_some.mp answered
      obtain ⟨r', wall, hr', said⟩ := hs.worded b t stage _ hx
      cases hr.symm.trans hr'
      exact ⟨wall, b, msg, out, hx, said⟩
  · next failed =>
      obtain rfl := Option.some.inj ended
      exact ⟨0, _, failed⟩
  · cases ended

end
end Plugin
end EvoclawPluginWechat
