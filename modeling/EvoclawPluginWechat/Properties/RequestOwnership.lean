import EvoclawPluginWechat.Properties.CheckoutSteps
import EvoclawPluginWechat.Properties.RequestEffects

/-!
What a request has under way belongs to its phase: the handle of its conversation, its call
of the pool, its ask on a bridge. A request that is over has nothing left.
-/
namespace EvoclawPluginWechat

/-- How many steps an ask takes at most, the partial writes of its line apart. -/
def AskPhase.stepsLeft : AskPhase → Nat
  | .called => 7
  | .checked => 6
  | .queued => 5
  | .writing _ => 4
  | .flushing => 3
  | .writeFailed _ | .awaiting => 2
  | .leaving _ => 1
  | .done _ => 0

/-- How many steps a request takes at most from here, without those of a call or an ask that
is under way. -/
def RequestPhase.budget (n : Nat) : RequestPhase → Nat
  | .dispatched => 28 * n + 28
  | .acquired => 28 * n + 27
  | .waiting => 28 * n + 26
  | .entered => 28 * n + 25
  | .routing false => 28 * n + 24
  | .checkout .classify => 14 * n + 22
  | .asking .classify _ => 14 * n + 14
  | .routing true => 14 * n + 13
  | .checkout .reply => 11
  | .asking .reply _ => 3
  | .abandoned _ _ | .computed _ => 2
  | .leaving _ => 1
  | .finished _ => 0

theorem RequestPhase.Next.budget_lt {p p' : RequestPhase} (h : p.Next p') (n : Nat) :
    p'.budget n < p.budget n := by
  cases h with
  | @fallback classified | @route classified _ => cases classified <;> simp only [budget] <;> omega
  | @ask stage _ | @cancel stage | @drop stage _ | @unwind stage _ =>
      cases stage <;> simp only [budget] <;> omega
  | _ => simp only [budget]; omega

namespace Bridge
variable {ι : Type} {W : Wire}

def Act.isWrite : Act ι → Bool
  | .write _ _ => true
  | _ => false

variable [DecidableEq ι] {s s' : Bridge ι} {a : Act ι} {i : ι}

theorem Move.charge (m : Move W s a s') (hi : a.asker = some i) :
    ∃ msg p p', s.place i = some (msg, p) ∧ s'.place i = some (msg, p') ∧
      p.isDone = false ∧ p'.stepsLeft + (if a.isWrite then 0 else 1) ≤ p.stepsLeft := by
  have moves : ∀ {msg : InboundMessage} {p p' : AskPhase} {cell : Cell} {t : Bridge ι} {k : ι},
      s.asks k = some ⟨msg, p, cell⟩ → some k = some i →
      (∀ j, t.place j = if j = k then some (msg, p') else s.place j) →
      p'.stepsLeft + (if a.isWrite then 0 else 1) ≤ p.stepsLeft → p.isDone = false →
      ∃ msg p p', s.place i = some (msg, p) ∧ t.place i = some (msg, p') ∧
        p.isDone = false ∧ p'.stepsLeft + (if a.isWrite then 0 else 1) ≤ p.stepsLeft := by
    intro msg p p' cell t k ha same hplace pays unfinished
    cases same
    exact ⟨msg, p, p', place_of ha, (hplace _).trans (if_pos rfl), unfinished, pays⟩
  cases m with
  | checkOk ha _ | refused ha | lock ha _ | write ha _ | newline ha _ | flush ha | markDead ha
  | recvText ha | recvClosed ha _ =>
      exact moves ha hi (place_setAsk s _ · _) (by simp [AskPhase.stepsLeft, Act.isWrite]) rfl
  | insert ha | dropGuard ha =>
      exact moves ha hi (place_displace_setAsk s _ _ · _)
        (by simp [AskPhase.stepsLeft, Act.isWrite]) rfl
  | @writeError k text msg phase cell e ha hl _ | @dropWriting k msg phase cell ha hl =>
      refine moves ha hi (place_setAsk s _ · _) ?_ (not_isDone_of_holdsLock hl)
      cases phase with
      | writing _ | flushing => simp [AskPhase.stepsLeft, Act.isWrite]
      | _ => cases hl
  | dropWaiting ha hp =>
      obtain rfl | rfl := hp
      · exact moves ha hi (place_setAsk s _ · _) (by simp [AskPhase.stepsLeft, Act.isWrite]) rfl
      · exact moves ha hi (place_setAsk s _ · _) (by simp [AskPhase.stepsLeft, Act.isWrite]) rfl
  | call _ | readNoise _ | deliver _ _ | readerEnd _ | readerFlag _ | readerDrain _ | breakPipe =>
      cases hi

end Bridge

namespace Plugin
variable {n : Nat}

/-- Where the place of every ask of the request is. -/
def placeOf (s : Plugin n) (b : BridgeId) (i : AskId) : Option (InboundMessage × AskPhase) :=
  (s.workers b).bridge.place i

structure Owned (s : Plugin n) : Prop where
  locked : s.pool.Locked
  held : ∀ t k, s.serializer.handles.lookup t = some k →
    ∃ r, s.requests t = some r ∧ r.phase.hold = some k.hold
  /-- A call is made in its phase, and under way in no other. -/
  called : ∀ t stage ph, s.pool.calls (t, stage) = some ph → ∃ r, s.requests t = some r ∧
    r.phase.budget n ≤ (RequestPhase.checkout stage).budget n ∧
      (0 < ph.stepsLeft → r.phase = .checkout stage)
  calling : ∀ t r stage, s.requests t = some r → r.phase = .checkout stage →
    ∃ ph, s.pool.calls (t, stage) = some ph ∧ ph ≠ .dropped
  asked : ∀ b t stage x, s.placeOf b (t, stage) = some x → ∃ r, s.requests t = some r ∧
    r.phase.budget n ≤ (RequestPhase.asking stage b).budget n ∧
      (x.2.isDone = false → r.phase.asks = some (stage, b))
  asking : ∀ t r stage b, s.requests t = some r → r.phase.asks = some (stage, b) →
    ∃ x, s.placeOf b (t, stage) = some x

theorem owned_new [NeZero n] : Owned (new : Plugin n) where
  locked := fun _ _ => by simp [new, BridgePool.new, BridgePool.held]
  held t k h := by cases h
  called t stage ph h := by cases h
  calling t r stage h := by cases h
  asked b t stage x h := by cases h
  asking t r stage b h := by cases h

section
variable {s s' : Plugin n} {t : TaskId} {r : Request} {phase : RequestPhase}

/-- What of the request itself has to be shown where it goes on to a phase. -/
structure OwnedBy (s : Plugin n) (t : TaskId) (phase : RequestPhase) : Prop where
  held : ∀ k, s.serializer.handles.lookup t = some k → phase.hold = some k.hold
  called : ∀ stage ph, s.pool.calls (t, stage) = some ph →
    phase.budget n ≤ (RequestPhase.checkout stage).budget n ∧
      (0 < ph.stepsLeft → phase = .checkout stage)
  calling : ∀ stage, phase = .checkout stage →
    ∃ ph, s.pool.calls (t, stage) = some ph ∧ ph ≠ .dropped
  asked : ∀ b stage x, s.placeOf b (t, stage) = some x →
    phase.budget n ≤ (RequestPhase.asking stage b).budget n ∧
      (x.2.isDone = false → phase.asks = some (stage, b))
  asking : ∀ stage b, phase.asks = some (stage, b) → ∃ x, s.placeOf b (t, stage) = some x

theorem Owned.by (hs : Owned s) (hr : s.requests t = some r) : OwnedBy s t r.phase := by
  have mine : ∀ {p : Request → Prop}, (∃ r', s.requests t = some r' ∧ p r') → p r := by
    rintro p ⟨r', hr', h⟩
    obtain rfl := Option.some.inj (hr.symm.trans hr')
    exact h
  exact ⟨fun k h => mine (hs.held t k h), fun stage ph h => mine (hs.called t stage ph h),
    fun stage => hs.calling t r stage hr, fun b stage x h => mine (hs.asked b t stage x h),
    fun stage b => hs.asking t r stage b hr⟩

theorem Owned.update {q : Request} (hs : Owned s) (mine : s'.requests t = some q)
    (other : ∀ t', t' ≠ t → s'.requests t' = s.requests t') (locked : s'.pool.Locked)
    (handles : ∀ t', t' ≠ t → s'.serializer.handles.lookup t' = s.serializer.handles.lookup t')
    (calls : ∀ t', t' ≠ t → ∀ stage, s'.pool.calls (t', stage) = s.pool.calls (t', stage))
    (places : ∀ t', t' ≠ t → ∀ b stage, s'.placeOf b (t', stage) = s.placeOf b (t', stage))
    (own : OwnedBy s' t q.phase) : Owned s' := by
  refine ⟨locked, fun t' k h => ?_, fun t' stage ph h => ?_, fun t' r' stage hr' hp => ?_,
    fun b t' stage x h => ?_, fun t' r' stage b hr' hp => ?_⟩
  · by_cases ht : t' = t
    · subst ht
      exact ⟨q, mine, own.held k h⟩
    · rw [other t' ht]
      exact hs.held t' k (handles t' ht ▸ h)
  · by_cases ht : t' = t
    · subst ht
      exact ⟨q, mine, own.called stage ph h⟩
    · rw [other t' ht]
      exact hs.called t' stage ph (calls t' ht stage ▸ h)
  · by_cases ht : t' = t
    · subst ht
      obtain rfl := Option.some.inj (mine.symm.trans hr')
      exact own.calling stage hp
    · rw [other t' ht] at hr'
      rw [calls t' ht]
      exact hs.calling t' r' stage hr' hp
  · by_cases ht : t' = t
    · subst ht
      exact ⟨q, mine, own.asked b stage x h⟩
    · rw [other t' ht]
      exact hs.asked b t' stage x (places t' ht b stage ▸ h)
  · by_cases ht : t' = t
    · subst ht
      obtain rfl := Option.some.inj (mine.symm.trans hr')
      exact own.asking stage b hp
    · rw [other t' ht] at hr'
      rw [places t' ht]
      exact hs.asking t' r' stage b hr' hp

theorem Owned.setPhase (hs : Owned s) (hr : s.requests t = some r)
    (requests : s'.requests = (s.setPhase t phase).requests) (locked : s'.pool.Locked)
    (handles : ∀ t', t' ≠ t → s'.serializer.handles.lookup t' = s.serializer.handles.lookup t')
    (calls : ∀ t', t' ≠ t → ∀ stage, s'.pool.calls (t', stage) = s.pool.calls (t', stage))
    (places : ∀ t', t' ≠ t → ∀ b stage, s'.placeOf b (t', stage) = s.placeOf b (t', stage))
    (own : OwnedBy s' t phase) : Owned s' := by
  refine hs.update (q := { r with phase }) ?_ (fun t' ht => ?_) locked handles calls places own
  · rw [requests, setPhase_requests_self phase hr]
  · rw [requests, setPhase_requests, if_neg ht]

/-- Where the request has nothing under way that belongs to its phase, it may go on. -/
theorem OwnedBy.next (own : OwnedBy s t r.phase) (next : r.phase.Next phase)
    (pool : s'.pool = s.pool) (places : ∀ b i, s'.placeOf b i = s.placeOf b i)
    (held : ∀ k, s'.serializer.handles.lookup t = some k → phase.hold = some k.hold)
    (asks : phase.asks = none) (waits : ∀ stage, phase ≠ .checkout stage)
    (called : ∀ stage ph, r.phase = .checkout stage → s.pool.calls (t, stage) = some ph →
      ph.stepsLeft = 0)
    (asked : ∀ stage b x, r.phase.asks = some (stage, b) → s.placeOf b (t, stage) = some x →
      x.2.isDone = true) : OwnedBy s' t phase := by
  have less := next.budget_lt n
  refine ⟨held, fun stage ph h => ?_, fun stage h => absurd h (waits stage), fun b stage x h => ?_,
    fun stage b h => ?_⟩
  · rw [pool] at h
    obtain ⟨budget, late⟩ := own.called stage ph h
    refine ⟨by omega, fun left => ?_⟩
    have ended := called stage ph (late left) h
    omega
  · rw [places] at h
    obtain ⟨budget, late⟩ := own.asked b stage x h
    refine ⟨by omega, fun flight => ?_⟩
    have ended := asked stage b x (late flight) h
    rw [flight] at ended
    cases ended
  · rw [asks] at h
    cases h

theorem setWorker_placeOf (s : Plugin n) (b b' : BridgeId) (w : Worker AskId) (i : AskId) :
    (s.setWorker b w).placeOf b' i = if b' = b then w.bridge.place i else s.placeOf b' i := by
  simp only [placeOf, setWorker, Function.update_apply]
  split
  · rfl
  · rfl

theorem placeOf_step {W : Wire} {b : BridgeId} {op : Bridge.Act AskId} {w : Worker AskId}
    {i : AskId} (hi : op.asker = some i ∨ ∃ msg, op = .call i msg)
    (hw : (s.workers b).step W (.bridge op) = some w) (b' : BridgeId) {j : AskId}
    (other : b' = b → j ≠ i) : (s.setWorker b w).placeOf b' j = s.placeOf b' j := by
  rw [setWorker_placeOf]
  split
  · next same =>
      subst same
      cases Worker.move_of_step hw with
      | bridge _ m =>
          obtain hi | ⟨msg, rfl⟩ := hi
          · refine m.place_other (fun h => ?_) fun k msg same => ?_
            · exact other rfl (Option.some.inj (h.symm.trans hi))
            · rw [same] at hi
              cases hi
          · cases m with
            | call _ => exact (Bridge.place_setAsk _ _ _ _).trans (if_neg (other rfl))
  · rfl

section Step
variable [NeZero n] {W : Wire} {cfg : HandlerCfg}

theorem Owned.pool (hs : Owned s) {op : BridgePool.Act AskId} {p : BridgePool n AskId}
    (nocall : ∀ c, op ≠ .call c) (nocancel : ∀ c, op ≠ .cancel c)
    (hp : s.pool.step s.alive s.now op = some p) : Owned { s with pool := p } := by
  have m := BridgePool.move_of_step hp
  obtain ⟨ph, ph', before, after, kept, less⟩ := m.charge nocall nocancel
  obtain ⟨r, hr, budget, late⟩ := hs.called op.actor.1 op.actor.2 ph before
  have waits := late (by omega)
  have own := hs.by hr
  refine hs.update (t := op.actor.1) hr (fun _ _ => rfl) (BridgePool.locked_move hs.locked m)
    (fun _ _ => rfl) (fun t' ht stage => ?_) (fun _ _ _ _ => rfl) ?_
  · exact m.calls_other fun same => ht (congrArg Prod.fst same)
  · refine ⟨own.held, fun stage ph₁ h => ?_, fun stage h => ?_, own.asked, own.asking⟩
    · by_cases same : stage = op.actor.2
      · subst same
        exact ⟨budget, fun _ => waits⟩
      · rw [m.calls_other fun h => same (congrArg Prod.snd h)] at h
        exact own.called stage ph₁ h
    · rw [waits] at h
      cases h
      exact ⟨ph', after, kept⟩

omit [NeZero n] in
theorem Owned.ask (hs : Owned s) {b : BridgeId} {op : Bridge.Act AskId} {i : AskId}
    {w : Worker AskId} (hi : op.asker = some i)
    (hw : (s.workers b).step W (.bridge op) = some w) : Owned (s.setWorker b w) := by
  obtain ⟨msg, p, p', before, after, flight, _⟩ : ∃ msg p p', s.placeOf b i = some (msg, p) ∧
      w.bridge.place i = some (msg, p') ∧ p.isDone = false ∧
        p'.stepsLeft + (if op.isWrite then 0 else 1) ≤ p.stepsLeft := by
    cases Worker.move_of_step hw with
    | bridge _ m => exact m.charge hi
  obtain ⟨r, hr, budget, late⟩ := hs.asked b i.1 i.2 _ before
  have waits := late flight
  have own := hs.by hr
  have others : ∀ b' j, (b' = b → j ≠ i) → (s.setWorker b w).placeOf b' j = s.placeOf b' j :=
    fun b' j other => placeOf_step (.inl hi) hw b' other
  have mine : (s.setWorker b w).placeOf b i = some (msg, p') := by
    rw [setWorker_placeOf, if_pos rfl, after]
  refine hs.update (t := i.1) hr (fun _ _ => rfl) hs.locked (fun _ _ => rfl) (fun _ _ _ => rfl)
    (fun t' ht b' stage => others b' _ fun _ same => ht (congrArg Prod.fst same)) ?_
  refine ⟨own.held, own.called, own.calling, fun b' stage x h => ?_, fun stage b' h => ?_⟩
  · by_cases same : b' = b ∧ stage = i.2
    · obtain ⟨rfl, rfl⟩ := same
      exact ⟨budget, fun _ => waits⟩
    · rw [others b' _ fun hb hj => same ⟨hb, congrArg Prod.snd hj⟩] at h
      exact own.asked b' stage x h
  · rw [waits] at h
    cases h
    exact ⟨_, mine⟩

omit [NeZero n] in
theorem Owned.serializer (hs : Owned s) {op : ConvSerializer.Act} {ser : ConvSerializer}
    (hr : s.requests t = some r) (next : r.phase.Next phase)
    (hser : s.serializer.step op = some ser) (asks : r.phase.asks = none)
    (asks' : phase.asks = none) (waits : ∀ stage, r.phase ≠ .checkout stage)
    (waits' : ∀ stage, phase ≠ .checkout stage)
    (which : op = .acquire t (r.cid cfg) s.now ∧ phase.hold = some .returned ∨
      op = .lockOwned t ∧ phase.hold = some .waiting ∨ op = .grant t ∧ phase.hold = some .inside ∨
      op = .release t ∧ phase.hold = none) :
    Owned ({ s with serializer := ser }.setPhase t phase) := by
  have handles : (∀ t', t' ≠ t → ser.handles.lookup t' = s.serializer.handles.lookup t') ∧
      ∀ k, ser.handles.lookup t = some k → phase.hold = some k.hold := by
    have insert : ∀ {cid : String} {m : MutexId} {hold : Hold}, phase.hold = some hold →
        ser.handles = s.serializer.handles.insert t ⟨cid, m, hold⟩ →
        (∀ t', t' ≠ t → ser.handles.lookup t' = s.serializer.handles.lookup t') ∧
          ∀ k, ser.handles.lookup t = some k → phase.hold = some k.hold := by
      intro cid m hold hp after
      refine ⟨fun t' ht => by rw [after, AList.lookup_insert_ne ht], fun k h => ?_⟩
      rw [after, AList.lookup_insert] at h
      cases h
      exact hp
    have moved := ConvSerializer.handleMove_of_step hser
    generalize same : ser.handles = after at moved
    obtain ⟨rfl, hp⟩ | ⟨rfl, hp⟩ | ⟨rfl, hp⟩ | ⟨rfl, hp⟩ := which
    · cases moved with
      | acquire => exact same ▸ insert hp same
    · cases moved with
      | lockOwned _ => exact same ▸ insert hp same
    · cases moved with
      | grant _ => exact same ▸ insert hp same
    · cases moved with
      | release =>
          refine ⟨fun t' ht => AList.lookup_erase_ne ht, fun k h => ?_⟩
          rw [AList.lookup_erase] at h
          cases h
  refine hs.setPhase hr rfl hs.locked handles.1 (fun _ _ _ => rfl) (fun _ _ _ _ => rfl) ?_
  refine (hs.by hr).next next rfl (fun _ _ => rfl) handles.2 asks' waits'
    (fun stage ph h => absurd h (waits stage)) fun stage b x h => ?_
  rw [asks] at h
  cases h

omit [NeZero n] in
theorem askResult_done {b : BridgeId} {i : AskId} {msg : InboundMessage} {p : AskPhase}
    (hx : s.placeOf b i = some (msg, p)) (ended : ∃ result, s.askResult b i = some result) :
    p.isDone = true := by
  obtain ⟨cell, ha⟩ := Bridge.place_eq_some.mp hx
  obtain ⟨result, ended⟩ := ended
  rw [askResult, ha] at ended
  split at ended
  · next same =>
      cases same
      rfl
  · cases ended

omit [NeZero n] in
theorem Owned.moveAsk {stage : Stage} {b : BridgeId} {op : Bridge.Act AskId} {w : Worker AskId}
    (hs : Owned s) (hr : s.requests t = some r) (next : r.phase.Next phase)
    (hold : r.phase.hold = phase.hold) (asks : phase.asks = some (stage, b))
    (waits : ∀ stage, phase ≠ .checkout stage)
    (budget : phase.budget n ≤ (RequestPhase.asking stage b).budget n)
    (before : r.phase.asks = none ∨ r.phase.asks = some (stage, b))
    (called : ∀ stage ph, r.phase = .checkout stage → s.pool.calls (t, stage) = some ph →
      ph.stepsLeft = 0)
    (hi : op.asker = some (t, stage) ∨ ∃ msg, op = .call (t, stage) msg)
    (hw : (s.workers b).step W (.bridge op) = some w)
    (placed : ∃ x, w.bridge.place (t, stage) = some x) :
    Owned ((s.setWorker b w).setPhase t phase) := by
  have own := hs.by hr
  have less := next.budget_lt n
  have others : ∀ b' j, (b' = b → j ≠ (t, stage)) →
      (s.setWorker b w).placeOf b' j = s.placeOf b' j :=
    fun b' j other => placeOf_step hi hw b' other
  refine hs.setPhase hr rfl hs.locked (fun _ _ => rfl) (fun _ _ _ => rfl)
    (fun t' ht b' stage' => others b' _ fun _ same => ht (congrArg Prod.fst same)) ?_
  refine ⟨fun k h => hold ▸ own.held k h, fun stage' ph h => ?_,
    fun stage' same => absurd same (waits stage'), fun b' stage' x h => ?_, fun stage' b' h => ?_⟩
  · obtain ⟨budget, late⟩ := own.called stage' ph h
    refine ⟨by omega, fun left => ?_⟩
    have ended := called stage' ph (late left) h
    omega
  · by_cases same : b' = b ∧ stage' = stage
    · obtain ⟨rfl, rfl⟩ := same
      exact ⟨budget, fun _ => asks⟩
    · have old : s.placeOf b' (t, stage') = some x :=
        (others b' _ fun hb hj => same ⟨hb, congrArg Prod.snd hj⟩).symm.trans h
      obtain ⟨budget, late⟩ := own.asked b' stage' x old
      refine ⟨by omega, fun flight => ?_⟩
      obtain idle | busy := before
      · cases idle.symm.trans (late flight)
      · cases busy.symm.trans (late flight)
        exact absurd ⟨rfl, rfl⟩ same
  · cases asks.symm.trans h
    obtain ⟨x, hx⟩ := placed
    exact ⟨x, (setWorker_placeOf s b b w _).trans ((if_pos rfl).trans hx)⟩

theorem owned_effect {a : Act} (hs : Owned s) (e : Effect W cfg s a s') : Owned s' := by
  cases e with
  | outside _ requests pool handles places =>
      have placed : ∀ b i, s'.placeOf b i = s.placeOf b i := fun b i => congrFun (places b) i
      refine ⟨pool ▸ hs.locked, ?_, ?_, ?_, ?_, ?_⟩
      · rw [requests, handles]
        exact hs.held
      · rw [requests, pool]
        exact hs.called
      · rw [requests, pool]
        exact hs.calling
      · simp only [placed, requests]
        exact hs.asked
      · simp only [placed, requests]
        exact hs.asking
  | @receive t _ _ _ fresh =>
      have absent : ∀ {p : Request → Prop}, (∃ r, s.requests t = some r ∧ p r) → False := by
        rintro p ⟨r, hr, _⟩
        cases fresh.symm.trans hr
      refine hs.update (t := t) (q := ⟨_, _, _, .dispatched⟩) (Function.update_self _ _ _)
        (fun t' ht => Function.update_of_ne ht _ _) hs.locked (fun _ _ => rfl) (fun _ _ _ => rfl)
        (fun _ _ _ _ => rfl) ?_
      refine ⟨fun k h => ?_, fun stage ph h => ?_, fun stage h => ?_, fun b stage x h => ?_,
        fun stage b h => ?_⟩
      · exact (absent (hs.held t k h)).elim
      · exact (absent (hs.called t stage ph h)).elim
      · cases h
      · exact (absent (hs.asked b t stage x h)).elim
      · cases h
  | pool nocall nocancel hp => exact hs.pool nocall nocancel hp
  | ask hi hw => exact hs.ask hi hw
  | serializer _ hr next hser asks asks' waits waits' which =>
      exact hs.serializer hr next hser asks asks' waits waits' which
  | @alone _ t r phase s' _ hr next alone =>
      have own := hs.by hr
      have places : ∀ b i, s'.placeOf b i = s.placeOf b i := fun b i => by
        rw [placeOf, alone.workers]
        rfl
      refine hs.setPhase hr alone.requests (alone.pool ▸ hs.locked)
        (fun _ _ => by rw [alone.serializer]) (fun _ _ _ => by rw [alone.pool])
        (fun _ _ b _ => places b _) ?_
      refine own.next next alone.pool places (fun k h => ?_) alone.asks alone.waits
        (fun stage ph waits h => ?_) fun stage b x asks h => ?_
      · rw [alone.serializer] at h
        exact alone.held ▸ own.held k h
      · obtain ⟨result, out⟩ := alone.called stage waits
        cases out.symm.trans h
        rfl
      · exact askResult_done h (alone.asked stage b asks)
  | @call _ t r classified stage p _ hr hp next hpool =>
      obtain ⟨fresh, calls⟩ := BridgePool.call_eq_some hpool
      have own := hs.by hr
      have less := next.budget_lt n
      rw [hp] at own
      have mine : p.calls (t, stage) = some (.ticket (n * 2)) := by
        rw [calls, Function.update_self]
      have others : ∀ c, c ≠ (t, stage) → p.calls c = s.pool.calls c := fun c hc => by
        rw [calls, Function.update_of_ne hc]
      refine hs.setPhase hr rfl (BridgePool.locked_move hs.locked (BridgePool.move_of_step hpool))
        (fun _ _ => rfl) (fun t' ht stage' => others _ fun same => ht (congrArg Prod.fst same))
        (fun _ _ _ _ => rfl) ?_
      refine ⟨own.held, fun stage' ph h => ?_, fun stage' same => ?_, fun b stage' x h => ?_,
        fun stage' b h => ?_⟩
      · by_cases same : stage' = stage
        · subst same
          exact ⟨le_rfl, fun _ => rfl⟩
        · have old : s.pool.calls (t, stage') = some ph :=
            (others _ fun h => same (congrArg Prod.snd h)).symm.trans h
          obtain ⟨budget, late⟩ := own.called stage' ph old
          refine ⟨by omega, fun left => ?_⟩
          cases late left
      · cases same
        exact ⟨_, mine, by simp⟩
      · obtain ⟨budget, late⟩ := own.asked b stage' x h
        refine ⟨by omega, fun flight => ?_⟩
        cases late flight
      · cases h
  | @cancel t r stage p hr hp hpool =>
      have calls := BridgePool.cancel_eq_some hpool
      have own := hs.by hr
      have mine : p.calls (t, stage) = some .dropped := by rw [calls, Function.update_self]
      have others : ∀ c, c ≠ (t, stage) → p.calls c = s.pool.calls c := fun c hc => by
        rw [calls, Function.update_of_ne hc]
      rw [hp] at own
      have less : (RequestPhase.leaving none).budget n < (RequestPhase.checkout stage).budget n :=
        RequestPhase.Next.cancel.budget_lt n
      refine hs.setPhase hr rfl (BridgePool.locked_move hs.locked (BridgePool.move_of_step hpool))
        (fun _ _ => rfl) (fun t' ht stage' => others _ fun same => ht (congrArg Prod.fst same))
        (fun _ _ _ _ => rfl) ?_
      refine ⟨own.held, fun stage' ph h => ?_, fun stage' same => ?_, fun b stage' x h => ?_,
        fun stage' b h => ?_⟩
      · by_cases same : stage' = stage
        · subst same
          cases mine.symm.trans h
          exact ⟨less.le, fun left => absurd left (Nat.lt_irrefl 0)⟩
        · have old : s.pool.calls (t, stage') = some ph :=
            (others _ fun h => same (congrArg Prod.snd h)).symm.trans h
          obtain ⟨budget, late⟩ := own.called stage' ph old
          refine ⟨by omega, fun left => ?_⟩
          cases late left
          exact absurd rfl same
      · cases same
      · obtain ⟨budget, late⟩ := own.asked b stage' x h
        refine ⟨by omega, fun flight => ?_⟩
        cases late flight
      · cases h
  | @startAsk t r stage b ms w hr hp out hw =>
      refine hs.moveAsk hr (by rw [hp]; exact .ask) (by rw [hp]; rfl) rfl (by simp) le_rfl
        (.inl (by rw [hp]; rfl)) (fun stage' ph waits h => ?_) (.inr ⟨_, rfl⟩) hw ?_
      · rw [hp] at waits
        cases waits
        cases out.symm.trans h
        rfl
      · cases Worker.move_of_step hw with
        | bridge _ m =>
            cases m with
            | call _ => exact ⟨_, (Bridge.place_setAsk _ _ _ _).trans (if_pos rfl)⟩
  | @dropAsk t r stage b w hr hp hw =>
      refine hs.moveAsk hr (by rw [hp]; exact .drop) (by rw [hp]; rfl) rfl (by simp) ?_
        (.inr (by rw [hp]; rfl)) (fun stage' ph waits h => ?_) (.inl rfl) hw ?_
      · cases stage <;> simp only [RequestPhase.budget] <;> omega
      · rw [hp] at waits
        cases waits
      · cases Worker.move_of_step hw with
        | bridge _ m =>
            obtain ⟨msg, _, p', _, after, _⟩ := m.charge rfl
            exact ⟨(msg, p'), after⟩

theorem owned_step {a : Act} (hs : Owned s) (h : s.step W cfg a = some s') : Owned s' :=
  owned_effect hs (effect_of_step h)

theorem owned_reachable {allow : Plugin n → Act → Prop}
    (h : Transition.Reachable (step W cfg) allow (· = (new : Plugin n)) s) : Owned s :=
  h.invariant (fun _ hs => hs ▸ owned_new) fun _ _ _ hs _ hm => owned_step hs hm

end Step
end
end Plugin
end EvoclawPluginWechat
