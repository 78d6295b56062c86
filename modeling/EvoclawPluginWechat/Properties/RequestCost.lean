import EvoclawPluginWechat.Library.Progress
import EvoclawPluginWechat.Properties.RequestOwnership

/-!
What a request costs. It takes a bounded number of steps, in any company, and no step of
another one adds to them.
-/
namespace EvoclawPluginWechat
open Transition

/-- How much of its line an ask has still to hand to the pipe. -/
def AskPhase.unsent (line : Nat) : AskPhase → Nat
  | .called | .checked | .queued => line
  | .writing rest => rest.length
  | _ => 0

/-- Not more partial writes than bytes of the line that are in the pipe. -/
def Written (W : Wire) (writes : Nat) : Option (InboundMessage × AskPhase) → Prop
  | none => writes = 0
  | some (msg, p) => writes + p.unsent (W.serialize msg).length ≤ (W.serialize msg).length

namespace Bridge
variable {ι : Type} [DecidableEq ι] {W : Wire} {s s' : Bridge ι} {a : Act ι} {i : ι}

/-- A partial write of this ask. -/
def Act.writes (i : ι) : Act ι → Bool
  | .write j _ => j == i
  | _ => false

theorem writes_eq_false (other : a.asker ≠ some i) : a.writes i = false := by
  cases a with
  | write j count => exact beq_false_of_ne fun same => other (congrArg some same)
  | _ => rfl

theorem write_eq_some {count : Nat} (h : s.step W (.write i count) = some s') :
    ∃ msg rest, s.place i = some (msg, .writing rest) ∧
      s'.place i = some (msg, .writing (rest.drop count)) ∧ 0 < count ∧ count ≤ rest.length := by
  simp only [step] at h
  split at h
  · next msg rest cell ha =>
      split at h
      · next ok =>
          cases h
          exact ⟨msg, rest, place_of ha, (place_setAsk s i i _).trans (if_pos rfl), ok.1, ok.2.1⟩
      · cases h
  · cases h

theorem Move.unsent_le (m : Move W s a s') (hi : a.asker = some i) (whole : a.isWrite = false) :
    ∃ msg p p', s.place i = some (msg, p) ∧ s'.place i = some (msg, p') ∧
      p'.unsent (W.serialize msg).length ≤ p.unsent (W.serialize msg).length := by
  have moves : ∀ {msg : InboundMessage} {p p' : AskPhase} {cell : Cell} {t : Bridge ι} {k : ι},
      s.asks k = some ⟨msg, p, cell⟩ → some k = some i →
      (∀ j, t.place j = if j = k then some (msg, p') else s.place j) →
      p'.unsent (W.serialize msg).length ≤ p.unsent (W.serialize msg).length →
      ∃ msg p p', s.place i = some (msg, p) ∧ t.place i = some (msg, p') ∧
        p'.unsent (W.serialize msg).length ≤ p.unsent (W.serialize msg).length := by
    intro msg p p' cell t k ha same hplace less
    cases same
    exact ⟨msg, p, p', place_of ha, (hplace _).trans (if_pos rfl), less⟩
  cases m with
  | checkOk ha _ | lock ha _ => exact moves ha hi (place_setAsk s _ · _) le_rfl
  | insert ha => exact moves ha hi (place_displace_setAsk s _ _ · _) le_rfl
  | dropGuard ha => exact moves ha hi (place_displace_setAsk s _ _ · _) (Nat.zero_le _)
  | refused ha | newline ha _ | flush ha | markDead ha | recvText ha | recvClosed ha _
  | writeError ha _ _ | dropWriting ha _ | dropWaiting ha _ =>
      exact moves ha hi (place_setAsk s _ · _) (Nat.zero_le _)
  | write _ _ => cases whole
  | call _ | readNoise _ | deliver _ _ | readerEnd _ | readerFlag _ | readerDrain _ | breakPipe =>
      cases hi

theorem written_step {k : Nat} (h : s.step W a = some s') (hk : Written W k (s.place i)) :
    Written W (k + if a.writes i then 1 else 0) (s'.place i) := by
  have m := move_of_step h
  by_cases mine : a.asker = some i
  · cases whole : a.isWrite with
    | false =>
        obtain ⟨msg, p, p', before, after, less⟩ := m.unsent_le mine whole
        have none : a.writes i = false := by
          cases a with
          | write _ _ => cases whole
          | _ => rfl
        rw [before] at hk
        rw [after, none]
        exact (Nat.add_le_add_left less k).trans hk
    | true =>
        cases a with
        | write j count =>
            obtain rfl : j = i := Option.some.inj mine
            obtain ⟨msg, rest, before, after, some, most⟩ := write_eq_some h
            rw [before] at hk
            rw [after]
            simp only [Written, AskPhase.unsent, List.length_drop, Act.writes, beq_self_eq_true,
              if_true] at hk ⊢
            omega
        | _ => cases whole
  · rw [writes_eq_false mine]
    by_cases begins : ∃ msg, a = .call i msg
    · obtain ⟨msg, rfl⟩ := begins
      cases m with
      | call fresh =>
          have none : s.place i = none := by rw [place, fresh]; rfl
          rw [none] at hk
          rw [place_setAsk, if_pos rfl]
          simp only [Written] at hk
          simp [Written, AskPhase.unsent, hk]
    · have same : s'.place i = s.place i := by
        by_cases other : ∃ j msg, a = .call j msg
        · obtain ⟨j, msg, rfl⟩ := other
          cases m with
          | call _ =>
              rw [place_setAsk, if_neg]
              rintro rfl
              exact begins ⟨msg, rfl⟩
        · exact m.place_other mine fun j msg h => other ⟨j, msg, h⟩
      rw [same]
      exact hk

end Bridge

namespace Worker
variable {ι : Type} [DecidableEq ι] {W : Wire} {w w' : Worker ι} {a : Act ι} {i : ι}

def Act.writes (i : ι) : Act ι → Bool
  | .bridge op => op.writes i
  | _ => false

theorem written_step {k : Nat} (h : w.step W a = some w') (hk : Written W k (w.bridge.place i)) :
    Written W (k + if a.writes i then 1 else 0) (w'.bridge.place i) := by
  cases a with
  | bridge op =>
      by_cases reads : ∃ line, op = .readLine line
      · obtain ⟨line, rfl⟩ := reads
        cases h
      · rw [step_bridge fun line hl => reads ⟨line, hl⟩] at h
        obtain ⟨s, hs, rfl⟩ := Option.map_eq_some_iff.mp h
        exact Bridge.written_step hs hk
  | answer out =>
      cases move_of_step h with
      | answer _ _ _ _ _ => exact hk
  | deliver =>
      cases move_of_step h with
      | deliver _ m =>
          have same := m.place_other (j := i) (fun h => by cases h) fun _ _ h => by cases h
          rw [same]
          exact hk
  | exit =>
      cases h
      exact hk

end Worker

namespace Plugin
variable {n : Nat} {s s' : Plugin n} {t : TaskId} {r : Request}

def Act.isWrite : Act → Bool
  | .worker _ (.bridge op) => op.isWrite
  | _ => false

/-- The step is one of the request's, and no partial write of a line. -/
def Act.chargedTo (t : TaskId) (a : Act) : Bool := a.request == some t && !a.isWrite

/-- What the call or the ask takes that the request waits for. -/
def underWay (s : Plugin n) (t : TaskId) : RequestPhase → Nat
  | .checkout stage => (s.pool.calls (t, stage)).elim 0 CheckoutPhase.stepsLeft
  | .asking stage b | .abandoned stage b =>
      (s.placeOf b (t, stage)).elim 0 fun x => x.2.stepsLeft
  | _ => 0

/-- How many steps the request takes at most from here. -/
def stepsLeft (s : Plugin n) (t : TaskId) : Nat :=
  (s.requests t).elim (28 * n + 28) fun r => r.phase.budget n + s.underWay t r.phase

theorem stepsLeft_of (hr : s.requests t = some r) :
    s.stepsLeft t = r.phase.budget n + s.underWay t r.phase := by
  rw [stepsLeft, hr]
  rfl

theorem underWay_of_asks {stage : Stage} {b : BridgeId} {phase : RequestPhase}
    (h : phase.asks = some (stage, b)) :
    s.underWay t phase = (s.placeOf b (t, stage)).elim 0 fun x => x.2.stepsLeft := by
  cases phase with
  | asking _ _ | abandoned _ _ => cases h; rfl
  | _ => cases h

theorem underWay_of_idle {phase : RequestPhase} (asks : phase.asks = none)
    (waits : ∀ stage, phase ≠ .checkout stage) : s.underWay t phase = 0 := by
  cases phase with
  | checkout stage => exact absurd rfl (waits stage)
  | asking _ _ | abandoned _ _ => cases asks
  | _ => rfl

theorem stepsLeft_congr (requests : s'.requests t = s.requests t)
    (calls : ∀ stage, s'.pool.calls (t, stage) = s.pool.calls (t, stage))
    (places : ∀ b stage, s'.placeOf b (t, stage) = s.placeOf b (t, stage)) :
    s'.stepsLeft t = s.stepsLeft t := by
  rw [stepsLeft, stepsLeft, requests]
  congr 1
  funext r
  cases hp : r.phase with
  | checkout stage => rw [underWay, underWay, calls]
  | asking stage b | abandoned stage b => rw [underWay, underWay, places]
  | _ => rfl

theorem stepsLeft_less {phase : RequestPhase} (hr : s.requests t = some r)
    (requests : s'.requests = (s.setPhase t phase).requests)
    (less : phase.budget n + s'.underWay t phase < r.phase.budget n + s.underWay t r.phase) :
    s'.stepsLeft t + 1 ≤ s.stepsLeft t := by
  have mine : s'.requests t = some { r with phase } := by
    rw [requests, setPhase_requests_self phase hr]
  rw [stepsLeft_of hr, stepsLeft_of mine]
  exact less

theorem stepsLeft_next {phase : RequestPhase} (hr : s.requests t = some r)
    (requests : s'.requests = (s.setPhase t phase).requests) (next : r.phase.Next phase)
    (asks : phase.asks = none) (waits : ∀ stage, phase ≠ .checkout stage) :
    s'.stepsLeft t + 1 ≤ s.stepsLeft t := by
  refine stepsLeft_less hr requests ?_
  have less := next.budget_lt n
  rw [underWay_of_idle asks waits]
  omega

variable [NeZero n] {W : Wire} {cfg : HandlerCfg}

/-- A request pays for its own steps, and no step of another one costs it anything. -/
theorem effect_pays {a : Act} (hs : Owned s) (e : Effect W cfg s a s') (t : TaskId) :
    s'.stepsLeft t + (if a.chargedTo t then 1 else 0) ≤ s.stepsLeft t := by
  have free : ∀ {a : Act}, a.request ≠ some t → s'.stepsLeft t = s.stepsLeft t →
      s'.stepsLeft t + (if a.chargedTo t then 1 else 0) ≤ s.stepsLeft t := by
    intro a other same
    simp [Act.chargedTo, other, same]
  have paid : ∀ {a : Act}, s'.stepsLeft t + 1 ≤ s.stepsLeft t →
      s'.stepsLeft t + (if a.chargedTo t then 1 else 0) ≤ s.stepsLeft t := by
    intro a h
    split <;> omega
  have others : ∀ {phase : RequestPhase} {t' : TaskId}, t ≠ t' →
      (s.setPhase t' phase).requests t = s.requests t := fun ht => by
    rw [setPhase_requests, if_neg ht]
  cases e with
  | outside nobody requests pool _ places =>
      refine free (by rw [nobody]; simp) (stepsLeft_congr (by rw [requests]) ?_ fun b stage => ?_)
      · exact fun stage => by rw [pool]
      · exact congrFun (places b) (t, stage)
  | @receive t' _ _ _ fresh =>
      by_cases same : t = t'
      · subst same
        rw [stepsLeft, stepsLeft, fresh, setRequest_requests, if_pos rfl]
        simp [Act.chargedTo, Act.request, RequestPhase.budget, underWay]
      · refine free (by simp [Act.request]) (stepsLeft_congr ?_ (fun _ => rfl) fun _ _ => rfl)
        rw [setRequest_requests, if_neg same]
  | @pool op p nocall nocancel hp =>
      have m := BridgePool.move_of_step hp
      by_cases same : t = op.actor.1
      · obtain ⟨ph, ph', before, after, _, less⟩ := m.charge nocall nocancel
        subst same
        obtain ⟨r, hr, _, late⟩ := hs.called op.actor.1 op.actor.2 ph before
        have waits := late (by omega)
        refine paid ?_
        have hr' : ({ s with pool := p } : Plugin n).requests op.actor.1 = some r := hr
        have before' : s.pool.calls (op.actor.1, op.actor.2) = some ph := before
        have after' : p.calls (op.actor.1, op.actor.2) = some ph' := after
        rw [stepsLeft_of hr, stepsLeft_of hr', waits, underWay, underWay, before', after',
          Option.elim_some, Option.elim_some]
        omega
      · refine free ?_ (stepsLeft_congr rfl (fun stage => ?_) fun _ _ => rfl)
        · exact fun h => same (Option.some.inj h).symm
        · exact m.calls_other fun h => same (congrArg Prod.fst h)
  | @ask b op i w hi hw =>
      have moved : ∀ j, j ≠ i → ∀ b', (s.setWorker b w).placeOf b' j = s.placeOf b' j :=
        fun j other b' => placeOf_step (.inl hi) hw b' fun _ => other
      by_cases same : t = i.1
      · subst same
        obtain ⟨msg, p, p', before, after, flight, less⟩ : ∃ msg p p',
            s.placeOf b i = some (msg, p) ∧ w.bridge.place i = some (msg, p') ∧
              p.isDone = false ∧ p'.stepsLeft + (if op.isWrite then 0 else 1) ≤ p.stepsLeft := by
          cases Worker.move_of_step hw with
          | bridge _ m => exact m.charge hi
        obtain ⟨r, hr, _, late⟩ := hs.asked b i.1 i.2 _ before
        have asks := late flight
        have hr' : (s.setWorker b w).requests i.1 = some r := hr
        have after' : (s.setWorker b w).placeOf b (i.1, i.2) = some (msg, p') :=
          (setWorker_placeOf s b b w i).trans ((if_pos rfl).trans after)
        have before' : s.placeOf b (i.1, i.2) = some (msg, p) := before
        have charged : (Act.worker b (.bridge op)).chargedTo i.1 = !op.isWrite := by
          simp [Act.chargedTo, Act.request, Act.isWrite, hi]
        rw [stepsLeft_of hr, stepsLeft_of hr', underWay_of_asks asks, underWay_of_asks asks,
          before', after', Option.elim_some, Option.elim_some, charged]
        cases hwrite : op.isWrite <;> simp [hwrite] at less ⊢ <;> omega
      · refine free ?_ (stepsLeft_congr rfl (fun _ => rfl) fun b' stage => ?_)
        · rw [Act.request, hi]
          exact fun h => same (Option.some.inj h).symm
        · exact moved _ (fun h => same (congrArg Prod.fst h)) b'
  | @serializer a t' r op ser phase mine hr next _ _ asks' _ waits' _ =>
      by_cases same : t = t'
      · subst same
        exact paid (stepsLeft_next hr rfl next asks' waits')
      · exact free (by rw [mine]; simpa using Ne.symm same)
          (stepsLeft_congr (others same) (fun _ => rfl) fun _ _ => rfl)
  | @alone a t' r phase s' mine hr next alone =>
      by_cases same : t = t'
      · subst same
        exact paid (stepsLeft_next hr alone.requests next alone.asks alone.waits)
      · refine free (by rw [mine]; simpa using Ne.symm same) (stepsLeft_congr ?_ ?_ ?_)
        · rw [alone.requests]
          exact others same
        · exact fun _ => by rw [alone.pool]
        · exact fun _ _ => by rw [placeOf, alone.workers]; rfl
  | @call a t' r classified stage p mine hr hp next hpool =>
      obtain ⟨_, calls⟩ := BridgePool.call_eq_some hpool
      by_cases same : t = t'
      · subst same
        have less : (RequestPhase.checkout stage).budget n + (14 * n + 1) + 1 ≤
            (RequestPhase.routing classified).budget n := by
          cases next with
          | classify => simp only [RequestPhase.budget]; omega
          | fallback => cases classified <;> simp only [RequestPhase.budget] <;> omega
        have made : ({ s with pool := p }.setPhase t (.checkout stage)).pool.calls (t, stage) =
            some (.ticket (n * 2)) := by
          change p.calls (t, stage) = _
          rw [calls, Function.update_self]
        refine paid (stepsLeft_less hr rfl ?_)
        simp only [hp, underWay, made, Option.elim_some, CheckoutPhase.stepsLeft]
        omega
      · refine free (by rw [mine]; simpa using Ne.symm same)
          (stepsLeft_congr (others same) (fun stage' => ?_) fun _ _ => rfl)
        change p.calls (t, stage') = _
        rw [calls, Function.update_of_ne fun h => same (congrArg Prod.fst h)]
  | @cancel t' r stage p hr hp hpool =>
      have calls := BridgePool.cancel_eq_some hpool
      by_cases same : t = t'
      · subst same
        exact paid (stepsLeft_next hr rfl (by rw [hp]; exact .cancel) rfl (by simp))
      · refine free (by simpa [Act.request] using Ne.symm same)
          (stepsLeft_congr (others same) (fun stage' => ?_) fun _ _ => rfl)
        change p.calls (t, stage') = _
        rw [calls, Function.update_of_ne fun h => same (congrArg Prod.fst h)]
  | @startAsk t' r stage b ms w hr hp out hw =>
      have moved : ∀ j, j ≠ (t', stage) → ∀ b', (s.setWorker b w).placeOf b' j = s.placeOf b' j :=
        fun j other b' => placeOf_step (.inr ⟨_, rfl⟩) hw b' fun _ => other
      by_cases same : t = t'
      · subst same
        obtain ⟨msg, called⟩ : ∃ msg, w.bridge.place (t, stage) = some (msg, .called) := by
          cases Worker.move_of_step hw with
          | bridge _ m =>
              cases m with
              | call _ => exact ⟨_, (Bridge.place_setAsk _ _ _ _).trans (if_pos rfl)⟩
        have began : ((s.setWorker b w).setPhase t (.asking stage b)).placeOf b (t, stage) =
            some (msg, .called) := (setWorker_placeOf s b b w _).trans ((if_pos rfl).trans called)
        have less : (RequestPhase.asking stage b).budget n + 7 + 1 ≤
            (RequestPhase.checkout stage).budget n := by
          cases stage <;> simp only [RequestPhase.budget] <;> omega
        refine paid (stepsLeft_less hr rfl ?_)
        simp only [hp, underWay, began, Option.elim_some, AskPhase.stepsLeft]
        omega
      · refine free (by simpa [Act.request] using Ne.symm same)
          (stepsLeft_congr (others same) (fun _ => rfl) fun b' stage' => ?_)
        exact moved _ (fun h => same (congrArg Prod.fst h)) b'
  | @dropAsk t' r stage b w hr hp hw =>
      have moved : ∀ j, j ≠ (t', stage) → ∀ b', (s.setWorker b w).placeOf b' j = s.placeOf b' j :=
        fun j other b' => placeOf_step (.inl rfl) hw b' fun _ => other
      by_cases same : t = t'
      · subst same
        obtain ⟨msg, p, p', before, after, _, less⟩ : ∃ msg p p',
            s.placeOf b (t, stage) = some (msg, p) ∧ w.bridge.place (t, stage) = some (msg, p') ∧
              p.isDone = false ∧ p'.stepsLeft + 1 ≤ p.stepsLeft := by
          cases Worker.move_of_step hw with
          | bridge _ m => exact m.charge rfl
        have dropped : ((s.setWorker b w).setPhase t (.abandoned stage b)).placeOf b (t, stage) =
            some (msg, p') := (setWorker_placeOf s b b w _).trans ((if_pos rfl).trans after)
        have fewer : (RequestPhase.abandoned stage b).budget n <
            (RequestPhase.asking stage b).budget n := RequestPhase.Next.drop.budget_lt n
        refine paid (stepsLeft_less hr rfl ?_)
        simp only [hp, underWay, before, dropped, Option.elim_some]
        omega
      · refine free (by simpa [Act.request] using Ne.symm same)
          (stepsLeft_congr (others same) (fun _ => rfl) fun b' stage' => ?_)
        exact moved _ (fun h => same (congrArg Prod.fst h)) b'

theorem stepsLeft_le {allow : Plugin n → Act → Prop} {as : List Act}
    (run : Run (step W cfg) allow (new : Plugin n) as s) (t : TaskId) :
    as.countP (Act.chargedTo t) + s.stepsLeft t ≤ 28 * n + 28 := by
  have pays : Pays (step W cfg) allow Owned (fun s : Plugin n => s.stepsLeft t) (Act.chargedTo t) :=
    fun _ _ _ hs _ hm => effect_pays hs (effect_of_step hm) t
  exact run.countP_le (fun _ _ _ hs _ hm => owned_step hs hm) pays owned_new

def Act.writes (b : BridgeId) (i : AskId) : Act → Bool
  | .worker b' op => b' == b && op.writes i
  | _ => false

theorem worker_eq_some {b : BridgeId} {op : Worker.Act AskId}
    (h : s.step W cfg (.worker b op) = some s') :
    ∃ w, (s.workers b).step W op = some w ∧ s.setWorker b w = s' := by
  refine runWorker_eq_some.mp ?_
  cases op with
  | bridge op =>
      cases op with
      | call _ _ => cases h
      | _ => exact h
  | _ => exact h

theorem written_step {a : Act} {b : BridgeId} {i : AskId} {k : Nat}
    (h : s.step W cfg a = some s') (hk : Written W k (s.placeOf b i)) :
    Written W (k + if a.writes b i then 1 else 0) (s'.placeOf b i) := by
  by_cases direct : ∃ op, a = .worker b op
  · obtain ⟨op, rfl⟩ := direct
    obtain ⟨w, hw, rfl⟩ := worker_eq_some h
    rw [setWorker_placeOf, if_pos rfl]
    simpa [Act.writes] using Worker.written_step hw hk
  · have quiet : a.writes b i = false := by
      cases a with
      | worker b' op =>
          simp only [Act.writes, Bool.and_eq_false_imp, beq_iff_eq]
          rintro rfl
          exact absurd ⟨op, rfl⟩ direct
      | _ => rfl
    have moved : ∀ {op : Worker.Act AskId}, op.writes i = false →
        (s.workers b).step W op = some (s'.workers b) →
        Written W (k + if a.writes b i then 1 else 0) (s'.placeOf b i) := fun none hw => by
      have kept := Worker.written_step hw hk
      rwa [none, ← quiet] at kept
    obtain same | ⟨op, on, _, hw⟩ | ⟨_, _, _, _, _, _, _, _, hw⟩ := (move_of_step h).worker_after b
    · rw [placeOf, same, quiet]
      exact hk
    · refine moved ?_ hw
      unfold Act.onWorker at on
      split at on
      · cases on
        exact absurd ⟨op, rfl⟩ direct
      · split at on
        · cases on
          rfl
        · cases on
      · cases on
    · exact moved rfl hw

/-- Whatever the other requests, the pool and the processes do, a request takes at most so
many steps, and hands a line to the pipe in at most as many parts as the line has bytes. -/
theorem request_steps_bounded {as : List Act} (run : Run (step W cfg) anyStep (new : Plugin n) as s)
    (t : TaskId) : as.countP (Act.chargedTo t) ≤ 28 * n + 28 ∧
      ∀ b stage msg p, s.placeOf b (t, stage) = some (msg, p) →
        as.countP (Act.writes b (t, stage)) ≤ (W.serialize msg).length := by
  refine ⟨(Nat.le_add_right _ _).trans (stepsLeft_le run t), fun b stage msg p hp => ?_⟩
  have written : Written W (as.countP (Act.writes b (t, stage))) (s.placeOf b (t, stage)) := by
    refine run.history (P := fun as s => Written W (as.countP (Act.writes b (t, stage)))
      (s.placeOf b (t, stage))) (fun as m a m' hs _ _ hm => ?_) ?_
    · rw [List.countP_append, List.countP_singleton]
      exact written_step hm hs
    · exact Eq.refl 0
  rw [hp] at written
  exact (Nat.le_add_right _ _).trans written

/-- One message up to its line, written at one go. -/
theorem request_steps_bounded_one_message :
    (writesTurn serdeJson plainCfg 0 "fan" "hi" 0).countP (Act.chargedTo 0) = 13 ∧ ∃ s : Plugin 1,
      exec (step serdeJson plainCfg) new (writesTurn serdeJson plainCfg 0 "fan" "hi" 0) = some s ∧
      (writesTurn serdeJson plainCfg 0 "fan" "hi" 0).countP (Act.chargedTo 0) ≤ 28 * 1 + 28 := by
  have run : (exec (step serdeJson plainCfg) (new : Plugin 1)
      (writesTurn serdeJson plainCfg 0 "fan" "hi" 0)).isSome = true := by decide +kernel
  obtain ⟨s, hrun⟩ := Option.isSome_iff_exists.mp run
  refine ⟨by decide +kernel, s, hrun, ?_⟩
  exact (request_steps_bounded (run_iff_exec.mpr hrun) 0).1

end Plugin
end EvoclawPluginWechat
