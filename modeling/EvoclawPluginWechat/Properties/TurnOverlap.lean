import EvoclawPluginWechat.Properties.TurnExclusion

/-!
Whether two subprocesses work for one fan at a time. The guard of the conversation covers
the ask, not the work of the subprocess: the two end together unless the ask ends first.
-/
namespace EvoclawPluginWechat

/-- The newline is written and the ask still waits. -/
def AskPhase.busy : AskPhase → Bool
  | .flushing | .awaiting => true
  | _ => false

theorem AskPhase.not_isDone_of_busy {p : AskPhase} (h : p.busy = true) : p.isDone = false := by
  cases p with
  | done _ => cases h
  | _ => rfl

namespace Bridge
variable {ι : Type} [DecidableEq ι]

/-- The ask that may end its wait with this action. -/
def Act.ending : Act ι → Option ι
  | .drop i | .recv i | .writeError i _ => some i
  | _ => none

theorem busy_setAsk {s t : Bridge ι} {i j : ι} {msg m : InboundMessage}
    {phase phase' p : AskPhase} {cell : Cell} (ha : s.asks i = some ⟨msg, phase, cell⟩)
    (hplace : ∀ j, t.place j = if j = i then some (msg, phase') else s.place j)
    (hj : s.place j = some (m, p)) (busy : p.busy = true)
    (stays : j = i → phase.busy = true → phase'.busy = true) :
    ∃ p', t.place j = some (m, p') ∧ p'.busy = true := by
  rw [hplace]
  split
  · next same =>
      rw [same, place_of ha] at hj
      cases hj
      exact ⟨phase', rfl, stays same busy⟩
  · exact ⟨p, hj, busy⟩

theorem Move.busy_after {W : Wire} {s s' : Bridge ι} {a : Act ι} (m : Move W s a s') {j : ι}
    {msg : InboundMessage} {p : AskPhase} (hj : s.place j = some (msg, p))
    (busy : p.busy = true) (goes : a.ending ≠ some j) :
    ∃ p', s'.place j = some (msg, p') ∧ p'.busy = true := by
  cases m with
  | @call i _ ha =>
      refine ⟨p, ?_, busy⟩
      rw [place_setAsk, if_neg, hj]
      rintro rfl
      rw [place, ha] at hj
      cases hj
  | checkOk ha _ | refused ha | lock ha _ | write ha _ | newline ha _ | flush ha | markDead ha =>
      exact busy_setAsk ha (place_setAsk s _ · _) hj busy fun _ h => (by first | rfl | cases h)
  | insert ha | dropGuard ha =>
      exact busy_setAsk ha (place_displace_setAsk s _ _ · _) hj busy fun _ h => by cases h
  | writeError ha _ _ | recvText ha | recvClosed ha _ | dropWaiting ha _ | dropWriting ha _ =>
      refine busy_setAsk ha (place_setAsk s _ · _) hj busy fun same _ => ?_
      exact absurd (congrArg some same.symm) goes
  | readNoise _ | readerEnd _ | readerFlag _ | breakPipe => exact ⟨p, hj, busy⟩
  | deliver _ _ =>
      rw [place_deliver]
      exact ⟨p, hj, busy⟩
  | readerDrain _ =>
      change ∃ p', s.clear.place j = _ ∧ _
      rw [place_clear]
      exact ⟨p, hj, busy⟩

end Bridge

namespace Worker
variable {ι : Type} [DecidableEq ι]

/-- The asks whose line the subprocess has still to answer. -/
def unanswered (w : Worker ι) : List ι := w.bridge.completed.drop w.answers.length

/-- No fan's ask ends while a running subprocess has its line still to answer. -/
def endsAnswered (fan : ι → Bool) (w : Worker ι) : Act ι → Prop
  | .bridge b => ∀ i ∈ b.ending, fan i = true → w.running = true → i ∉ w.unanswered
  | _ => True

instance (fan : ι → Bool) (w : Worker ι) (a : Act ι) : Decidable (w.endsAnswered fan a) :=
  match a with
  | .bridge b => inferInstanceAs (Decidable (∀ i ∈ b.ending, _ → _ → _))
  | .answer _ | .deliver | .exit => .isTrue trivial

/-- A running subprocess works for asks that wait for it. -/
structure Attentive (fan : ι → Bool) (w : Worker ι) : Prop where
  completions : w.bridge.Completions
  busy : w.running = true → ∀ i ∈ w.unanswered, fan i = true →
    ∃ msg p, w.bridge.place i = some (msg, p) ∧ p.busy = true

section Step
variable {W : Wire} {fan : ι → Bool} {w w' : Worker ι}

omit [DecidableEq ι] in
theorem attentive_new : Attentive fan (new : Worker ι) :=
  ⟨Bridge.completions_new, fun _ _ h => by cases h⟩

theorem busy_bridge (hs : Attentive fan w) {b : Bridge.Act ι} {s' : Bridge ι}
    (m : Bridge.Move W w.bridge b s') (ends : w.endsAnswered fan (.bridge b))
    (running : w.running = true) {i : ι} (hi : i ∈ s'.completed.drop w.answers.length)
    (hf : fan i = true) : ∃ msg p, s'.place i = some (msg, p) ∧ p.busy = true := by
  have old : i ∈ w.unanswered → ∃ msg p, s'.place i = some (msg, p) ∧ p.busy = true := by
    intro hi
    obtain ⟨msg, p, hp, busy⟩ := hs.busy running i hi hf
    exact ⟨msg, m.busy_after hp busy fun ending => ends i ending hf running hi⟩
  obtain same | ⟨j, msg, _, flushing, more⟩ := m.completed_after
  · rw [same] at hi
    exact old hi
  · rw [more, List.drop_append] at hi
    obtain before | new := List.mem_append.mp hi
    · exact old before
    · obtain rfl := List.mem_singleton.mp (List.mem_of_mem_drop new)
      exact ⟨msg, .flushing, flushing, rfl⟩

theorem attentive_move (hs : Attentive fan w) {a : Act ι} (ends : w.endsAnswered fan a)
    (m : Move W w a w') : Attentive fan w' := by
  cases m with
  | bridge _ m =>
      exact ⟨Bridge.completions_move hs.completions m,
        fun running i hi hf => busy_bridge hs m ends running hi hf⟩
  | @answer out _ _ _ _ _ _ _ _ =>
      refine ⟨hs.completions, fun running i hi hf => hs.busy running i ?_ hf⟩
      rw [unanswered, List.length_append, ← List.drop_drop] at hi
      exact List.mem_of_mem_drop hi
  | @deliver out _ _ m =>
      have ends : w.endsAnswered fan (.bridge (.readLine out)) := fun _ h => by cases h
      exact ⟨Bridge.completions_move hs.completions m,
        fun running i hi hf => busy_bridge hs m ends running hi hf⟩
  | exit => exact ⟨⟨hs.completions.past, hs.completions.once⟩, fun running => by cases running⟩

end Step

end Worker

namespace Plugin
variable {n : Nat} {W : Wire} {cfg : HandlerCfg} {s s' : Plugin n}

def endsAnswered (s : Plugin n) (a : Act) : Prop :=
  ∀ x ∈ a.onWorker s, (s.workers x.1).endsAnswered AskId.ofFan x.2

/-- The `k`-th line of a running subprocess belongs to the conversation and has no answer. -/
def Unanswered (s : Plugin n) (cid : String) (b : BridgeId) (k : Nat) : Prop :=
  (s.workers b).running = true ∧ (s.workers b).answers.length ≤ k ∧
    ((s.workers b).bridge.completed[k]?).bind (s.workers b).bridge.conversation = some cid

theorem attentive_plugin_move (hw : ∀ b, (s.workers b).Attentive AskId.ofFan) {a : Act}
    (ends : s.endsAnswered a) (m : Move W cfg s a s') (b : BridgeId) :
    (s'.workers b).Attentive AskId.ofFan := by
  obtain same | ⟨op, on, _, hop⟩ | ⟨t, r, stage, ms, _, _, _, _, hop⟩ := m.worker_after b
  · rw [same]
    exact hw b
  · exact Worker.attentive_move (hw b) (ends _ on) (Worker.move_of_step hop)
  · have ends : (s.workers b).endsAnswered AskId.ofFan
        (.bridge (.call (t, stage) (message cfg s r ms stage))) :=
      fun _ h => by cases h
    exact Worker.attentive_move (hw b) ends (Worker.move_of_step hop)

/-- Whoever wrote an unanswered line of a fan is a fan's ask in flight. -/
theorem Unanswered.asked (hs : Attended cfg s) (hw : ∀ b, (s.workers b).Attentive AskId.ofFan)
    {fromUser : String} {b : BridgeId} {k : Nat}
    (h : s.Unanswered (buildConversationId cfg.appId fromUser) b k) :
    ∃ i msg p, (s.workers b).bridge.completed[k]? = some i ∧ i.2 = .reply ∧
      (s.workers b).bridge.place i = some (msg, p) ∧ p.isDone = false ∧
      msg.conversationId = buildConversationId cfg.appId fromUser := by
  obtain ⟨running, due, line⟩ := h
  obtain ⟨i, hi, conv⟩ := Option.bind_eq_some_iff.mp line
  obtain ⟨a, ha, cid⟩ := Option.map_eq_some_iff.mp conv
  obtain ⟨r, hr, speaks, _⟩ := hs.asked b i a.msg a.phase (Bridge.place_of ha)
  have fan : i.2 = .reply := by
    cases stage : i.2 with
    | reply => rfl
    | classify =>
        rw [stage] at speaks
        obtain ⟨nanos, ephemeral⟩ := speaks
        exact absurd (cid.symm.trans ephemeral) (buildConversationId_ne_ephemeralCid _ _ _)
  have unanswered : i ∈ (s.workers b).unanswered := by
    refine List.mem_of_getElem? (i := k - (s.workers b).answers.length) ?_
    rw [Worker.unanswered, List.getElem?_drop, Nat.add_sub_cancel' due]
    exact hi
  obtain ⟨msg, p, hp, busy⟩ := (hw b).busy running i unanswered (beq_iff_eq.mpr fan)
  obtain rfl : a.msg = msg :=
    congrArg Prod.fst (Option.some.inj ((Bridge.place_of ha).symm.trans hp))
  exact ⟨i, _, p, hi, fan, hp, AskPhase.not_isDone_of_busy busy, cid⟩

theorem turns_never_overlap [NeZero n]
    (h : Transition.Reachable (step W cfg) endsAnswered (· = (new : Plugin n)) s)
    {fromUser : String} {b b' : BridgeId} {k k' : Nat}
    (hk : s.Unanswered (buildConversationId cfg.appId fromUser) b k)
    (hk' : s.Unanswered (buildConversationId cfg.appId fromUser) b' k') : b = b' ∧ k = k' := by
  have inv : Attended cfg s ∧ ∀ b, (s.workers b).Attentive AskId.ofFan := by
    refine h.invariant (P := fun s => Attended cfg s ∧
      ∀ b, (s.workers b).Attentive AskId.ofFan) ?_ fun s a s' hs ends hm => ?_
    · rintro _ rfl
      exact ⟨attended_new, fun _ => Worker.attentive_new⟩
    · have m := move_of_step hm
      exact ⟨attended_move hs.1 m, attentive_plugin_move hs.2 ends m⟩
  obtain ⟨i, msg, p, hi, fan, hp, flight, cid⟩ := hk.asked inv.1 inv.2
  obtain ⟨j, msg', p', hj, _, hp', flight', cid'⟩ := hk'.asked inv.1 inv.2
  obtain ⟨rfl, rfl⟩ := inv.1.one_ask fan hp hp' flight flight' (cid'.trans cid.symm)
  refine ⟨rfl, ?_⟩
  have below := (List.getElem?_eq_some_iff.mp hi).1
  exact (List.getElem?_inj below (inv.2 b).completions.once).mp (hi.trans hj.symm)

instance (s : Plugin n) (a : Act) : Decidable (s.endsAnswered a) :=
  inferInstanceAs (Decidable (∀ x ∈ a.onWorker s, _))

instance (s : Plugin n) (cid : String) (b : BridgeId) (k : Nat) :
    Decidable (s.Unanswered cid b k) := inferInstanceAs (Decidable (_ ∧ _ ∧ _))

/-- Two messages of one fan on two workers; the first one is answered before the second
one is handed out. -/
theorem turns_never_overlap_two_workers : ∃ (cfg : HandlerCfg) (s : Plugin 2),
    Transition.Reachable (step serdeJson cfg) endsAnswered (· = new) s ∧
      s.Unanswered (buildConversationId cfg.appId "fan") 1 0 ∧
      ∀ b k, s.Unanswered (buildConversationId cfg.appId "fan") b k → b = 1 ∧ k = 0 := by
  let cfg : HandlerCfg := ⟨"app", "busy", id, id⟩
  have run : (Transition.execIf (step serdeJson cfg) endsAnswered (new : Plugin 2)
      (writesTurn serdeJson cfg 0 "fan" "hi" 0 ++
        [.worker 0 (.answer (plainReply "wx-app-fan" "first")), .worker 0 .deliver] ++
        endsTurn 0 0 .recv ++ writesTurn serdeJson cfg 1 "fan" "again" 1)).any
      (fun s => decide (s.Unanswered (buildConversationId cfg.appId "fan") 1 0)) = true := by
    decide +kernel
  obtain ⟨s, hrun, hs⟩ := (Option.any_eq_true _ _).mp run
  have second := of_decide_eq_true hs
  have reached : Transition.Reachable (step serdeJson cfg) endsAnswered
      (· = (new : Plugin 2)) s := ⟨new, _, rfl, Transition.run_of_execIf hrun⟩
  exact ⟨cfg, s, reached, second, fun b k other => turns_never_overlap reached other second⟩

/-- The first ask times out; its subprocess still works when the second worker gets the
fan's next message. -/
theorem turns_overlap_after_timeout : ∃ (cfg : HandlerCfg) (s : Plugin 2),
    Transition.Reachable (step serdeJson cfg) Transition.anyStep (· = new) s ∧
      s.Unanswered (buildConversationId cfg.appId "fan") 0 0 ∧
      s.Unanswered (buildConversationId cfg.appId "fan") 1 0 := by
  let cfg : HandlerCfg := ⟨"app", "busy", id, id⟩
  have run : (Transition.exec (step serdeJson cfg) (new : Plugin 2)
      (writesTurn serdeJson cfg 0 "fan" "hi" 0 ++ endsTurn 0 0 .drop ++
        writesTurn serdeJson cfg 1 "fan" "again" 1)).any
      (fun s => decide (s.Unanswered (buildConversationId cfg.appId "fan") 0 0 ∧
        s.Unanswered (buildConversationId cfg.appId "fan") 1 0)) = true := by
    decide +kernel
  obtain ⟨s, hrun, hs⟩ := (Option.any_eq_true _ _).mp run
  exact ⟨cfg, s, ⟨new, _, rfl, Transition.run_iff_exec.mpr hrun⟩, of_decide_eq_true hs⟩

end Plugin
end EvoclawPluginWechat
