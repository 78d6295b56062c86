import EvoclawPluginWechat.Properties.TurnExclusion

/-!
A fan gets the answer to the line of the message it sent, in every run in which no ask
begins to wait while an earlier line of its conversation has its answer still to come.
-/
namespace EvoclawPluginWechat
namespace Plugin
variable {n : Nat} {W : Wire} {cfg : HandlerCfg} {s s' : Plugin n}

def repliesInTurn (s : Plugin n) (a : Act) : Prop :=
  ∀ x ∈ a.onWorker s, (s.workers x.1).inTurn AskId.ofFan x.2

theorem Attended.apart (hs : Attended cfg s) {t : TaskId} {r : Request} {stage : Stage}
    {b : BridgeId} {msg : InboundMessage} (hr : s.requests t = some r)
    (hp : r.phase = .checkout stage) (speaks : r.Speaks cfg stage msg.conversationId) :
    (s.workers b).apart AskId.ofFan (.bridge (.call (t, stage) msg)) := by
  intro i msg' call j a ha flight fan
  cases call
  refine hs.none_asks hr hp speaks (Bridge.place_of ha) flight ?_
  exact fan.imp eq_of_beq eq_of_beq

theorem correlated_plugin_move (hs : Attended cfg s)
    (hw : ∀ b, (s.workers b).Correlated W AskId.ofFan) {a : Act} (turn : s.repliesInTurn a)
    (m : Move W cfg s a s') (b : BridgeId) : (s'.workers b).Correlated W AskId.ofFan := by
  obtain same | ⟨op, on, nocall, hop⟩ | ⟨t, r, stage, ms, _, hr, hp, _, hop⟩ :=
    m.worker_after b
  · rw [same]
    exact hw b
  · exact Worker.correlated_move (hw b) (turn _ on) (fun i msg h => absurd h (nocall i msg))
      (Worker.move_of_step hop)
  · have turn : (s.workers b).inTurn AskId.ofFan
        (.bridge (.call (t, stage) (message cfg s r ms stage))) :=
      fun _ h => by cases h
    exact Worker.correlated_move (hw b) turn (hs.apart hr hp (message_speaks s r ms stage))
      (Worker.move_of_step hop)

variable [NeZero n]

theorem reply_answers_own_line
    (h : Transition.Reachable (step W cfg) repliesInTurn (· = (new : Plugin n)) s)
    {t : TaskId} {b : BridgeId} {a : Ask} {text : String}
    (ha : (s.workers b).bridge.asks (t, .reply) = some a)
    (ok : a.phase.result = some (.ok text)) :
    (s.workers b).Answered W (t, .reply) text := by
  have inv : Attended cfg s ∧ ∀ b, (s.workers b).Correlated W AskId.ofFan := by
    refine h.invariant (P := fun s => Attended cfg s ∧
      ∀ b, (s.workers b).Correlated W AskId.ofFan) ?_ fun s a s' hs turn hm => ?_
    · rintro _ rfl
      exact ⟨attended_new, fun _ => Worker.correlated_new⟩
    · have m := move_of_step hm
      exact ⟨attended_move hs.1 m, correlated_plugin_move hs.1 hs.2 turn m⟩
  exact (inv.2 b).answered rfl ha ok

instance (s : Plugin n) (a : Act) : Decidable (repliesInTurn s a) :=
  inferInstanceAs (Decidable (∀ x ∈ a.onWorker s, _))

/-- Two messages of one fan; the first one's answer comes too late for its ask, but before
the second one asks. -/
theorem reply_answers_own_line_after_timeout : ∃ (cfg : HandlerCfg) (s : Plugin 1),
    Transition.Reachable (step serdeJson cfg) repliesInTurn (· = new) s ∧
      (s.workers 0).Answered serdeJson (1, .reply) "second" := by
  let cfg : HandlerCfg := ⟨"app", "busy", id, id⟩
  have run : (Transition.execIf (step serdeJson cfg) repliesInTurn (new : Plugin 1)
      (writesTurn serdeJson cfg 0 "fan" "hi" 0 ++ endsTurn 0 0 .drop ++
        [.worker 0 (.answer (plainReply "wx-app-fan" "first")), .worker 0 .deliver] ++
        writesTurn serdeJson cfg 1 "fan" "again" 0 ++
        [.worker 0 (.answer (plainReply "wx-app-fan" "second")), .worker 0 .deliver,
          .worker 0 (.bridge (.recv (1, .reply)))])).any
      (fun s => decide (∃ a ∈ (s.workers 0).bridge.asks (1, .reply),
        a.phase.result = some (.ok "second"))) = true := by
    decide +kernel
  obtain ⟨s, hrun, hs⟩ := (Option.any_eq_true _ _).mp run
  obtain ⟨a, ha, ok⟩ := of_decide_eq_true hs
  have reached : Transition.Reachable (step serdeJson cfg) repliesInTurn
      (· = (new : Plugin 1)) s := ⟨new, _, rfl, Transition.run_of_execIf hrun⟩
  exact ⟨cfg, s, reached, reply_answers_own_line reached ha ok⟩

/-- The first ask times out unanswered; its late answer is what the second ask returns. -/
theorem reply_answers_earlier_line : ∃ (cfg : HandlerCfg) (s : Plugin 1),
    Transition.Reachable (step serdeJson cfg) Transition.anyStep (· = new) s ∧
      ∃ a, (s.workers 0).bridge.asks (1, .reply) = some a ∧
        a.phase.result = some (.ok "first") ∧
        ¬ (s.workers 0).Answered serdeJson (1, .reply) "first" := by
  let cfg : HandlerCfg := ⟨"app", "busy", id, id⟩
  have run : (Transition.exec (step serdeJson cfg) (new : Plugin 1)
      (writesTurn serdeJson cfg 0 "fan" "hi" 0 ++ endsTurn 0 0 .drop ++
        writesTurn serdeJson cfg 1 "fan" "again" 0 ++
        [.worker 0 (.answer (plainReply "wx-app-fan" "first")), .worker 0 .deliver,
          .worker 0 (.bridge (.recv (1, .reply)))])).any
      (fun s => decide ((s.workers 0).bridge.completed = [(0, .reply), (1, .reply)] ∧
        (s.workers 0).answers.length = 1 ∧ ∃ a ∈ (s.workers 0).bridge.asks (1, .reply),
          a.phase.result = some (.ok "first"))) = true := by
    decide +kernel
  obtain ⟨s, hrun, hs⟩ := (Option.any_eq_true _ _).mp run
  obtain ⟨completed, answers, a, ha, ok⟩ := of_decide_eq_true hs
  refine ⟨cfg, s, ⟨new, _, rfl, Transition.run_iff_exec.mpr hrun⟩, a, ha, ok, fun own => ?_⟩
  obtain ⟨k, line, out, msg, hk, _, _, hout, _⟩ := own
  obtain ⟨below, _⟩ := List.getElem?_eq_some_iff.mp hout
  rw [answers, Nat.lt_one_iff] at below
  rw [below, completed] at hk
  cases hk

end Plugin
end EvoclawPluginWechat
