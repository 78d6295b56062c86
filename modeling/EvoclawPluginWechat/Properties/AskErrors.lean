import EvoclawPluginWechat.Properties.TurnExclusion

/-!
Why an ask returns an error. Two asks that share a conversation id may take each other's
sender; what a fan asks shares its id with nothing in flight, so an error tells a fan that
the bridge is dead, and its text what it died of.
-/
namespace EvoclawPluginWechat
open Transition

namespace Bridge
variable {ι : Type} [DecidableEq ι] {W : Wire} {s s' : Bridge ι} {a : Act ι}

/-- The errors of the three writes. -/
def WriteError (e : PluginError) : Prop :=
  ∃ kind ∈ ["write stdin", "write stdin newline", "flush stdin"], ∃ text,
    e = writeFailure kind text

/-- What this error says of the bridge. -/
inductive Explains (s : Bridge ι) : PluginError → Prop
  | refused : s.alive = false → Explains s (.backend "bridge is dead")
  | written {e : PluginError} : s.alive = false → s.broken = true → WriteError e → Explains s e
  | drained : s.alive = false → s.reader = .finished →
      Explains s (.backend "subprocess died before reply")

omit [DecidableEq ι] in
theorem Explains.dead {e : PluginError} (h : s.Explains e) : s.alive = false := by
  cases h with
  | refused dead | written dead _ _ | drained dead _ => exact dead

/-- How a step makes an ask return an error. -/
inductive Failing (s : Bridge ι) (j : ι) : PluginError → Act ι → Prop
  | refused : s.alive = false → Failing s j (.backend "bridge is dead") (.checkAlive j)
  | written {msg : InboundMessage} {e : PluginError} : s.place j = some (msg, .writeFailed e) →
      Failing s j e (.markDead j)
  | closed {b : Ask} : s.asks j = some b → b.phase.isDone = false →
      b.cell = .drained ∨ b.cell = .displaced →
      Failing s j (.backend "subprocess died before reply") (.recv j)

theorem error_setAsk {t : Bridge ι} {i j : ι} {msg m : InboundMessage} {phase phase' p' : AskPhase}
    {cell : Cell} {e : PluginError} (ha : s.asks i = some ⟨msg, phase, cell⟩)
    (hplace : ∀ j, t.place j = if j = i then some (msg, phase') else s.place j)
    (hr : phase'.result = some (.error e) → phase.result = some (.error e) ∨ Failing s i e a)
    (hj : t.place j = some (m, p')) (err : p'.result = some (.error e)) :
    (∃ p, s.place j = some (m, p) ∧ p.result = some (.error e)) ∨ Failing s j e a := by
  rw [hplace] at hj
  split at hj
  · next same =>
      subst same
      cases hj
      exact (hr err).imp (fun before => ⟨phase, place_of ha, before⟩) id
  · exact .inl ⟨p', hj, err⟩

theorem setAsk_inj {i : ι} {b c : Ask} : s.setAsk i b = s.setAsk i c ↔ b = c := by
  refine ⟨fun same => ?_, fun same => same ▸ rfl⟩
  have asks := congrArg (fun t => t.asks i) same
  simpa only [setAsk_asks, if_pos, Option.some.injEq] using asks

theorem refused_eq {i : ι} {msg : InboundMessage} {cell : Cell} {e : PluginError}
    (ha : s.asks i = some ⟨msg, .called, cell⟩)
    (h : s.step W (.checkAlive i) = some (s.setAsk i ⟨msg, .done (some (.error e)), cell⟩)) :
    s.alive = false ∧ e = .backend "bridge is dead" := by
  simp only [step, ha] at h
  split at h
  · have same := setAsk_inj.mp (Option.some.inj h)
    cases same
  · next dead =>
      have same := setAsk_inj.mp (Option.some.inj h)
      cases same
      exact ⟨Bool.eq_false_iff.mpr dead, rfl⟩

theorem recvClosed_eq {i : ι} {msg : InboundMessage} {cell : Cell} {e : PluginError}
    (ha : s.asks i = some ⟨msg, .awaiting, cell⟩) (closed : cell = .drained ∨ cell = .displaced)
    (h : s.step W (.recv i) = some (s.setAsk i ⟨msg, .leaving (some (.error e)), cell⟩)) :
    e = .backend "subprocess died before reply" := by
  simp only [step, ha] at h
  obtain rfl | rfl := closed
  · have same := setAsk_inj.mp (Option.some.inj h)
    cases same
    rfl
  · have same := setAsk_inj.mp (Option.some.inj h)
    cases same
    rfl

theorem failing_of_step (h : s.step W a = some s') {j : ι} {msg : InboundMessage} {p' : AskPhase}
    {e : PluginError} (hj : s'.place j = some (msg, p')) (err : p'.result = some (.error e)) :
    (∃ p, s.place j = some (msg, p) ∧ p.result = some (.error e)) ∨ Failing s j e a := by
  have m := move_of_step h
  cases m with
  | @call i msg' ha =>
      rw [place_setAsk] at hj
      split at hj
      · cases hj
        cases err
      · exact .inl ⟨p', hj, err⟩
  | @refused i msg' cell e' ha =>
      refine error_setAsk ha (place_setAsk s _ · _) (fun returned => .inr ?_) hj err
      cases returned
      obtain ⟨dead, rfl⟩ := refused_eq ha h
      exact .refused dead
  | checkOk ha _ | lock ha _ | write ha _ | newline ha _ | flush ha
  | writeError ha _ _ | recvText ha | dropWaiting ha _ | dropWriting ha _ =>
      exact error_setAsk ha (place_setAsk s _ · _) (fun h => by cases h) hj err
  | markDead ha =>
      refine error_setAsk ha (place_setAsk s _ · _) (fun returned => .inr ?_) hj err
      cases returned
      exact .written (place_of ha)
  | recvClosed ha closed =>
      refine error_setAsk ha (place_setAsk s _ · _) (fun returned => .inr ?_) hj err
      cases returned
      obtain rfl := recvClosed_eq ha closed h
      exact .closed ha rfl closed
  | insert ha =>
      exact error_setAsk ha (place_displace_setAsk s _ _ · _) (fun h => by cases h) hj err
  | @dropGuard i msg cell result ha =>
      exact error_setAsk ha (place_displace_setAsk s _ i · ⟨msg, .done result, cell⟩)
        (fun h => .inl h) hj err
  | readNoise _ | readerEnd _ | readerFlag _ | breakPipe => exact .inl ⟨p', hj, err⟩
  | deliver _ _ =>
      rw [place_deliver] at hj
      exact .inl ⟨p', hj, err⟩
  | readerDrain _ =>
      change s.clear.place j = _ at hj
      rw [place_clear] at hj
      exact .inl ⟨p', hj, err⟩

/-- The ids of the conversations that a fan speaks in are in flight once. -/
def FansApart (fan : ι → Bool) (s : Bridge ι) : Prop :=
  ∀ i j a b, fan i = true → i ≠ j → s.asks i = some a → s.asks j = some b →
    a.phase.isDone = false → b.phase.isDone = false →
    a.msg.conversationId ≠ b.msg.conversationId

structure Excused (fan : ι → Bool) (s : Bridge ι) : Prop where
  sound : s.Sound
  writeFailed : ∀ i msg e, s.place i = some (msg, .writeFailed e) → WriteError e
  drained : ∀ i a, s.asks i = some a → a.cell = .drained → s.reader = .finished
  undisplaced : ∀ i a, fan i = true → s.asks i = some a → a.phase.isDone = false →
    a.cell ≠ .displaced
  explained : ∀ i msg p e, fan i = true → s.place i = some (msg, p) →
    p.result = some (.error e) → s.Explains e

variable {fan : ι → Bool}

omit [DecidableEq ι] in
theorem excused_new : Excused fan (new : Bridge ι) :=
  ⟨sound_new, fun _ _ _ h => (by cases h), fun _ _ h => (by cases h), fun _ _ _ h => (by cases h),
    fun _ _ _ _ _ h => by cases h⟩

/-- A dead bridge stays dead, with what it died of. -/
structure Lasting (s s' : Bridge ι) : Prop where
  dead : s.alive = false → s'.alive = false
  broken : s.broken = true → s'.broken = true
  finished : s.reader = .finished → s'.reader = .finished

theorem Move.lasting (m : Move W s a s') : Lasting s s' := by
  cases m with
  | call _ | checkOk _ _ | refused _ | lock _ _ | write _ _ | newline _ _ | flush _
  | writeError _ _ _ | recvText _ | recvClosed _ _ | dropWaiting _ _ | dropWriting _ _
  | readNoise _ => exact ⟨id, id, id⟩
  | insert _ | dropGuard _ =>
      rw [displace_eq]
      exact ⟨id, id, id⟩
  | markDead _ => exact ⟨fun _ => rfl, id, id⟩
  | deliver _ _ =>
      rw [deliver_eq]
      exact ⟨id, id, id⟩
  | readerEnd reading => exact ⟨id, id, fun h => by cases reading.symm.trans h⟩
  | readerFlag ended => exact ⟨fun _ => rfl, id, fun h => by cases ended.symm.trans h⟩
  | readerDrain _ => exact ⟨id, id, fun _ => rfl⟩
  | breakPipe => exact ⟨id, fun _ => rfl, id⟩

theorem Explains.after {e : PluginError} (h : s.Explains e) (m : Move W s a s') :
    s'.Explains e := by
  have lasting := m.lasting
  cases h with
  | refused dead => exact .refused (lasting.dead dead)
  | written dead broken kind => exact .written (lasting.dead dead) (lasting.broken broken) kind
  | drained dead finished => exact .drained (lasting.dead dead) (lasting.finished finished)

theorem writeError_of_step {i : ι} {text : String} {msg : InboundMessage} {phase : AskPhase}
    {cell : Cell} {e : PluginError} (ha : s.asks i = some ⟨msg, phase, cell⟩)
    (hl : phase.holdsLock = true) (broken : s.broken = true)
    (h : s.step W (.writeError i text) = some s')
    (hi : s'.asks i = some ⟨msg, .writeFailed e, cell⟩) : WriteError e := by
  simp only [step, broken, if_true, ha] at h
  cases phase with
  | writing unsent =>
      cases unsent with
      | nil =>
          obtain rfl := Option.some.inj h
          simp only [setAsk_asks, if_true, Option.some.injEq] at hi
          cases hi
          exact ⟨"write stdin newline", by decide, text, rfl⟩
      | cons _ _ =>
          obtain rfl := Option.some.inj h
          simp only [setAsk_asks, if_true, Option.some.injEq] at hi
          cases hi
          exact ⟨"write stdin", by decide, text, rfl⟩
  | flushing =>
      obtain rfl := Option.some.inj h
      simp only [setAsk_asks, if_true, Option.some.injEq] at hi
      cases hi
      exact ⟨"flush stdin", by decide, text, rfl⟩
  | called | checked | queued | writeFailed _ | awaiting | leaving _ | done _ => cases hl

theorem writeFailed_setAsk {t : Bridge ι} {i j : ι} {msg m : InboundMessage} {phase : AskPhase}
    {e : PluginError}
    (hplace : ∀ j, t.place j = if j = i then some (msg, phase) else s.place j)
    (hp : ∀ e, phase ≠ .writeFailed e) (hj : t.place j = some (m, .writeFailed e)) :
    s.place j = some (m, .writeFailed e) := by
  rw [hplace] at hj
  split at hj
  · cases hj
    exact absurd rfl (hp e)
  · exact hj

theorem writeFailed_after (hs : ∀ i msg e, s.place i = some (msg, .writeFailed e) → WriteError e)
    (h : s.step W a = some s') {j : ι} {msg : InboundMessage} {e : PluginError}
    (hj : s'.place j = some (msg, .writeFailed e)) : WriteError e := by
  have m := move_of_step h
  cases m with
  | call _ | checkOk _ _ | refused _ | lock _ _ | write _ _ | newline _ _ | flush _ | markDead _
  | recvText _ | recvClosed _ _ | dropWaiting _ _ | dropWriting _ _ =>
      exact hs j msg e (writeFailed_setAsk (place_setAsk s _ · _) (fun _ h => by cases h) hj)
  | insert _ =>
      exact hs j msg e
        (writeFailed_setAsk (place_displace_setAsk s _ _ · _) (fun _ h => by cases h) hj)
  | @dropGuard i msg' cell result _ =>
      exact hs j msg e
        (writeFailed_setAsk (place_displace_setAsk s _ i · ⟨msg', .done result, cell⟩)
          (fun _ h => by cases h) hj)
  | @writeError i text msg' phase cell e' ha hl broken =>
      have kind := writeError_of_step ha hl broken h ((setAsk_asks s i i _).trans (if_pos rfl))
      change (s.setAsk i ⟨msg', .writeFailed e', cell⟩).place j = _ at hj
      rw [place_setAsk] at hj
      split at hj
      · cases hj
        exact kind
      · exact hs j msg e hj
  | readNoise _ | readerEnd _ | readerFlag _ | breakPipe => exact hs j msg e hj
  | deliver _ _ =>
      rw [place_deliver] at hj
      exact hs j msg e hj
  | readerDrain _ =>
      change s.clear.place j = _ at hj
      rw [place_clear] at hj
      exact hs j msg e hj

/-- Where the state of a channel comes from. -/
inductive CellSource (s s' : Bridge ι) (j : ι) (b' : Ask) : Prop
  | kept {b : Ask} : s.asks j = some b → b.cell = b'.cell →
      (b'.phase.isDone = false → b.phase.isDone = false) → CellSource s s' j b'
  | fresh : b'.cell = .empty → CellSource s s' j b'
  | sent {text : String} : b'.cell = .sent text → CellSource s s' j b'
  | drained : b'.cell = .drained → s'.reader = .finished → CellSource s s' j b'
  /-- Another ask in flight puts its own sender, or nothing, in the entry. -/
  | displaced {i : ι} {c : Ask} : b'.cell = .displaced → j ≠ i → s.asks i = some c →
      c.phase.isDone = false → s.pending.lookup c.msg.conversationId = some j →
      CellSource s s' j b'

theorem cellSource_setAsk {r t : Bridge ι} {i j : ι} {msg : InboundMessage}
    {phase phase' : AskPhase} {cell : Cell} {b' : Ask} (ha : s.asks i = some ⟨msg, phase, cell⟩)
    (flight : phase.isDone = false) (hasks : t.asks = (r.setAsk i ⟨msg, phase', cell⟩).asks)
    (others : r.asks j = some b' → CellSource s t j b') (hj : t.asks j = some b') :
    CellSource s t j b' := by
  rw [hasks, setAsk_asks] at hj
  split at hj
  · next same =>
      subst same
      obtain rfl := Option.some.inj hj
      exact .kept ha rfl fun _ => flight
  · exact others hj

theorem cellSource_displace {t : Bridge ι} {i j : ι} {c b' : Ask} (hi : s.asks i = some c)
    (flight : c.phase.isDone = false)
    (hj : (s.displace c.msg.conversationId i).asks j = some b') : CellSource s t j b' := by
  rw [displace_asks] at hj
  split at hj
  · next taken =>
      obtain ⟨b, _, rfl⟩ := Option.map_eq_some_iff.mp hj
      exact .displaced rfl taken.2 hi flight taken.1
  · exact .kept hj rfl id

theorem Move.cellSource (m : Move W s a s') {j : ι} {b' : Ask} (hj : s'.asks j = some b') :
    CellSource s s' j b' := by
  have kept : ∀ {t : Bridge ι}, s.asks j = some b' → CellSource s t j b' :=
    fun h => .kept h rfl id
  cases m with
  | call _ =>
      rw [setAsk_asks] at hj
      split at hj
      · obtain rfl := Option.some.inj hj
        exact .fresh rfl
      · exact kept hj
  | checkOk ha _ | refused ha | lock ha _ | write ha _ | newline ha _ | flush ha | markDead ha
  | recvText ha | recvClosed ha _ => exact cellSource_setAsk ha rfl rfl kept hj
  | writeError ha hl _ | dropWriting ha hl =>
      exact cellSource_setAsk ha (not_isDone_of_holdsLock hl) rfl kept hj
  | dropWaiting ha hp =>
      obtain rfl | rfl := hp
      · exact cellSource_setAsk ha rfl rfl kept hj
      · exact cellSource_setAsk ha rfl rfl kept hj
  | insert ha | dropGuard ha =>
      exact cellSource_setAsk ha rfl rfl (cellSource_displace ha rfl) hj
  | readNoise _ | readerEnd _ | readerFlag _ | breakPipe => exact kept hj
  | deliver _ _ =>
      rw [deliver_asks] at hj
      split at hj
      · obtain ⟨b, _, rfl⟩ := Option.map_eq_some_iff.mp hj
        exact .sent rfl
      · exact kept hj
  | readerDrain _ =>
      change s.clear.asks j = _ at hj
      rw [clear_asks] at hj
      obtain ⟨b, hb, rfl⟩ := Option.map_eq_some_iff.mp hj
      split
      · exact .drained rfl rfl
      · exact .kept hb rfl id

theorem drained_after (hs : Excused fan s) (m : Move W s a s') {j : ι} {b' : Ask}
    (hj : s'.asks j = some b') (drained : b'.cell = .drained) : s'.reader = .finished := by
  cases m.cellSource hj with
  | kept hb same _ => exact m.lasting.finished (hs.drained j _ hb (same.trans drained))
  | drained _ finished => exact finished
  | fresh other | sent other | displaced other _ _ _ _ => cases drained.symm.trans other

theorem undisplaced_after (hs : Excused fan s) (apart : s.FansApart fan) (m : Move W s a s')
    {j : ι} {b' : Ask} (fanj : fan j = true) (hj : s'.asks j = some b')
    (flight : b'.phase.isDone = false) : b'.cell ≠ .displaced := by
  intro taken
  cases m.cellSource hj with
  | kept hb same before => exact hs.undisplaced j _ fanj hb (before flight) (same.trans taken)
  | fresh other | sent other | drained other _ => cases taken.symm.trans other
  | displaced _ other hi flight' entry =>
      obtain ⟨b, hb, own⟩ := (hs.sound.linked.owner _ j).mp entry
      exact apart j _ b _ fanj other hb hi (not_isDone_of_inserted own.inserted) flight' own.cid

theorem excused_step (hs : Excused fan s) (apart : s.FansApart fan) (h : s.step W a = some s') :
    Excused fan s' := by
  have m := move_of_step h
  refine ⟨sound_move hs.sound m, fun i msg e => writeFailed_after hs.writeFailed h,
    fun i b' => drained_after hs m, fun i b' => undisplaced_after hs apart m,
    fun i msg p' e hi hp err => ?_⟩
  obtain ⟨p, before, returned⟩ | failing := failing_of_step h hp err
  · exact (hs.explained i msg p e hi before returned).after m
  · cases failing with
    | refused dead => exact Explains.after (.refused dead) m
    | written hw =>
        have kind := hs.writeFailed i _ e hw
        refine .written ?_ (m.lasting.broken (hs.sound.flags.failed i _ e hw)) kind
        cases m with
        | markDead _ => rfl
    | closed hb flight lost =>
        obtain gone | taken := lost
        · have finished := hs.drained i _ hb gone
          have dead := hs.sound.flags.closed (by rw [finished]; rfl)
          exact Explains.after (.drained dead finished) m
        · exact absurd taken (hs.undisplaced i _ hi hb flight)

end Bridge

namespace Worker
variable {ι : Type} [DecidableEq ι] {W : Wire} {fan : ι → Bool} {w w' : Worker ι} {a : Act ι}

theorem excused_worker_step (hs : w.bridge.Excused fan) (apart : w.bridge.FansApart fan)
    (h : w.step W a = some w') : w'.bridge.Excused fan := by
  cases a with
  | bridge op =>
      have quiet : ∀ line, op ≠ .readLine line := by
        rintro line rfl
        cases h
      rw [step_bridge quiet] at h
      obtain ⟨s, hop, rfl⟩ := Option.map_eq_some_iff.mp h
      exact Bridge.excused_step hs apart hop
  | answer out =>
      simp only [step] at h
      split at h
      · cases h
        exact hs
      · cases h
  | deliver =>
      simp only [step] at h
      split at h
      · obtain ⟨s, hop, rfl⟩ := Option.map_eq_some_iff.mp h
        exact Bridge.excused_step hs apart hop
      · cases h
  | exit =>
      cases h
      have broken : w.bridge.step W .breakPipe = some { w.bridge with broken := true } := rfl
      exact Bridge.excused_step hs apart broken

end Worker

namespace Plugin
variable {n : Nat} {W : Wire} {cfg : HandlerCfg} {s s' : Plugin n}

theorem Attended.fansApart (hs : Attended cfg s) (b : BridgeId) :
    (s.workers b).bridge.FansApart AskId.ofFan := by
  intro i j a c fan other hi hj flight flight' same
  have one := hs.one_ask (eq_of_beq fan) (Bridge.place_of hi) (Bridge.place_of hj) flight flight'
    same.symm
  exact other one.2

variable [NeZero n]

theorem excused_reachable (h : Reachable (step W cfg) anyStep (· = (new : Plugin n)) s)
    (b : BridgeId) : (s.workers b).bridge.Excused AskId.ofFan := by
  have inv : Attended cfg s ∧ ∀ b, (s.workers b).bridge.Excused AskId.ofFan := by
    refine h.invariant (P := fun s => Attended cfg s ∧
      ∀ b, (s.workers b).bridge.Excused AskId.ofFan) ?_ fun s a s' hs _ hm => ?_
    · rintro _ rfl
      exact ⟨attended_new, fun _ => Bridge.excused_new⟩
    · have m := move_of_step hm
      refine ⟨attended_move hs.1 m, fun b => ?_⟩
      have apart := hs.1.fansApart b
      obtain same | ⟨_, _, _, hop⟩ | ⟨_, _, _, _, _, _, _, _, hop⟩ := m.worker_after b
      · exact same ▸ hs.2 b
      · exact Worker.excused_worker_step (hs.2 b) apart hop
      · exact Worker.excused_worker_step (hs.2 b) apart hop
  exact inv.2 b

/-- A fan's ask fails with its bridge, whatever the other requests do. -/
theorem fan_error_explained (h : Reachable (step W cfg) anyStep (· = (new : Plugin n)) s)
    {t : TaskId} {b : BridgeId} {e : PluginError}
    (failed : s.askResult b (t, .reply) = some (some (.error e))) :
    (s.workers b).bridge.Explains e := by
  unfold askResult at failed
  split at failed
  · next msg result cell ha =>
      cases failed
      exact (excused_reachable h b).explained (t, .reply) msg _ e rfl (Bridge.place_of ha) rfl
  · cases failed

/-- The subprocess exits before it answers. -/
theorem fan_error_explained_exit : ∃ s : Plugin 1,
    s.askResult 0 (0, .reply) = some (some (.error (.backend "subprocess died before reply"))) ∧
      (s.workers 0).bridge.Explains (.backend "subprocess died before reply") := by
  have run : (exec (step serdeJson plainCfg) (new : Plugin 1)
      (writesTurn serdeJson plainCfg 0 "fan" "hi" 0 ++
        [.worker 0 .exit, .worker 0 (.bridge .readerEnd), .worker 0 (.bridge .readerFlag),
          .worker 0 (.bridge .readerDrain), .worker 0 (.bridge (.recv (0, .reply))),
          .worker 0 (.bridge (.dropGuard (0, .reply)))])).any
      (fun s => decide (s.askResult 0 (0, .reply) =
        some (some (.error (.backend "subprocess died before reply"))))) = true := by
    decide +kernel
  obtain ⟨s, hrun, hs⟩ := (Option.any_eq_true _ _).mp run
  have failed := of_decide_eq_true hs
  have reached : Reachable (step serdeJson plainCfg) anyStep (· = (new : Plugin 1)) s :=
    ⟨new, _, rfl, run_iff_exec.mpr hrun⟩
  exact ⟨s, failed, fan_error_explained reached failed⟩

end Plugin
end EvoclawPluginWechat
