import EvoclawPluginWechat.Properties.Components
import EvoclawPluginWechat.Properties.PendingExact
import EvoclawPluginWechat.Properties.TurnExclusion

/-!
Conversation ids in flight on one bridge differ: a fan's by the lock of its conversation,
a classifier's by the clock, in every run in which the clock does not repeat itself to two
classifiers that ask the same bridge at the same time.
-/
namespace EvoclawPluginWechat

namespace Worker
variable {ι : Type} [DecidableEq ι] {W : Wire} {w w' : Worker ι}

/-- The ask that begins, if one does, has a conversation id of its own. -/
def callsApart (w : Worker ι) (a : Act ι) : Prop :=
  ∀ i msg, a = .bridge (.call i msg) → ∀ j c, w.bridge.asks j = some c →
    c.phase.isDone = false → c.msg.conversationId ≠ msg.conversationId

theorem distinct_move {a : Act ι} (hd : w.bridge.Distinct) (apart : w.callsApart a)
    (m : Move W w a w') : w'.bridge.Distinct := by
  intro i j hij x hx y hy flight flight' same
  obtain ⟨p, hp, later⟩ | ⟨call, _⟩ := m.place_before (Bridge.place_of hx)
  · obtain ⟨cell, hi⟩ := Bridge.place_eq_some.mp hp
    obtain ⟨q, hq, later'⟩ | ⟨call, _⟩ := m.place_before (Bridge.place_of hy)
    · obtain ⟨cell', hj⟩ := Bridge.place_eq_some.mp hq
      exact hd i j hij _ hi _ hj (later.unfinished flight) (later'.unfinished flight') same
    · exact apart j y.msg call i _ hi (later.unfinished flight) same
  · obtain ⟨q, hq, later'⟩ | ⟨call', _⟩ := m.place_before (Bridge.place_of hy)
    · obtain ⟨cell', hj⟩ := Bridge.place_eq_some.mp hq
      exact apart i x.msg call j _ hj (later'.unfinished flight') same.symm
    · have both := call.symm.trans call'
      rw [Act.bridge.injEq, Bridge.Act.call.injEq] at both
      exact hij both.1

end Worker

theorem Bridge.insert_key_free {ι : Type} {s : Bridge ι} (hs : s.Linked) (hd : s.Distinct)
    {i : ι} {a : Ask} (ha : s.asks i = some a) (before : a.phase = .checked) :
    s.pending.lookup a.msg.conversationId = none := by
  refine Option.eq_none_iff_forall_not_mem.mpr fun j hj => ?_
  obtain ⟨b, hb, own⟩ := (hs.owner _ j).mp hj
  have other : i ≠ j := by
    rintro rfl
    obtain rfl := Option.some.inj (ha.symm.trans hb)
    have inserted := own.inserted
    rw [before] at inserted
    cases inserted
  have flight : a.phase.isDone = false := by rw [before]; rfl
  exact hd i j other a ha b hb flight (Bridge.not_isDone_of_inserted own.inserted) own.cid.symm

namespace Plugin
variable {n : Nat} {W : Wire} {cfg : HandlerCfg} {s s' : Plugin n}

/-- The classifier that begins to ask, if one does, reads the clock at another nanosecond
than every classifier with an ask in flight on the same bridge. -/
def freshReading (s : Plugin n) (a : Act) : Prop :=
  ∀ t ms b, a = .checkedOut t ms →
    (s.requests t).map Request.phase = some (.checkout .classify) →
    s.pool.calls (t, .classify) = some (.returned (.ok b)) →
    ∀ u c nanos, (s.workers b).bridge.asks (u, .classify) = some c → c.phase.isDone = false →
      c.msg.conversationId = ephemeralCid nanos → nanos ≠ currentUnixNanos s.wall

theorem Attended.callsApart (hs : Attended cfg s) {t : TaskId} {r : Request} {stage : Stage}
    {b : BridgeId} {ms : Int} (fresh : s.freshReading (.checkedOut t ms))
    (hr : s.requests t = some r) (hp : r.phase = .checkout stage)
    (out : s.pool.calls (t, stage) = some (.returned (.ok b))) :
    (s.workers b).callsApart (.bridge (.call (t, stage) (message cfg s r ms stage))) := by
  intro i msg call j c hc flight
  cases call
  have speaks : r.Speaks cfg stage (message cfg s r ms stage).conversationId :=
    message_speaks s r ms stage
  by_cases fan : stage = .reply ∨ j.2 = .reply
  · exact hs.none_asks hr hp speaks (Bridge.place_of hc) flight fan
  · obtain ⟨u, stage'⟩ := j
    cases stage with
    | reply => exact absurd (.inl rfl) fan
    | classify =>
        cases stage' with
        | reply => exact absurd (.inr rfl) fan
        | classify =>
            obtain ⟨_, _, ⟨nanos, ephemeral⟩, _⟩ := hs.asked b _ c.msg c.phase (Bridge.place_of hc)
            have other := fresh t ms b rfl (by rw [hr, Option.map_some, hp]) out u c nanos hc flight
              ephemeral
            intro same
            exact other (ephemeralCid_injective (ephemeral.symm.trans same))

theorem distinct_plugin_move (hs : Attended cfg s) (hd : ∀ b, (s.workers b).bridge.Distinct)
    {a : Act} (fresh : s.freshReading a) (m : Move W cfg s a s') (b : BridgeId) :
    (s'.workers b).bridge.Distinct := by
  obtain same | ⟨op, _, nocall, hop⟩ | ⟨t, r, stage, ms, rfl, hr, hp, out, hop⟩ := m.worker_after b
  · rw [same]
    exact hd b
  · refine Worker.distinct_move (hd b) ?_ (Worker.move_of_step hop)
    exact fun i msg call => absurd call (nocall i msg)
  · exact Worker.distinct_move (hd b) (hs.callsApart fresh hr hp out) (Worker.move_of_step hop)

variable [NeZero n]

theorem cids_in_flight_unique
    (h : Transition.Reachable (step W cfg) freshReading (· = (new : Plugin n)) s) (b : BridgeId) :
    (s.workers b).bridge.Distinct ∧
    ∀ i a, (s.workers b).bridge.asks i = some a → a.phase = .checked →
      (s.workers b).bridge.pending.lookup a.msg.conversationId = none := by
  have inv : Attended cfg s ∧ ∀ b, (s.workers b).bridge.Distinct := by
    refine h.invariant (P := fun s => Attended cfg s ∧ ∀ b, (s.workers b).bridge.Distinct) ?_
      fun s a s' hs fresh hm => ?_
    · rintro _ rfl
      exact ⟨attended_new, fun _ _ _ _ _ ha => by cases ha⟩
    · have m := move_of_step hm
      exact ⟨attended_move hs.1 m, distinct_plugin_move hs.1 hs.2 fresh m⟩
  have linked := Bridge.linked_of_reachable (bridge_reachable h b)
  exact ⟨inv.2 b, fun i a ha before => Bridge.insert_key_free linked (inv.2 b) ha before⟩

def startsClassifying (t : TaskId) (fromUser : String) : List Act :=
  [.receive t fromUser "hi" none, .acquire t, .lockOwned t, .grant t, .lookupReply t,
    .classifyByAi t, .pool (.fetchAdd (t, .classify)), .pool (.readSlot (t, .classify))]

def Act.beginsAsk : Act → Bool
  | .checkedOut _ _ => true
  | _ => false

omit [NeZero n] in
theorem freshReading_of_not_beginsAsk {a : Act} (h : a.beginsAsk = false) : s.freshReading a := by
  rintro t ms b rfl
  cases h

/-- Two classifiers ask one bridge, one nanosecond after the other. -/
theorem cids_in_flight_unique_two_classifiers : ∃ s : Plugin 1,
    Transition.Reachable (step serdeJson plainCfg) freshReading (· = new) s ∧
      (s.workers 0).bridge.Distinct ∧
      ((s.workers 0).bridge.place (0, .classify)).isSome = true ∧
      ((s.workers 0).bridge.place (1, .classify)).isSome = true := by
  let classifier : Ask :=
    ⟨Bridge.inbound (ephemeralCid 0) "intent-classifier" "hi" 0, .called, .empty⟩
  obtain ⟨s₁, s₂, s₃, s₄, w, run, idle, first, tick, workers, asks, wall, second, busy⟩ :
      ∃ (s₁ s₂ s₃ s₄ : Plugin 1) (w : Worker AskId),
        Transition.exec (step serdeJson plainCfg) new
          (startsClassifying 0 "a" ++ startsClassifying 1 "b") = some s₁ ∧
        (∀ b, s₁.workers b = .new) ∧ step serdeJson plainCfg s₁ (.checkedOut 0 0) = some s₂ ∧
        step serdeJson plainCfg s₂ (.tick 1) = some s₃ ∧
        s₃.workers = Function.update (fun _ => .new) 0 w ∧
        w.bridge.asks = Function.update (fun _ => none) (0, .classify) (some classifier) ∧
        s₃.wall = 1 ∧ step serdeJson plainCfg s₃ (.checkedOut 1 0) = some s₄ ∧
        ((s₄.workers 0).bridge.place (0, .classify)).isSome = true ∧
        ((s₄.workers 0).bridge.place (1, .classify)).isSome = true :=
    ⟨_, _, _, _, _, rfl, fun _ => rfl, rfl, rfl, rfl, rfl, rfl, rfl, rfl, rfl⟩
  have begin : Transition.Run (step serdeJson plainCfg) freshReading new _ s₁ :=
    (Transition.run_iff_exec.mpr run).guard fun a ha s =>
      freshReading_of_not_beginsAsk (by revert a; decide)
  have fresh : s₁.freshReading (.checkedOut 0 0) := by
    intro t ms b _ _ _ u c nanos hc
    rw [idle b] at hc
    cases hc
  have fresh' : s₃.freshReading (.checkedOut 1 0) := by
    intro t ms b _ _ _ u c nanos hc _ ephemeral same
    have cid : c.msg.conversationId = ephemeralCid 0 := by
      by_cases hb : b = 0
      · by_cases hu : (u, Stage.classify) = (0, .classify)
        · rw [workers, hb, Function.update_self, asks, hu, Function.update_self] at hc
          exact Option.some.inj hc ▸ rfl
        · rw [workers, hb, Function.update_self, asks, Function.update_of_ne hu] at hc
          cases hc
      · rw [workers, Function.update_of_ne hb] at hc
        cases hc
    have zero := ephemeralCid_injective (ephemeral.symm.trans cid)
    rw [wall, zero] at same
    cases same
  have reached : Transition.Reachable (step serdeJson plainCfg) freshReading
      (· = (new : Plugin 1)) s₄ :=
    ⟨new, _, rfl, begin.append (.cons fresh first (.cons (freshReading_of_not_beginsAsk rfl) tick
      (.cons fresh' second (.nil s₄))))⟩
  exact ⟨s₄, reached, (cids_in_flight_unique reached 0).1, busy⟩

/-- Two classifiers read the same nanosecond; the second one replaces the first one's
sender. -/
theorem cids_in_flight_repeat : ∃ s : Plugin 1,
    Transition.Reachable (step serdeJson plainCfg) Transition.anyStep (· = new) s ∧
      ∃ a ∈ (s.workers 0).bridge.asks (0, .classify),
      ∃ b ∈ (s.workers 0).bridge.asks (1, .classify),
        a.phase.isDone = false ∧ b.phase.isDone = false ∧
        a.msg.conversationId = b.msg.conversationId ∧ a.cell = .displaced := by
  let inserts (t : TaskId) : List Act := [.checkedOut t 0,
    .worker 0 (.bridge (.checkAlive (t, .classify))), .worker 0 (.bridge (.insert (t, .classify)))]
  have run : (Transition.exec (step serdeJson plainCfg) (new : Plugin 1)
      ([.setClock 1700000000000000000] ++ startsClassifying 0 "a" ++ startsClassifying 1 "b" ++
        inserts 0 ++ inserts 1)).any
      (fun s => decide (∃ a ∈ (s.workers 0).bridge.asks (0, .classify),
        ∃ b ∈ (s.workers 0).bridge.asks (1, .classify),
          a.phase.isDone = false ∧ b.phase.isDone = false ∧
          a.msg.conversationId = b.msg.conversationId ∧ a.cell = .displaced)) = true := by
    decide +kernel
  obtain ⟨s, hrun, hs⟩ := (Option.any_eq_true _ _).mp run
  exact ⟨s, ⟨new, _, rfl, Transition.run_iff_exec.mpr hrun⟩, of_decide_eq_true hs⟩

end Plugin
end EvoclawPluginWechat
