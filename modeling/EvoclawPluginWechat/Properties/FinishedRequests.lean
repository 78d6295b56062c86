import EvoclawPluginWechat.Properties.Components
import EvoclawPluginWechat.Properties.PendingExact
import EvoclawPluginWechat.Properties.RequestOwnership
import EvoclawPluginWechat.Properties.TurnExclusion

/-!
What a request leaves behind: nothing, on whatever way it came to its end. And what it may
have to wait for: a request of its own conversation.
-/
namespace EvoclawPluginWechat

namespace Bridge
variable {ι : Type} [DecidableEq ι] {W : Wire} {s s' : Bridge ι} {a : Act ι}

/-- Who has the lock of stdin is inside its write. -/
def LockHeld (s : Bridge ι) : Prop :=
  ∀ i, s.stdinLock = some i → ∃ msg p, s.place i = some (msg, p) ∧ p.holdsLock = true

theorem LockHeld.setAsk {t : Bridge ι} {i : ι} {msg : InboundMessage} {phase phase' : AskPhase}
    {cell : Cell} (hs : LockHeld s) (ha : s.asks i = some ⟨msg, phase, cell⟩)
    (hplace : ∀ j, t.place j = if j = i then some (msg, phase') else s.place j)
    (hlock : ∀ j, t.stdinLock = some j →
      j = i ∧ phase'.holdsLock = true ∨ j ≠ i ∧ s.stdinLock = some j) : LockHeld t := by
  intro j hj
  obtain ⟨rfl, holds⟩ | ⟨other, old⟩ := hlock j hj
  · exact ⟨msg, phase', (hplace j).trans (if_pos rfl), holds⟩
  · rw [hplace, if_neg other]
    exact hs j old

theorem LockHeld.keep {t : Bridge ι} {i : ι} {msg : InboundMessage} {phase phase' : AskPhase}
    {cell : Cell} (hs : LockHeld s) (ha : s.asks i = some ⟨msg, phase, cell⟩)
    (hplace : ∀ j, t.place j = if j = i then some (msg, phase') else s.place j)
    (same : phase'.holdsLock = phase.holdsLock) (hlock : t.stdinLock = s.stdinLock) :
    LockHeld t := by
  refine hs.setAsk ha hplace fun j hj => ?_
  rw [hlock] at hj
  by_cases h : j = i
  · subst h
    obtain ⟨_, _, hp, holds⟩ := hs j hj
    cases (place_of ha).symm.trans hp
    exact .inl ⟨rfl, same.trans holds⟩
  · exact .inr ⟨h, hj⟩

theorem lockHeld_move (hs : LockHeld s) (m : Move W s a s') : LockHeld s' := by
  have released : ∀ {t : Bridge ι}, t.stdinLock = none → LockHeld t := fun free i hi => by
    rw [free] at hi
    cases hi
  cases m with
  | @call i msg fresh =>
      intro j hj
      obtain ⟨msg', p, hp, holds⟩ := hs j hj
      refine ⟨msg', p, (place_setAsk s _ j _).trans ?_, holds⟩
      rw [if_neg, hp]
      rintro rfl
      rw [place, fresh] at hp
      cases hp
  | checkOk ha _ | refused ha | write ha _ | newline ha _ | markDead ha | recvText ha
  | recvClosed ha _ => exact hs.keep ha (place_setAsk s _ · _) rfl rfl
  | insert ha =>
      refine hs.keep ha (place_displace_setAsk s _ _ · _) rfl ?_
      change (s.displace _ _).stdinLock = s.stdinLock
      rw [displace_eq]
  | dropGuard ha =>
      refine hs.keep ha (place_displace_setAsk s _ _ · _) rfl ?_
      change (s.displace _ _).stdinLock = s.stdinLock
      rw [displace_eq]
  | dropWaiting ha hp =>
      obtain rfl | rfl := hp
      · exact hs.keep ha (place_setAsk s _ · _) rfl rfl
      · exact hs.keep ha (place_setAsk s _ · _) rfl rfl
  | @lock i msg cell ha free =>
      refine hs.setAsk ha (place_setAsk s _ · _) fun j hj => ?_
      obtain rfl : i = j := Option.some.inj hj
      exact .inl ⟨rfl, rfl⟩
  | flush _ | writeError _ _ _ | dropWriting _ _ => exact released rfl
  | readNoise _ | readerEnd _ | readerFlag _ | breakPipe => exact hs
  | @deliver _ msg _ _ =>
      intro j hj
      rw [place_deliver]
      rw [deliver_eq] at hj
      exact hs j hj
  | readerDrain _ =>
      intro j hj
      change ∃ msg p, s.clear.place j = some (msg, p) ∧ p.holdsLock = true
      rw [place_clear]
      exact hs j hj

theorem lockHeld_reachable {allow : Bridge ι → Act ι → Prop}
    (h : Transition.Reachable (step W) allow (· = new) s) : LockHeld s :=
  h.invariant (fun _ hs => by rintro i hi; rw [hs] at hi; cases hi)
    fun _ _ _ hs _ hm => lockHeld_move hs (move_of_step hm)

end Bridge

namespace Plugin
variable {n : Nat} {W : Wire} {cfg : HandlerCfg} {s : Plugin n} {t : TaskId} {r : Request}

/-- No lock is held for the request, no call and no ask of it is under way, and nobody waits
for it. -/
structure NothingLeft (s : Plugin n) (t : TaskId) : Prop where
  handle : s.serializer.handles.lookup t = none
  mutex : ∀ m, s.serializer.owner m ≠ some t
  call : ∀ stage ph, s.pool.calls (t, stage) = some ph → ph.stepsLeft = 0
  ask : ∀ stage b msg p, (s.workers b).bridge.place (t, stage) = some (msg, p) → p.isDone = true
  slot : ∀ stage idx, s.pool.writer idx ≠ some (t, stage)
  sender : ∀ stage b cid, (s.workers b).bridge.pending.lookup cid ≠ some (t, stage)
  stdin : ∀ stage b, (s.workers b).bridge.stdinLock ≠ some (t, stage)

theorem holds_stepsLeft {ph : CheckoutPhase n} {idx : Fin n} (h : ph.holds = some idx) :
    0 < ph.stepsLeft := by
  cases ph with
  | locked _ _ | spawning _ _ | spawnFailed _ _ => exact Nat.succ_pos _
  | _ => cases h

variable [NeZero n]

theorem finished_leaves_nothing
    (h : Transition.Reachable (step W cfg) Transition.anyStep (· = (new : Plugin n)) s)
    (hr : s.requests t = some r) (ended : r.phase.ended = true) : s.NothingLeft t := by
  have owned := owned_reachable h
  obtain ⟨payload, finished⟩ : ∃ payload, r.phase = .finished payload := by
    cases hp : r.phase with
    | finished payload => exact ⟨payload, rfl⟩
    | _ =>
        rw [hp] at ended
        cases ended
  have own := owned.by hr
  rw [finished] at own
  have handle : s.serializer.handles.lookup t = none := by
    refine Option.eq_none_iff_forall_ne_some.mpr fun k hk => ?_
    cases own.held k hk
  have call : ∀ stage ph, s.pool.calls (t, stage) = some ph → ph.stepsLeft = 0 := by
    intro stage ph hc
    by_contra left
    cases (own.called stage ph hc).2 (Nat.pos_of_ne_zero left)
  have asked : ∀ stage b msg p, (s.workers b).bridge.place (t, stage) = some (msg, p) →
      p.isDone = true := by
    intro stage b msg p hp
    by_contra flight
    cases (own.asked b stage _ hp).2 (Bool.eq_false_iff.mpr flight)
  refine ⟨handle, fun m hm => ?_, call, asked, fun stage idx hw => ?_,
    fun stage b cid hp => ?_, fun stage b hl => ?_⟩
  · have linked := (ConvSerializer.linked_reachable (serializer_reachable h)).owned m t
    obtain ⟨cid, hk⟩ := linked.mp hm
    cases handle.symm.trans hk
  · have held := (owned.locked idx (t, stage)).mp hw
    obtain ⟨ph, hc, holds⟩ := Option.bind_eq_some_iff.mp held
    have left := holds_stepsLeft holds
    have none := call stage ph hc
    omega
  · have linked := Bridge.linked_of_reachable (bridge_reachable h b)
    obtain ⟨a, ha, own⟩ := (linked.owner cid (t, stage)).mp hp
    have done := asked stage b a.msg a.phase (Bridge.place_of ha)
    rw [Bridge.not_isDone_of_inserted own.inserted] at done
    cases done
  · obtain ⟨msg, p, hp, holds⟩ := Bridge.lockHeld_reachable (bridge_reachable h b) _ hl
    have done := asked stage b msg p hp
    rw [Bridge.not_isDone_of_holdsLock holds] at done
    cases done

/-- A message whose ask timed out. -/
theorem finished_leaves_nothing_timeout : ∃ s : Plugin 1,
    Transition.exec (step serdeJson plainCfg) new
      (writesTurn serdeJson plainCfg 0 "fan" "hi" 0 ++ endsTurn 0 0 .drop) = some s ∧
      s.NothingLeft 0 := by
  have run : (Transition.exec (step serdeJson plainCfg) (new : Plugin 1)
      (writesTurn serdeJson plainCfg 0 "fan" "hi" 0 ++ endsTurn 0 0 .drop)).any
      (fun s => decide (s.requests 0 =
        some ⟨"fan", "hi", none, .finished (some (.text "busy"))⟩)) = true := by
    decide +kernel
  obtain ⟨s, hrun, hs⟩ := (Option.any_eq_true _ _).mp run
  refine ⟨s, hrun, ?_⟩
  exact finished_leaves_nothing ⟨new, _, rfl, Transition.run_iff_exec.mpr hrun⟩
    (of_decide_eq_true hs) rfl

theorem attended_reachable {allow : Plugin n → Act → Prop}
    (h : Transition.Reachable (step W cfg) allow (· = (new : Plugin n)) s) : Attended cfg s :=
  h.invariant (fun _ hs => hs ▸ attended_new)
    fun _ _ _ hs _ hm => attended_move hs (move_of_step hm)

/-- Who cannot get the mutex finds it with a request that is inside. -/
theorem owner_of_refused
    (h : Transition.Reachable (step W cfg) Transition.anyStep (· = (new : Plugin n)) s)
    (hr : s.requests t = some r) (waits : r.phase = .waiting)
    (refused : s.step W cfg (.grant t) = none) :
    ∃ m t' cid r', s.serializer.handles.lookup t = some ⟨r.cid cfg, m, .waiting⟩ ∧
      s.serializer.handles.lookup t' = some ⟨cid, m, .inside⟩ ∧
      s.requests t' = some r' ∧ r'.phase.hold = some .inside := by
  have hs := attended_reachable h
  obtain ⟨m, hm⟩ := hs.handle t r .waiting hr (by rw [waits]; rfl)
  obtain ⟨t', owner⟩ : ∃ t', s.serializer.owner m = some t' := by
    refine Option.ne_none_iff_exists'.mp fun free => ?_
    obtain ⟨fromUser, userMsg, msgId, phase⟩ := r
    cases waits
    simp [step, hr, runSerializer, ConvSerializer.step, ConvSerializer.grant, hm, free] at refused
  obtain ⟨cid, hk⟩ := (hs.linked.owned m t').mp owner
  obtain ⟨r', hr', inside⟩ := (owned_reachable h).held t' _ hk
  exact ⟨m, t', cid, r', hm, hk, hr', inside⟩

/-- A request that cannot get its mutex waits for another one of the same fan; fans do not
wait for each other. -/
theorem waits_for_own_conversation
    (h : Transition.Reachable (step W cfg) Transition.anyStep (· = (new : Plugin n)) s)
    (hr : s.requests t = some r) (waits : r.phase = .waiting)
    (refused : s.step W cfg (.grant t) = none) :
    ∃ t' r', t' ≠ t ∧ s.requests t' = some r' ∧ r'.cid cfg = r.cid cfg ∧
      r'.phase.hold = some .inside := by
  obtain ⟨m, t', cid, r', hm, hk, hr', inside⟩ := owner_of_refused h hr waits refused
  have hs := attended_reachable h
  obtain ⟨m', hk'⟩ := hs.handle t' r' .inside hr' inside
  obtain ⟨e, he, hlock⟩ := hs.linked.current t _ hm
  obtain ⟨e', he', hlock'⟩ := hs.linked.current t' _ hk
  have same : cid = r.cid cfg := hs.linked.separate _ _ e' e he' he (hlock'.trans hlock.symm)
  refine ⟨t', r', ?_, hr', ?_, inside⟩
  · rintro rfl
    cases hk.symm.trans hm
  · cases hk'.symm.trans hk
    exact same

/-- A fan sends a second message before the first one is answered. -/
theorem waits_for_own_conversation_two_messages : ∃ s : Plugin 1,
    s.step serdeJson plainCfg (.grant 1) = none ∧ ∃ t r, t ≠ 1 ∧ s.requests t = some r ∧
      r.cid plainCfg = "wx-app-fan" ∧ r.phase.hold = some .inside := by
  have run : (Transition.exec (step serdeJson plainCfg) (new : Plugin 1)
      [.receive 0 "fan" "hi" none, .acquire 0, .lockOwned 0, .grant 0,
        .receive 1 "fan" "again" none, .acquire 1, .lockOwned 1]).any
      (fun s => decide (s.requests 1 = some ⟨"fan", "again", none, .waiting⟩ ∧
        (s.step serdeJson plainCfg (.grant 1)).isNone = true)) = true := by
    decide +kernel
  obtain ⟨s, hrun, hs⟩ := (Option.any_eq_true _ _).mp run
  obtain ⟨waits, refused⟩ := of_decide_eq_true hs
  have refused := Option.isNone_iff_eq_none.mp refused
  have reached : Transition.Reachable (step serdeJson plainCfg) Transition.anyStep
      (· = (new : Plugin 1)) s := ⟨new, _, rfl, Transition.run_iff_exec.mpr hrun⟩
  obtain ⟨t, r, other, hr, cid, inside⟩ := waits_for_own_conversation reached waits rfl refused
  exact ⟨s, refused, t, r, other, hr, cid.trans (by decide +kernel), inside⟩

end Plugin
end EvoclawPluginWechat
