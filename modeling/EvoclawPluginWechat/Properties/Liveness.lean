import EvoclawPluginWechat.Properties.PendingExact

/-!
What the reader task leaves behind when it ends. Its drain catches every ask whose
sender is in `pending` by then; an ask that passed the test of `alive` earlier and
inserts its sender later is caught only by a failing write.
-/
namespace EvoclawPluginWechat

/-- After the drain an unresolved ask is short of the end of its write, on a broken pipe. -/
def Ask.Caught (broken : Bool) (a : Ask) : Prop :=
  a.phase.inserted = true → a.cell = .empty →
    broken = true ∧ a.phase ≠ .flushing ∧ a.phase ≠ .awaiting

namespace Bridge
variable {ι : Type} [DecidableEq ι]

/-- The ask has written its line and waits on a channel whose sender is in `pending`. -/
def Stranded (s : Bridge ι) (i : ι) : Prop :=
  ∃ a k, s.asks i = some a ∧ a.phase = .awaiting ∧ s.pending.lookup k = some i

def Act.isInsert : Act ι → Bool
  | .insert _ => true
  | _ => false

/-- No sender is inserted after the drain while the pipe still accepts bytes. -/
def insertsInTime (s : Bridge ι) (a : Act ι) : Prop :=
  a.isInsert = true → s.reader = .finished → s.broken = true

instance (s : Bridge ι) (a : Act ι) : Decidable (insertsInTime s a) :=
  inferInstanceAs (Decidable (_ → _ → _))

def Drained (s : Bridge ι) : Prop :=
  s.reader = .finished → ∀ i a, s.asks i = some a → a.Caught s.broken

theorem Drained.setAsk {s r t : Bridge ι} {i : ι} {a : Ask} (hs : Drained s)
    (hasks : t.asks = (r.setAsk i a).asks) (hr : t.reader = s.reader)
    (hb : t.broken = s.broken)
    (others : ∀ j b, r.asks j = some b → b.cell = .empty → s.asks j = some b)
    (own : s.reader = .finished → a.Caught s.broken) : Drained t := by
  intro finished j b hj
  rw [hr] at finished
  rw [hb]
  rw [hasks, setAsk_asks] at hj
  split at hj
  · obtain rfl := Option.some.inj hj
    exact own finished
  · intro inserted unresolved
    exact hs finished j b (others j b hj unresolved) inserted unresolved

theorem unresolved_of_displace {s : Bridge ι} {cid : String} {i : ι} (j : ι) (b : Ask)
    (hb : (s.displace cid i).asks j = some b) (unresolved : b.cell = .empty) :
    s.asks j = some b := by
  rw [displace_asks] at hb
  split at hb
  · obtain ⟨_, _, rfl⟩ := Option.map_eq_some_iff.mp hb
    cases unresolved
  · exact hb

theorem drained_clear {s : Bridge ι} (hs : Linked s) :
    Drained { s.clear with reader := .finished } := by
  intro _ j b hj inserted unresolved
  change s.clear.asks j = some b at hj
  rw [clear_asks] at hj
  obtain ⟨a, ha, rfl⟩ := Option.map_eq_some_iff.mp hj
  split at unresolved
  · cases unresolved
  · next hn =>
      rw [if_neg hn] at inserted
      have own : a.Owns a.msg.conversationId := ⟨inserted, rfl, unresolved⟩
      exact absurd (count_pending_pos.mpr ⟨_, (hs.owner _ j).mpr ⟨a, ha, own⟩⟩) hn

/-- The step lemma: the drain establishes it, and a write keeps it only by failing. -/
theorem drained_move {W : Wire} {s s' : Bridge ι} {a : Act ι} (hl : Linked s) (hs : Drained s)
    (guard : insertsInTime s a) (m : Move W s a s') : Drained s' := by
  have same : ∀ j b, s.asks j = some b → b.cell = .empty → s.asks j = some b :=
    fun _ _ h _ => h
  cases m with
  | call _ | checkOk _ _ | refused _ =>
      exact hs.setAsk rfl rfl rfl same fun _ h => by cases h
  | insert ha =>
      refine hs.setAsk rfl (by rw [displace_eq]; rfl) (by rw [displace_eq]; rfl)
        unresolved_of_displace fun finished _ _ => ?_
      exact ⟨guard rfl finished, AskPhase.noConfusion, AskPhase.noConfusion⟩
  | dropGuard ha =>
      exact hs.setAsk rfl (by rw [displace_eq]; rfl) (by rw [displace_eq]; rfl)
        unresolved_of_displace fun _ h => by cases h
  | lock ha _ | markDead ha =>
      refine hs.setAsk rfl rfl rfl same fun finished _ hc => ?_
      have old := hs finished _ _ ha rfl hc
      exact ⟨old.1, AskPhase.noConfusion, AskPhase.noConfusion⟩
  | write ha whole | newline ha whole =>
      refine hs.setAsk rfl rfl rfl same fun finished _ hc => ?_
      have old := hs finished _ _ ha rfl hc
      exact absurd (whole.symm.trans old.1) Bool.false_ne_true
  | flush ha =>
      refine hs.setAsk rfl rfl rfl same fun finished _ hc => ?_
      have old := hs finished _ _ ha rfl hc
      exact absurd rfl old.2.1
  | recvText ha | recvClosed ha _ =>
      refine hs.setAsk rfl rfl rfl same fun finished _ hc => ?_
      have old := hs finished _ _ ha rfl hc
      exact absurd rfl old.2.2
  | writeError ha hw _ | dropWriting ha hw =>
      refine hs.setAsk rfl rfl rfl same fun finished _ hc => ?_
      have old := hs finished _ _ ha (inserted_of_holdsLock hw) hc
      exact ⟨old.1, AskPhase.noConfusion, AskPhase.noConfusion⟩
  | @dropWaiting _ _ phase _ ha hp =>
      refine hs.setAsk rfl rfl rfl same fun finished _ hc => ?_
      have inserted : phase.inserted = true := by
        obtain rfl | rfl := hp <;> rfl
      have old := hs finished _ _ ha inserted hc
      exact ⟨old.1, AskPhase.noConfusion, AskPhase.noConfusion⟩
  | readNoise _ => exact hs
  | deliver reading _ =>
      intro finished
      rw [deliver_eq] at finished
      cases reading.symm.trans finished
  | readerEnd _ | readerFlag _ => exact fun finished => by cases finished
  | readerDrain _ => exact drained_clear hl
  | breakPipe =>
      intro finished j b hj inserted unresolved
      exact ⟨rfl, (hs finished j b hj inserted unresolved).2⟩

theorem drained_of_reachable {W : Wire} {s : Bridge ι}
    (h : Transition.Reachable (step W) insertsInTime (· = new) s) : Linked s ∧ Drained s := by
  refine h.invariant (P := fun s => Linked s ∧ Drained s) ?_ fun s a t hs guard hm => ?_
  · rintro _ rfl
    exact ⟨linked_new, fun finished => by cases finished⟩
  · have m := move_of_step hm
    exact ⟨linked_move hs.1 m, drained_move hs.1 hs.2 guard m⟩

theorem none_stranded {W : Wire} {s : Bridge ι}
    (h : Transition.Reachable (step W) insertsInTime (· = new) s)
    (finished : s.reader = .finished) :
    (∀ i, ¬ Stranded s i) ∧
      ∀ i a, s.asks i = some a → a.phase = .awaiting → a.cell ≠ .empty := by
  obtain ⟨hl, hs⟩ := drained_of_reachable h
  have resolved : ∀ i a, s.asks i = some a → a.phase = .awaiting → a.cell ≠ .empty := by
    intro i a ha waiting unresolved
    have inserted : a.phase.inserted = true := by rw [waiting]; rfl
    exact (hs finished i a ha inserted unresolved).2.2 waiting
  refine ⟨?_, resolved⟩
  rintro i ⟨a, k, ha, waiting, hk⟩
  obtain ⟨b, hb, own⟩ := (hl.owner k i).mp hk
  obtain rfl := Option.some.inj (ha.symm.trans hb)
  exact resolved i a ha waiting own.unresolved

theorem none_stranded_after_exit :
    ∃ s : Bridge Unit, (∃ a ∈ s.asks (), a.phase = .awaiting) ∧ ∀ i, ¬ Stranded s i := by
  let msg := inbound "wx-a" "a" "hi" 0
  have run : (Transition.execIf (step serdeJson) insertsInTime (new : Bridge Unit)
      ([.call () msg, .checkAlive (), .insert ()] ++ writesLine serdeJson () msg ++
        [.readerEnd, .readerFlag, .readerDrain])).any
      (fun s => decide (s.reader = .finished ∧ ∃ a ∈ s.asks (), a.phase = .awaiting)) = true := by
    decide +kernel
  obtain ⟨s, hrun, hs⟩ := (Option.any_eq_true _ _).mp run
  have facts := of_decide_eq_true hs
  have reached : Transition.Reachable (step serdeJson) insertsInTime (· = new) s :=
    ⟨new, _, rfl, Transition.run_of_execIf hrun⟩
  exact ⟨s, facts.2, (none_stranded reached facts.1).1⟩

/-- The ask passes the test of `alive`, the reader ends and drains, the ask inserts its
sender and writes to a pipe that still accepts bytes. -/
theorem stranded_after_drain : ∃ s : Bridge Unit,
    Transition.Reachable (step serdeJson) Transition.anyStep (· = new) s ∧
      s.reader = .finished ∧ Stranded s () := by
  let msg := inbound "wx-a" "a" "hi" 0
  have run : (Transition.exec (step serdeJson) (new : Bridge Unit)
      ([.call () msg, .checkAlive (), .readerEnd, .readerFlag, .readerDrain, .insert ()] ++
        writesLine serdeJson () msg)).any
      (fun s => decide (s.reader = .finished ∧ (∃ a ∈ s.asks (), a.phase = .awaiting) ∧
        s.pending.lookup "wx-a" = some ())) = true := by
    decide +kernel
  obtain ⟨s, hrun, hs⟩ := (Option.any_eq_true _ _).mp run
  obtain ⟨finished, ⟨a, ha, waiting⟩, kept⟩ := of_decide_eq_true hs
  exact ⟨s, ⟨new, _, rfl, Transition.run_iff_exec.mpr hrun⟩, finished, a, "wx-a", ha, waiting, kept⟩

end Bridge
end EvoclawPluginWechat
