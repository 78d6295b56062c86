import EvoclawPluginWechat.Properties.BridgeSteps
import Mathlib.Data.Fintype.Basic

/-!
The entries of `pending` are the unresolved senders of the inserted asks, in every
run. Where no two asks in flight share a conversation id, no ask ever loses its
sender to another one, and the map is exact.
-/
namespace EvoclawPluginWechat

/-- The ask's sender belongs in `pending` under this key. -/
structure Ask.Owns (a : Ask) (k : String) : Prop where
  inserted : a.phase.inserted = true
  cid : a.msg.conversationId = k
  unresolved : a.cell = .empty

/-- The ask has inserted its sender and was neither answered nor drained since. -/
def Ask.Waits (a : Ask) : Prop :=
  a.phase.inserted = true ∧ (∀ text, a.cell ≠ .sent text) ∧ a.cell ≠ .drained

/-- Before its insertion an ask has nothing in its channel. -/
def Ask.Fresh (a : Ask) : Prop :=
  a.phase.inserted = false → a.phase.isDone = false → a.cell = .empty

namespace Bridge
variable {ι : Type} [DecidableEq ι]

theorem exists_some_owns {b : Ask} {k : String} :
    (∃ a, some b = some a ∧ a.Owns k) ↔ b.Owns k := by
  simp only [Option.some.injEq, exists_eq_left']

structure Linked (s : Bridge ι) : Prop where
  owner : ∀ k i, s.pending.lookup k = some i ↔ ∃ a, s.asks i = some a ∧ a.Owns k
  fresh : ∀ i a, s.asks i = some a → a.Fresh

omit [DecidableEq ι] in
theorem linked_new : Linked (new : Bridge ι) := by
  refine ⟨fun k i => ?_, fun i a ha => ?_⟩
  · constructor
    · intro h
      cases h
    · rintro ⟨a, ha, _⟩
      cases ha
  · cases ha

theorem Linked.rephase {s t : Bridge ι} {i : ι} {msg : InboundMessage} {phase phase' : AskPhase}
    {cell : Cell} (hs : Linked s) (hasks : t.asks = (s.setAsk i ⟨msg, phase', cell⟩).asks)
    (hp : t.pending = s.pending) (ha : s.asks i = some ⟨msg, phase, cell⟩)
    (hi : phase'.inserted = phase.inserted)
    (hf : phase'.inserted = false → phase'.isDone = false → phase.isDone = false) :
    Linked t := by
  refine ⟨fun k j => ?_, fun j b hb => ?_⟩
  · rw [hp, hasks, setAsk_asks, hs.owner k j]
    by_cases hj : j = i
    · subst hj
      rw [if_pos rfl, ha, exists_some_owns, exists_some_owns]
      constructor
      · exact fun own => ⟨hi.trans own.inserted, own.cid, own.unresolved⟩
      · exact fun own => ⟨hi.symm.trans own.inserted, own.cid, own.unresolved⟩
    · rw [if_neg hj]
  · rw [hasks, setAsk_asks] at hb
    split at hb
    · obtain rfl := Option.some.inj hb
      intro h hd
      exact hs.fresh i ⟨msg, phase, cell⟩ ha (hi.symm.trans h) (hf h hd)
    · exact hs.fresh j b hb

theorem Linked.call {s : Bridge ι} {i : ι} {msg : InboundMessage} (hs : Linked s)
    (ha : s.asks i = none) : Linked (s.setAsk i ⟨msg, .called, .empty⟩) := by
  refine ⟨fun k j => ?_, fun j b hb => ?_⟩
  · change s.pending.lookup k = some j ↔ _
    rw [setAsk_asks, hs.owner k j]
    by_cases hj : j = i
    · subst hj
      rw [if_pos rfl, ha, exists_some_owns]
      constructor
      · rintro ⟨_, h, _⟩
        cases h
      · intro own
        cases own.inserted
    · rw [if_neg hj]
  · rw [setAsk_asks] at hb
    split at hb
    · obtain rfl := Option.some.inj hb
      exact fun _ _ => rfl
    · exact hs.fresh j b hb

theorem fresh_of_cell {a : Ask} {cell : Cell} (h : a.phase.inserted = true) :
    Ask.Fresh { a with cell } := fun hn => by
  change a.phase.inserted = false at hn
  rw [h] at hn
  cases hn

theorem Linked.displace_others {s : Bridge ι} {cid : String} {i j : ι} (hs : Linked s)
    (hj : j ≠ i) {k : String} :
    (∃ a, (s.displace cid i).asks j = some a ∧ a.Owns k) ↔
      k ≠ cid ∧ s.pending.lookup k = some j := by
  rw [displace_asks, hs.owner k j]
  split
  · next h =>
      obtain ⟨a, ha, own⟩ := (hs.owner cid j).mp h.1
      rw [ha, exists_some_owns, Option.map_some, exists_some_owns]
      constructor
      · intro own'
        cases own'.unresolved
      · exact fun h => absurd (h.2.cid.symm.trans own.cid) h.1
  · next h =>
      constructor
      · rintro ⟨a, ha, own⟩
        refine ⟨fun hk => h ⟨?_, hj⟩, a, ha, own⟩
        exact (hs.owner cid j).mpr ⟨a, ha, hk ▸ own⟩
      · exact fun hk => hk.2

theorem Linked.displace_fresh {s : Bridge ι} {cid : String} {i j : ι} (hs : Linked s) {b : Ask}
    (hb : (s.displace cid i).asks j = some b) : b.Fresh := by
  rw [displace_asks] at hb
  split at hb
  · next h =>
      obtain ⟨a, ha, own⟩ := (hs.owner cid j).mp h.1
      rw [ha] at hb
      obtain rfl := Option.some.inj hb
      exact fresh_of_cell own.inserted
  · exact hs.fresh j b hb

theorem Linked.insert {s : Bridge ι} {i : ι} {msg : InboundMessage} {cell : Cell}
    (hs : Linked s) (ha : s.asks i = some ⟨msg, .checked, cell⟩) :
    Linked { (s.displace msg.conversationId i).setAsk i ⟨msg, .queued, cell⟩ with
      pending := s.pending.insert msg.conversationId i } := by
  obtain rfl : cell = .empty := hs.fresh i _ ha rfl rfl
  refine ⟨fun k j => ?_, fun j b hb => ?_⟩
  · change (s.pending.insert msg.conversationId i).lookup k = some j ↔
      ∃ a, ((s.displace msg.conversationId i).setAsk i ⟨msg, .queued, .empty⟩).asks j = some a ∧
        a.Owns k
    rw [Table.lookup_insert_eq, setAsk_asks]
    by_cases hj : j = i
    · subst hj
      rw [if_pos rfl, exists_some_owns]
      by_cases hk : k = msg.conversationId
      · subst hk
        rw [if_pos rfl]
        exact ⟨fun _ => ⟨rfl, rfl, rfl⟩, fun _ => rfl⟩
      · rw [if_neg hk, hs.owner k j, ha, exists_some_owns]
        constructor
        · intro own
          cases own.inserted
        · exact fun own => absurd own.cid.symm hk
    · rw [if_neg hj, hs.displace_others hj]
      by_cases hk : k = msg.conversationId
      · simp [hk, Ne.symm hj]
      · simp [hk]
  · change ((s.displace msg.conversationId i).setAsk i ⟨msg, .queued, .empty⟩).asks j = some b
      at hb
    rw [setAsk_asks] at hb
    split at hb
    · obtain rfl := Option.some.inj hb
      exact fun _ _ => rfl
    · exact hs.displace_fresh hb

theorem Linked.dropGuard {s : Bridge ι} {i : ι} {msg : InboundMessage} {cell : Cell}
    {result : Option (Except PluginError String)} (hs : Linked s)
    (ha : s.asks i = some ⟨msg, .leaving result, cell⟩) :
    Linked { (s.displace msg.conversationId i).setAsk i ⟨msg, .done result, cell⟩ with
      pending := s.pending.erase msg.conversationId } := by
  refine ⟨fun k j => ?_, fun j b hb => ?_⟩
  · change (s.pending.erase msg.conversationId).lookup k = some j ↔
      ∃ a, ((s.displace msg.conversationId i).setAsk i ⟨msg, .done result, cell⟩).asks j = some a ∧
        a.Owns k
    rw [Table.lookup_erase_eq, setAsk_asks]
    by_cases hj : j = i
    · subst hj
      rw [if_pos rfl, exists_some_owns]
      have gone : ¬ Ask.Owns ⟨msg, .done result, cell⟩ k := by
        intro own
        cases own.inserted
      have other : k ≠ msg.conversationId → s.pending.lookup k ≠ some j := by
        intro hk h
        obtain ⟨a, ha', own⟩ := (hs.owner k j).mp h
        obtain rfl := Option.some.inj (ha.symm.trans ha')
        exact hk own.cid.symm
      by_cases hk : k = msg.conversationId
      · rw [if_pos hk]
        exact ⟨fun h => (by cases h), fun own => absurd own gone⟩
      · rw [if_neg hk]
        exact ⟨fun h => absurd h (other hk), fun own => absurd own gone⟩
    · rw [if_neg hj, hs.displace_others hj]
      by_cases hk : k = msg.conversationId
      · simp [hk]
      · simp [hk]
  · change ((s.displace msg.conversationId i).setAsk i ⟨msg, .done result, cell⟩).asks j = some b
      at hb
    rw [setAsk_asks] at hb
    split at hb
    · obtain rfl := Option.some.inj hb
      exact fun _ hd => by cases hd
    · exact hs.displace_fresh hb

theorem Linked.deliver {s : Bridge ι} (hs : Linked s) (msg : OutboundMessage) :
    Linked (s.deliver msg) := by
  refine ⟨fun k j => ?_, fun j b hb => ?_⟩
  · rw [deliver_lookup, deliver_asks]
    split
    · next hk =>
        subst hk
        refine ⟨fun h => (by cases h), ?_⟩
        rintro ⟨a, ha, own⟩
        split at ha
        · obtain ⟨_, _, rfl⟩ := Option.map_eq_some_iff.mp ha
          cases own.unresolved
        · next hn => exact absurd ((hs.owner _ j).mpr ⟨a, ha, own⟩) hn
    · next hk =>
        split
        · next h =>
            obtain ⟨a, ha, own⟩ := (hs.owner _ j).mp h
            rw [hs.owner k j, ha, exists_some_owns, Option.map_some, exists_some_owns]
            constructor
            · exact fun own' => absurd (own'.cid.symm.trans own.cid) hk
            · intro own'
              cases own'.unresolved
        · exact hs.owner k j
  · rw [deliver_asks] at hb
    split at hb
    · next h =>
        obtain ⟨a, ha, own⟩ := (hs.owner _ j).mp h
        rw [ha] at hb
        obtain rfl := Option.some.inj hb
        exact fresh_of_cell own.inserted
    · exact hs.fresh j b hb

theorem Linked.clear {s : Bridge ι} (hs : Linked s) : Linked s.clear := by
  refine ⟨fun k j => ?_, fun j b hb => ?_⟩
  · constructor
    · intro h
      cases h
    · rw [clear_asks]
      rintro ⟨a, ha, own⟩
      obtain ⟨c, hc, rfl⟩ := Option.map_eq_some_iff.mp ha
      split at own
      · cases own.unresolved
      · next hn => exact absurd (count_pending_pos.mpr ⟨k, (hs.owner k j).mpr ⟨c, hc, own⟩⟩) hn
  · rw [clear_asks] at hb
    obtain ⟨c, hc, rfl⟩ := Option.map_eq_some_iff.mp hb
    split
    · next h =>
        obtain ⟨k, hk⟩ := count_pending_pos.mp h
        obtain ⟨a, ha, own⟩ := (hs.owner k j).mp hk
        obtain rfl := Option.some.inj (hc.symm.trans ha)
        exact fresh_of_cell own.inserted
    · exact hs.fresh j c hc

/-- The step lemma of the pending map. -/
theorem linked_move {W : Wire} {s s' : Bridge ι} {a : Act ι} (hs : Linked s)
    (m : Move W s a s') : Linked s' := by
  cases m with
  | call ha => exact hs.call ha
  | checkOk ha _ | lock ha _ | write ha _ | newline ha _ | flush ha | markDead ha | recvText ha
  | recvClosed ha _ => exact hs.rephase rfl rfl ha rfl fun _ _ => rfl
  | refused ha => exact hs.rephase rfl rfl ha rfl fun _ hd => by cases hd
  | writeError ha hl _ | dropWriting ha hl =>
      refine hs.rephase rfl rfl ha (inserted_of_holdsLock hl).symm fun _ _ => ?_
      exact not_isDone_of_holdsLock hl
  | dropWaiting ha hp =>
      obtain rfl | rfl := hp
      · exact hs.rephase rfl rfl ha rfl fun _ _ => rfl
      · exact hs.rephase rfl rfl ha rfl fun _ _ => rfl
  | insert ha => exact hs.insert ha
  | dropGuard ha => exact hs.dropGuard ha
  | readNoise _ => exact hs
  | deliver _ _ => exact hs.deliver _
  | readerEnd _ | readerFlag _ | breakPipe => exact ⟨hs.owner, hs.fresh⟩
  | readerDrain _ => exact ⟨hs.clear.owner, hs.clear.fresh⟩

theorem linked_of_reachable {W : Wire} {allow : Bridge ι → Act ι → Prop} {s : Bridge ι}
    (h : Transition.Reachable (step W) allow (· = new) s) : Linked s :=
  h.invariant (fun _ hs => hs ▸ linked_new) fun _ _ _ hs _ hm => linked_move hs (move_of_step hm)

/-- No two asks in flight share a conversation id. -/
def Distinct (s : Bridge ι) : Prop :=
  ∀ i j, i ≠ j → ∀ a ∈ s.asks i, ∀ b ∈ s.asks j, a.phase.isDone = false →
    b.phase.isDone = false → a.msg.conversationId ≠ b.msg.conversationId

def staysDistinct (W : Wire) (s : Bridge ι) (a : Act ι) : Prop :=
  ∀ t ∈ s.step W a, t.Distinct

theorem setAsk_asks_congr {s t : Bridge ι} {i : ι} {a : Ask} (h : t.asks = s.asks) :
    (t.setAsk i a).asks = (s.setAsk i a).asks := by
  simp only [setAsk, h]

/-- No ask in flight lost its sender to another ask. -/
def Undisplaced (s : Bridge ι) : Prop :=
  ∀ i a, s.asks i = some a → a.phase.isDone = false → a.cell ≠ .displaced

/-- While conversation ids in flight are distinct, `displace` finds no other ask. -/
theorem Distinct.displace_asks_eq {s : Bridge ι} {i : ι} {a : Ask} (hd : s.Distinct)
    (hs : Linked s) (ha : s.asks i = some a) (open' : a.phase.isDone = false) :
    (s.displace a.msg.conversationId i).asks = s.asks := by
  funext j
  rw [displace_asks, if_neg]
  rintro ⟨h, hj⟩
  obtain ⟨b, hb, own⟩ := (hs.owner _ j).mp h
  exact hd i j (Ne.symm hj) a ha b hb open' (not_isDone_of_inserted own.inserted) own.cid.symm

theorem undisplaced_setAsk {s t : Bridge ι} {i : ι} {msg : InboundMessage}
    {phase phase' : AskPhase} {cell : Cell} (hasks : t.asks = (s.setAsk i ⟨msg, phase', cell⟩).asks)
    (hu : Undisplaced s) (ha : s.asks i = some ⟨msg, phase, cell⟩)
    (unfinished : phase.isDone = false) : Undisplaced t := by
  intro j b hb hd
  rw [hasks, setAsk_asks] at hb
  split at hb
  · obtain rfl := Option.some.inj hb
    exact hu i ⟨msg, phase, cell⟩ ha unfinished
  · exact hu j b hb hd

omit [DecidableEq ι] in
theorem undisplaced_cells {s t : Bridge ι} (p : ι → Bool) {cell : Cell} (hc : cell ≠ .displaced)
    (hasks : ∀ j, t.asks j = (s.asks j).map fun a => if p j then { a with cell } else a)
    (hu : Undisplaced s) : Undisplaced t := by
  intro j b hb hd
  rw [hasks] at hb
  obtain ⟨a, ha, rfl⟩ := Option.map_eq_some_iff.mp hb
  by_cases hp : p j
  · simp only [hp, if_true]
    exact hc
  · simp only [hp] at hd ⊢
    exact hu j a ha hd

theorem undisplaced_move {W : Wire} {s s' : Bridge ι} {a : Act ι} (hs : Linked s)
    (hd : s.Distinct) (hu : Undisplaced s) (m : Move W s a s') : Undisplaced s' := by
  cases m with
  | @call i msg ha =>
      intro j b hb hdone
      rw [setAsk_asks] at hb
      split at hb
      · obtain rfl := Option.some.inj hb
        exact fun h => by cases h
      · exact hu j b hb hdone
  | checkOk ha _ | refused ha | lock ha _ | write ha _ | newline ha _ | flush ha | markDead ha
  | recvText ha | recvClosed ha _ => exact undisplaced_setAsk rfl hu ha rfl
  | writeError ha hl _ | dropWriting ha hl =>
      exact undisplaced_setAsk rfl hu ha (not_isDone_of_holdsLock hl)
  | dropWaiting ha hp =>
      obtain rfl | rfl := hp
      · exact undisplaced_setAsk rfl hu ha rfl
      · exact undisplaced_setAsk rfl hu ha rfl
  | insert ha | dropGuard ha =>
      exact undisplaced_setAsk (setAsk_asks_congr (hd.displace_asks_eq hs ha rfl)) hu ha rfl
  | readNoise _ => exact hu
  | readerEnd _ | readerFlag _ | breakPipe => exact hu
  | @deliver line msg _ _ =>
      have sent : Cell.sent msg.text ≠ .displaced := fun h => by cases h
      refine undisplaced_cells (fun j => s.pending.lookup msg.conversationId == some j) sent
        (fun j => ?_) hu
      rw [deliver_asks]
      by_cases h : s.pending.lookup msg.conversationId = some j
      · simp [h]
      · simp [h]
  | readerDrain _ =>
      have drained : Cell.drained ≠ .displaced := fun h => by cases h
      refine undisplaced_cells (fun j => decide (0 < Table.count (· == j) s.pending)) drained
        (fun j => ?_) hu
      change s.clear.asks j = _
      simp only [clear_asks, decide_eq_true_eq]

section Exactness
variable {W : Wire} {s : Bridge ι}

theorem undisplaced_of_reachable
    (h : Transition.Reachable (step W) (staysDistinct W) (· = new) s) :
    s.Distinct ∧ Undisplaced s := by
  have inv : Linked s ∧ s.Distinct ∧ Undisplaced s := by
    refine h.invariant (P := fun s => Linked s ∧ s.Distinct ∧ Undisplaced s) ?_
      fun s a t hs guard hm => ?_
    · rintro _ rfl
      refine ⟨linked_new, fun i j _ a ha => ?_, fun i a ha => ?_⟩
      · cases ha
      · cases ha
    · have m := move_of_step hm
      exact ⟨linked_move hs.1 m, guard t hm, undisplaced_move hs.1 hs.2.1 hs.2.2 m⟩
  exact inv.2

omit [DecidableEq ι] in
theorem Linked.key_iff (hs : Linked s) (hu : Undisplaced s) (k : String) :
    k ∈ s.pending ↔ ∃ i a, s.asks i = some a ∧ a.Waits ∧ a.msg.conversationId = k := by
  rw [← AList.lookup_isSome, Option.isSome_iff_exists]
  constructor
  · rintro ⟨i, hi⟩
    obtain ⟨a, ha, own⟩ := (hs.owner k i).mp hi
    refine ⟨i, a, ha, ⟨own.inserted, fun text h => ?_, fun h => ?_⟩, own.cid⟩
    · cases own.unresolved.symm.trans h
    · cases own.unresolved.symm.trans h
  · rintro ⟨i, a, ha, ⟨inserted, unanswered, undrained⟩, cid⟩
    refine ⟨i, (hs.owner k i).mpr ⟨a, ha, inserted, cid, ?_⟩⟩
    have kept := hu i a ha (not_isDone_of_inserted inserted)
    cases hc : a.cell with
    | empty => rfl
    | sent text => exact absurd hc (unanswered text)
    | drained => exact absurd hc undrained
    | displaced => exact absurd hc kept

omit [DecidableEq ι] in
theorem Linked.pending_empty (hs : Linked s)
    (idle : ∀ i a, s.asks i = some a → a.phase.isDone = true) : s.pending = ∅ := by
  refine Table.eq_empty_iff.mpr fun k => Option.eq_none_iff_forall_not_mem.mpr fun i hi => ?_
  obtain ⟨a, ha, own⟩ := (hs.owner k i).mp hi
  have := not_isDone_of_inserted own.inserted
  rw [idle i a ha] at this
  cases this

theorem Linked.dropGuard_keeps (hs : Linked s) (hd : s.Distinct) {i j : ι} {s' : Bridge ι}
    {k : String} (hm : s.step W (.dropGuard i) = some s') (hj : j ≠ i)
    (hk : s.pending.lookup k = some j) : s'.pending.lookup k = some j := by
  cases move_of_step hm with
  | @dropGuard i msg cell result ha =>
      change (s.pending.erase msg.conversationId).lookup k = some j
      rw [Table.lookup_erase_eq, if_neg, hk]
      intro same
      obtain ⟨b, hb, own⟩ := (hs.owner k j).mp hk
      exact hd i j (Ne.symm hj) _ ha b hb rfl (not_isDone_of_inserted own.inserted)
        (same.symm.trans own.cid.symm)

theorem readLine_resolves_one {line : String} {s' : Bridge ι}
    (hm : s.step W (.readLine line) = some s') {i j : ι} (hi : s'.asks i ≠ s.asks i)
    (hj : s'.asks j ≠ s.asks j) : i = j := by
  cases move_of_step hm with
  | readNoise _ => exact absurd rfl hi
  | @deliver _ msg _ _ =>
      have owner : ∀ l, (s.deliver msg).asks l ≠ s.asks l →
          s.pending.lookup msg.conversationId = some l := by
        intro l hl
        rw [deliver_asks] at hl
        split at hl
        · next h => exact h
        · exact absurd rfl hl
      exact Option.some.inj ((owner i hi).symm.trans (owner j hj))

theorem pending_exact (h : Transition.Reachable (step W) (staysDistinct W) (· = new) s) :
    (∀ k, k ∈ s.pending ↔
      ∃ i a, s.asks i = some a ∧ a.Waits ∧ a.msg.conversationId = k) ∧
    ((∀ i a, s.asks i = some a → a.phase.isDone = true) → s.pending = ∅) ∧
    (∀ i s', s.step W (.dropGuard i) = some s' → ∀ j k, j ≠ i →
      s.pending.lookup k = some j → s'.pending.lookup k = some j) ∧
    (∀ line s', s.step W (.readLine line) = some s' → ∀ i j,
      s'.asks i ≠ s.asks i → s'.asks j ≠ s.asks j → i = j) := by
  have hs := linked_of_reachable h
  obtain ⟨hd, hu⟩ := undisplaced_of_reachable h
  refine ⟨hs.key_iff hu, hs.pending_empty, fun i s' hm j k hj hk => ?_,
    fun line s' hm i j hi hj => ?_⟩
  · exact hs.dropGuard_keeps hd hm hj hk
  · exact readLine_resolves_one hm hi hj

end Exactness

instance [Fintype ι] (s : Bridge ι) : Decidable s.Distinct :=
  inferInstanceAs (Decidable (∀ i j, i ≠ j → ∀ a ∈ s.asks i, ∀ b ∈ s.asks j,
    a.phase.isDone = false → b.phase.isDone = false →
      a.msg.conversationId ≠ b.msg.conversationId))

instance [Fintype ι] (W : Wire) (s : Bridge ι) (a : Act ι) : Decidable (staysDistinct W s a) :=
  inferInstanceAs (Decidable (∀ t ∈ s.step W a, t.Distinct))

/-- Two asks; the first is answered, the second cut off before its guard runs. -/
theorem pending_exact_two_asks : ∃ s : Bridge Bool,
    Transition.Reachable (step serdeJson) (staysDistinct serdeJson) (· = new) s ∧
      "wx-b" ∈ s.pending ∧ ∃ i a, s.asks i = some a ∧ a.Waits ∧
        a.msg.conversationId = "wx-b" := by
  obtain ⟨s, hrun, hkey⟩ : ∃ s : Bridge Bool,
      Transition.execIf (step serdeJson) (staysDistinct serdeJson) new
        [.call false (inbound "wx-a" "a" "hi" 0), .checkAlive false, .insert false,
          .call true (inbound "wx-b" "b" "hi" 1), .checkAlive true, .insert true, .drop true,
          .readLine "\x7b\"conversation_id\":\"wx-a\",\"text\":\"hello\"\x7d"] = some s ∧
      s.pending.keys = ["wx-b"] := ⟨_, rfl, by decide⟩
  have reached : Transition.Reachable (step serdeJson) (staysDistinct serdeJson) (· = new) s :=
    ⟨new, _, rfl, Transition.run_of_execIf hrun⟩
  have key : "wx-b" ∈ s.pending := by
    rw [AList.mem_keys, hkey]
    exact List.mem_singleton_self _
  exact ⟨s, reached, key, ((pending_exact reached).1 "wx-b").mp key⟩

end Bridge
end EvoclawPluginWechat
