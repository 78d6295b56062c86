import EvoclawPluginWechat.Core.Bridge
import EvoclawPluginWechat.Library.Runs

/-!
The steps of a bridge, one constructor for each branch of the source, and what every
step leaves alone.
-/
namespace EvoclawPluginWechat

/-- The ask's sender is inserted and its guard not dropped yet. -/
def AskPhase.inserted : AskPhase → Bool
  | .queued | .writing _ | .flushing | .writeFailed _ | .awaiting | .leaving _ => true
  | .called | .checked | .done _ => false

/-- The ask holds the lock of stdin. -/
def AskPhase.holdsLock : AskPhase → Bool
  | .writing _ | .flushing => true
  | _ => false

def AskPhase.isDone : AskPhase → Bool
  | .done _ => true
  | _ => false

namespace Bridge
variable {ι : Type} [DecidableEq ι]

inductive Move (W : Wire) (s : Bridge ι) : Act ι → Bridge ι → Prop
  | call {i : ι} {msg : InboundMessage} : s.asks i = none →
      Move W s (.call i msg) (s.setAsk i ⟨msg, .called, .empty⟩)
  | checkOk {i : ι} {msg : InboundMessage} {cell : Cell} :
      s.asks i = some ⟨msg, .called, cell⟩ → s.alive = true →
      Move W s (.checkAlive i) (s.setAsk i ⟨msg, .checked, cell⟩)
  | refused {i : ι} {msg : InboundMessage} {cell : Cell} {e : PluginError} :
      s.asks i = some ⟨msg, .called, cell⟩ →
      Move W s (.checkAlive i) (s.setAsk i ⟨msg, .done (some (.error e)), cell⟩)
  | insert {i : ι} {msg : InboundMessage} {cell : Cell} :
      s.asks i = some ⟨msg, .checked, cell⟩ →
      Move W s (.insert i) { (s.displace msg.conversationId i).setAsk i ⟨msg, .queued, cell⟩ with
        pending := s.pending.insert msg.conversationId i }
  | lock {i : ι} {msg : InboundMessage} {cell : Cell} :
      s.asks i = some ⟨msg, .queued, cell⟩ → s.stdinLock = none →
      Move W s (.lockStdin i)
        { s.setAsk i ⟨msg, .writing (W.serialize msg), cell⟩ with stdinLock := some i }
  | write {i : ι} {count : Nat} {msg : InboundMessage} {rest : List UInt8} {cell : Cell} :
      s.asks i = some ⟨msg, .writing rest, cell⟩ → s.broken = false →
      Move W s (.write i count) { s.setAsk i ⟨msg, .writing (rest.drop count), cell⟩ with
        received := s.received ++ rest.take count }
  | newline {i : ι} {msg : InboundMessage} {cell : Cell} :
      s.asks i = some ⟨msg, .writing [], cell⟩ → s.broken = false →
      Move W s (.writeNewline i) { s.setAsk i ⟨msg, .flushing, cell⟩ with
        received := s.received ++ [newlineByte]
        completed := s.completed ++ [i] }
  | flush {i : ι} {msg : InboundMessage} {cell : Cell} :
      s.asks i = some ⟨msg, .flushing, cell⟩ →
      Move W s (.flush i) { s.setAsk i ⟨msg, .awaiting, cell⟩ with stdinLock := none }
  | writeError {i : ι} {text : String} {msg : InboundMessage} {phase : AskPhase} {cell : Cell}
      {e : PluginError} : s.asks i = some ⟨msg, phase, cell⟩ → phase.holdsLock = true →
      s.broken = true →
      Move W s (.writeError i text) { s.setAsk i ⟨msg, .writeFailed e, cell⟩ with
        stdinLock := none }
  | markDead {i : ι} {msg : InboundMessage} {cell : Cell} {e : PluginError} :
      s.asks i = some ⟨msg, .writeFailed e, cell⟩ →
      Move W s (.markDead i) { s.setAsk i ⟨msg, .leaving (some (.error e)), cell⟩ with
        alive := false }
  | recvText {i : ι} {msg : InboundMessage} {text : String} :
      s.asks i = some ⟨msg, .awaiting, .sent text⟩ →
      Move W s (.recv i) (s.setAsk i ⟨msg, .leaving (some (.ok text)), .sent text⟩)
  | recvClosed {i : ι} {msg : InboundMessage} {cell : Cell} {e : PluginError} :
      s.asks i = some ⟨msg, .awaiting, cell⟩ → cell = .drained ∨ cell = .displaced →
      Move W s (.recv i) (s.setAsk i ⟨msg, .leaving (some (.error e)), cell⟩)
  | dropWaiting {i : ι} {msg : InboundMessage} {phase : AskPhase} {cell : Cell} :
      s.asks i = some ⟨msg, phase, cell⟩ → phase = .queued ∨ phase = .awaiting →
      Move W s (.drop i) (s.setAsk i ⟨msg, .leaving none, cell⟩)
  | dropWriting {i : ι} {msg : InboundMessage} {phase : AskPhase} {cell : Cell} :
      s.asks i = some ⟨msg, phase, cell⟩ → phase.holdsLock = true →
      Move W s (.drop i) { s.setAsk i ⟨msg, .leaving none, cell⟩ with stdinLock := none }
  | dropGuard {i : ι} {msg : InboundMessage} {cell : Cell}
      {result : Option (Except PluginError String)} :
      s.asks i = some ⟨msg, .leaving result, cell⟩ →
      Move W s (.dropGuard i)
        { (s.displace msg.conversationId i).setAsk i ⟨msg, .done result, cell⟩ with
          pending := s.pending.erase msg.conversationId }
  | readNoise {line : String} : s.reader = .reading → Move W s (.readLine line) s
  | deliver {line : String} {msg : OutboundMessage} : s.reader = .reading →
      W.decode line = some msg → Move W s (.readLine line) (s.deliver msg)
  | readerEnd : s.reader = .reading → Move W s .readerEnd { s with reader := .ended }
  | readerFlag : s.reader = .ended →
      Move W s .readerFlag { s with reader := .flagged, alive := false }
  | readerDrain : s.reader = .flagged →
      Move W s .readerDrain { s.clear with reader := .finished }
  | breakPipe : Move W s .breakPipe { s with broken := true }

theorem move_of_step {W : Wire} {s s' : Bridge ι} {a : Act ι} (h : s.step W a = some s') :
    Move W s a s' := by
  cases a with
  | call i msg =>
      simp only [step] at h
      split at h
      · next ha => cases h; exact .call ha
      · cases h
  | checkAlive i =>
      simp only [step] at h
      split at h
      · next ha =>
          split at h
          · next live => cases h; exact .checkOk ha live
          · cases h; exact .refused ha
      · cases h
  | insert i =>
      simp only [step] at h
      split at h
      · next ha => cases h; exact .insert ha
      · cases h
  | lockStdin i =>
      simp only [step] at h
      split at h
      · next ha free => cases h; exact .lock ha free
      · cases h
  | write i count =>
      simp only [step] at h
      split at h
      · next ha =>
          split at h
          · next ok => cases h; exact .write ha ok.2.2
          · cases h
      · cases h
  | writeNewline i =>
      simp only [step] at h
      split at h
      · next ha =>
          split at h
          · next ok => cases h; exact .newline ha ok
          · cases h
      · cases h
  | flush i =>
      simp only [step] at h
      split at h
      · next ha => cases h; exact .flush ha
      · cases h
  | writeError i text =>
      simp only [step] at h
      split at h
      · next broken =>
          split at h
          · next ha => cases h; exact .writeError ha rfl broken
          · next ha => cases h; exact .writeError ha rfl broken
          · next ha => cases h; exact .writeError ha rfl broken
          · cases h
      · cases h
  | markDead i =>
      simp only [step] at h
      split at h
      · next ha => cases h; exact .markDead ha
      · cases h
  | recv i =>
      simp only [step] at h
      split at h
      · next ha =>
          split at h
          · cases h
          · cases h; exact .recvText ha
          · cases h; exact .recvClosed ha (.inl rfl)
          · cases h; exact .recvClosed ha (.inr rfl)
      · cases h
  | drop i =>
      simp only [step] at h
      split at h
      · next ha => cases h; exact .dropWaiting ha (.inl rfl)
      · next ha => cases h; exact .dropWaiting ha (.inr rfl)
      · next ha => cases h; exact .dropWriting ha rfl
      · next ha => cases h; exact .dropWriting ha rfl
      · cases h
  | dropGuard i =>
      simp only [step] at h
      split at h
      · next ha => cases h; exact .dropGuard ha
      · cases h
  | readLine line =>
      simp only [step] at h
      split at h
      · next reading =>
          split at h
          · cases h; exact .readNoise reading
          · split at h
            · next hd => cases h; exact .deliver reading hd
            · cases h; exact .readNoise reading
      · cases h
  | readerEnd =>
      simp only [step] at h
      split at h
      · next hr => cases h; exact .readerEnd hr
      · cases h
  | readerFlag =>
      simp only [step] at h
      split at h
      · next hr => cases h; exact .readerFlag hr
      · cases h
  | readerDrain =>
      simp only [step] at h
      split at h
      · next hr => cases h; exact .readerDrain hr
      · cases h
  | breakPipe => cases h; exact .breakPipe

theorem setAsk_asks (s : Bridge ι) (i j : ι) (a : Ask) :
    (s.setAsk i a).asks j = if j = i then some a else s.asks j := by
  simp only [setAsk, Function.update_apply]

theorem setCell_asks (s : Bridge ι) (i j : ι) (cell : Cell) :
    (s.setCell i cell).asks j =
      if j = i then (s.asks j).map fun a => { a with cell } else s.asks j := by
  by_cases h : j = i
  · subst h
    simp [setCell]
  · simp [setCell, h]

theorem displace_eq (s : Bridge ι) (cid : String) (i : ι) :
    s.displace cid i = { s with asks := (s.displace cid i).asks } := by
  unfold displace
  split
  · split
    · rfl
    · rfl
  · rfl

theorem displace_asks (s : Bridge ι) (cid : String) (i j : ι) :
    (s.displace cid i).asks j = if s.pending.lookup cid = some j ∧ j ≠ i then
      (s.asks j).map fun a => { a with cell := .displaced } else s.asks j := by
  unfold displace
  split
  · next k hk =>
      rw [hk]
      by_cases hki : k = i
      · subst hki
        by_cases hjk : j = k
        · simp [hjk]
        · simp [show ¬ (k = j ∧ j ≠ k) from fun h => hjk h.1.symm]
      · rw [if_neg hki, setCell_asks]
        by_cases hjk : j = k
        · subst hjk
          simp [hki]
        · simp [hjk, Ne.symm hjk]
  · next hk => simp [hk]

theorem deliver_asks (s : Bridge ι) (msg : OutboundMessage) (j : ι) :
    (s.deliver msg).asks j = if s.pending.lookup msg.conversationId = some j then
      (s.asks j).map fun a => { a with cell := .sent msg.text } else s.asks j := by
  unfold deliver
  split
  · next k hk =>
      rw [hk]
      by_cases hjk : j = k
      · subst hjk
        simp [setCell_asks]
      · simp [setCell_asks, hjk, Ne.symm hjk]
  · next hk => simp [hk]

theorem deliver_lookup (s : Bridge ι) (msg : OutboundMessage) (k : String) :
    (s.deliver msg).pending.lookup k =
      if k = msg.conversationId then none else s.pending.lookup k := by
  unfold deliver
  split
  · exact Table.lookup_erase_eq _ _
  · next h =>
      split
      · next hk => rw [hk, h]
      · rfl

theorem deliver_eq (s : Bridge ι) (msg : OutboundMessage) :
    s.deliver msg =
      { s with pending := (s.deliver msg).pending, asks := (s.deliver msg).asks } := by
  unfold deliver
  split
  · rfl
  · rfl

theorem clear_asks (s : Bridge ι) (j : ι) :
    s.clear.asks j = (s.asks j).map fun a =>
      if 0 < Table.count (· == j) s.pending then { a with cell := .drained } else a := rfl

theorem count_pending_pos {s : Bridge ι} {j : ι} :
    0 < Table.count (· == j) s.pending ↔ ∃ k, s.pending.lookup k = some j := by
  rw [Table.count_pos_iff]
  constructor
  · rintro ⟨k, v, hk, hv⟩
    exact ⟨k, by rw [hk, beq_iff_eq.mp hv]⟩
  · rintro ⟨k, hk⟩
    exact ⟨k, j, hk, beq_self_eq_true j⟩

theorem not_isDone_of_holdsLock {phase : AskPhase} (h : phase.holdsLock = true) :
    phase.isDone = false := by
  cases phase <;> first | rfl | cases h

theorem inserted_of_holdsLock {phase : AskPhase} (h : phase.holdsLock = true) :
    phase.inserted = true := by
  cases phase <;> first | rfl | cases h

theorem not_isDone_of_inserted {phase : AskPhase} (h : phase.inserted = true) :
    phase.isDone = false := by
  cases phase <;> first | rfl | cases h

/-- The writes of one ask, undisturbed. -/
def writesLine (W : Wire) (i : ι) (msg : InboundMessage) : List (Act ι) :=
  [.lockStdin i, .write i (W.serialize msg).length, .writeNewline i, .flush i]

/-- The parts of an ask that the channels do not change. -/
def place (s : Bridge ι) (i : ι) : Option (InboundMessage × AskPhase) :=
  (s.asks i).map fun a => (a.msg, a.phase)

omit [DecidableEq ι] in
theorem place_of {s : Bridge ι} {i : ι} {a : Ask} (h : s.asks i = some a) :
    s.place i = some (a.msg, a.phase) := by
  rw [place, h]
  rfl

omit [DecidableEq ι] in
theorem place_eq_some {s : Bridge ι} {i : ι} {msg : InboundMessage} {phase : AskPhase} :
    s.place i = some (msg, phase) ↔ ∃ cell, s.asks i = some ⟨msg, phase, cell⟩ := by
  constructor
  · intro h
    obtain ⟨⟨_, _, cell⟩, ha, same⟩ := Option.map_eq_some_iff.mp h
    cases same
    exact ⟨cell, ha⟩
  · rintro ⟨cell, h⟩
    exact place_of h

theorem place_setAsk (s : Bridge ι) (i j : ι) (a : Ask) :
    (s.setAsk i a).place j = if j = i then some (a.msg, a.phase) else s.place j := by
  rw [place, setAsk_asks]
  split
  · rfl
  · rfl

theorem place_displace (s : Bridge ι) (cid : String) (i : ι) :
    (s.displace cid i).place = s.place := by
  funext j
  rw [place, place, displace_asks]
  split
  · cases s.asks j <;> rfl
  · rfl

theorem place_displace_setAsk (s : Bridge ι) (cid : String) (i j : ι) (a : Ask) :
    ((s.displace cid i).setAsk i a).place j =
      if j = i then some (a.msg, a.phase) else s.place j := by
  rw [place_setAsk, place_displace]

theorem place_deliver (s : Bridge ι) (msg : OutboundMessage) : (s.deliver msg).place = s.place := by
  funext j
  rw [place, place, deliver_asks]
  split
  · cases s.asks j <;> rfl
  · rfl

theorem place_clear (s : Bridge ι) : s.clear.place = s.place := by
  funext j
  rw [place, place, clear_asks]
  cases s.asks j with
  | none => rfl
  | some a =>
      simp only [Option.map_some]
      split
      · rfl
      · rfl

end Bridge
end EvoclawPluginWechat
