import EvoclawPluginWechat.Properties.PendingExact

/-!
What no step of a bridge takes back: how far an ask has come, the text in its
channel, the order of the finished lines and the reason why `alive` was cleared.
-/
namespace EvoclawPluginWechat

/-- The newline of the ask's line is in the pipe, or never will be. -/
def AskPhase.pastLine : AskPhase → Bool
  | .called | .checked | .queued | .writing _ => false
  | _ => true

/-- The reader task has left its loop and cleared `alive`. -/
def ReaderPhase.closed : ReaderPhase → Bool
  | .flagged | .finished => true
  | _ => false

/-- What the ask returns, once that is settled; `none` also for a dropped future. -/
def AskPhase.result : AskPhase → Option (Except PluginError String)
  | .leaving result | .done result => result
  | _ => none

structure AskPhase.Later (p p' : AskPhase) : Prop where
  line : p.pastLine = true → p'.pastLine = true
  done : p.isDone = true → p' = p

theorem AskPhase.Later.unfinished {p p' : AskPhase} (h : p.Later p') (hd : p'.isDone = false) :
    p.isDone = false := by
  by_contra finished
  rw [Bool.not_eq_false] at finished
  rw [h.done finished, finished] at hd
  cases hd

/-- An ask keeps its message and comes further. -/
inductive Moved : Option (InboundMessage × AskPhase) → Option (InboundMessage × AskPhase) → Prop
  | absent : Moved none none
  | ask {msg : InboundMessage} {p p' : AskPhase} :
      p.Later p' → Moved (some (msg, p)) (some (msg, p'))

theorem Moved.same (x : Option (InboundMessage × AskPhase)) : Moved x x := by
  cases x with
  | none => exact .absent
  | some x => exact .ask ⟨id, fun _ => rfl⟩

namespace Bridge
variable {ι : Type} [DecidableEq ι]

theorem moved_setAsk {s t : Bridge ι} {i : ι} {msg : InboundMessage} {phase phase' : AskPhase}
    {cell : Cell} (hplace : ∀ j, t.place j = if j = i then some (msg, phase') else s.place j)
    (ha : s.asks i = some ⟨msg, phase, cell⟩) (later : phase.Later phase') (j : ι) :
    Moved (s.place j) (t.place j) := by
  rw [hplace]
  split
  · next same =>
      rw [same, place_of ha]
      exact .ask later
  · exact .same _

theorem later_of_holdsLock {p p' : AskPhase} (h : p.holdsLock = true)
    (past : p'.pastLine = true) : p.Later p' := by
  refine ⟨fun _ => past, fun hd => ?_⟩
  rw [not_isDone_of_holdsLock h] at hd
  cases hd

/-- Every step but a `call` only moves asks on. -/
theorem Move.moved {W : Wire} {s s' : Bridge ι} {a : Act ι} (m : Move W s a s') (j : ι) :
    Moved (s.place j) (s'.place j) ∨
      ∃ msg, a = .call j msg ∧ s.place j = none ∧ s'.place j = some (msg, .called) := by
  cases m with
  | @call i msg ha =>
      by_cases same : j = i
      · subst same
        refine .inr ⟨msg, rfl, ?_, ?_⟩
        · rw [place, ha]
          rfl
        · rw [place_setAsk, if_pos rfl]
      · rw [place_setAsk, if_neg same]
        exact .inl (.same _)
  | checkOk ha _ | refused ha | lock ha _ | write ha _ | newline ha _ | flush ha | markDead ha
  | recvText ha | recvClosed ha _ =>
      exact .inl (moved_setAsk (place_setAsk s _ · _) ha
        ⟨fun h => (by first | rfl | cases h), fun h => (by cases h)⟩ j)
  | insert ha | dropGuard ha =>
      exact .inl (moved_setAsk (place_displace_setAsk s _ _ · _) ha
        ⟨fun h => (by first | rfl | cases h), fun h => (by cases h)⟩ j)
  | writeError ha hl _ | dropWriting ha hl =>
      exact .inl (moved_setAsk (place_setAsk s _ · _) ha (later_of_holdsLock hl rfl) j)
  | dropWaiting ha hp =>
      refine .inl (moved_setAsk (place_setAsk s _ · _) ha ⟨fun _ => rfl, fun h => ?_⟩ j)
      obtain rfl | rfl := hp
      · cases h
      · cases h
  | readNoise _ | readerEnd _ | readerFlag _ | breakPipe => exact .inl (.same _)
  | deliver _ _ =>
      rw [place_deliver]
      exact .inl (.same _)
  | readerDrain _ =>
      change Moved (s.place j) (s.clear.place j) ∨ _
      rw [place_clear]
      exact .inl (.same _)

theorem Move.place_after {W : Wire} {s s' : Bridge ι} {a : Act ι} (m : Move W s a s') {j : ι}
    {msg : InboundMessage} {p : AskPhase} (h : s.place j = some (msg, p)) :
    ∃ p', s'.place j = some (msg, p') ∧ p.Later p' := by
  obtain moved | ⟨_, _, fresh, _⟩ := m.moved j
  · rw [h] at moved
    generalize s'.place j = after at moved
    cases moved with
    | ask later => exact ⟨_, rfl, later⟩
  · rw [h] at fresh
    cases fresh

theorem Move.place_before {W : Wire} {s s' : Bridge ι} {a : Act ι} (m : Move W s a s') {j : ι}
    {msg : InboundMessage} {p' : AskPhase} (h : s'.place j = some (msg, p')) :
    (∃ p, s.place j = some (msg, p) ∧ p.Later p') ∨
      a = .call j msg ∧ s.place j = none ∧ p' = .called := by
  obtain moved | ⟨_, rfl, fresh, started⟩ := m.moved j
  · rw [h] at moved
    generalize s.place j = before at moved
    cases moved with
    | ask later => exact .inl ⟨_, rfl, later⟩
  · rw [h] at started
    cases started
    exact .inr ⟨rfl, fresh, rfl⟩

theorem Move.ask_before {W : Wire} {s s' : Bridge ι} {a : Act ι} (m : Move W s a s') {j : ι}
    {b' : Ask} (h : s'.asks j = some b') :
    (∃ b, s.asks j = some b ∧ b'.msg = b.msg ∧ b.phase.Later b'.phase) ∨
      a = .call j b'.msg ∧ s.asks j = none ∧ b'.phase = .called := by
  obtain ⟨p, hp, later⟩ | ⟨call, fresh, called⟩ := m.place_before (place_of h)
  · obtain ⟨cell, hb⟩ := place_eq_some.mp hp
    exact .inl ⟨_, hb, rfl, later⟩
  · exact .inr ⟨call, Option.map_eq_none_iff.mp fresh, called⟩

theorem Move.completed_after {W : Wire} {s s' : Bridge ι} {a : Act ι} (m : Move W s a s') :
    s'.completed = s.completed ∨ ∃ i msg, s.place i = some (msg, .writing []) ∧
      s'.place i = some (msg, .flushing) ∧ s'.completed = s.completed ++ [i] := by
  cases m with
  | @newline i msg _ ha _ =>
      refine .inr ⟨i, msg, place_of ha, ?_, rfl⟩
      exact (place_setAsk s i i _).trans (if_pos rfl)
  | insert _ | dropGuard _ => rw [displace_eq]; exact .inl rfl
  | deliver _ _ => rw [deliver_eq]; exact .inl rfl
  | call _ | checkOk _ _ | refused _ | lock _ _ | write _ _ | flush _ | writeError _ _ _
  | markDead _ | recvText _ | recvClosed _ _ | dropWaiting _ _ | dropWriting _ _ | readNoise _
  | readerEnd _ | readerFlag _ | readerDrain _ | breakPipe => exact .inl rfl

theorem Move.completed_prefix {W : Wire} {s s' : Bridge ι} {a : Act ι} (m : Move W s a s') :
    s.completed <+: s'.completed := by
  obtain same | ⟨i, _, _, _, more⟩ := m.completed_after
  · rw [same]
  · exact ⟨[i], more.symm⟩

theorem Move.received_prefix {W : Wire} {s s' : Bridge ι} {a : Act ι} (m : Move W s a s') :
    s.received <+: s'.received := by
  cases m with
  | write _ _ | newline _ _ => exact List.prefix_append _ _
  | insert _ | dropGuard _ =>
      rw [displace_eq]
      exact List.prefix_rfl
  | deliver _ _ => rw [deliver_eq]
  | call _ | checkOk _ _ | refused _ | lock _ _ | flush _ | writeError _ _ _ | markDead _
  | recvText _ | recvClosed _ _ | dropWaiting _ _ | dropWriting _ _ | readNoise _
  | readerEnd _ | readerFlag _ | readerDrain _ | breakPipe => exact List.prefix_rfl

/-- The asks that finished their line, each of them once. -/
structure Completions (s : Bridge ι) : Prop where
  past : ∀ i ∈ s.completed, ∃ msg p, s.place i = some (msg, p) ∧ p.pastLine = true
  once : s.completed.Nodup

theorem completions_move {W : Wire} {s s' : Bridge ι} {a : Act ι} (hs : Completions s)
    (m : Move W s a s') : Completions s' := by
  have past : ∀ i ∈ s.completed, ∃ msg p, s'.place i = some (msg, p) ∧ p.pastLine = true := by
    intro i hi
    obtain ⟨msg, p, hp, line⟩ := hs.past i hi
    obtain ⟨p', hp', later⟩ := m.place_after hp
    exact ⟨msg, p', hp', later.line line⟩
  obtain same | ⟨i, msg, before, after, more⟩ := m.completed_after
  · rw [← same] at past
    exact ⟨past, same ▸ hs.once⟩
  · refine ⟨fun j hj => ?_, ?_⟩
    · rw [more] at hj
      obtain old | new := List.mem_append.mp hj
      · exact past j old
      · obtain rfl := List.mem_singleton.mp new
        exact ⟨msg, .flushing, after, rfl⟩
    · rw [more]
      refine List.nodup_append.mpr ⟨hs.once, List.nodup_singleton i, fun j hj k hk same => ?_⟩
      obtain rfl := (List.mem_singleton.mp hk).symm.trans same.symm
      obtain ⟨msg', p, hp, line⟩ := hs.past i hj
      rw [before] at hp
      cases hp
      cases line

/-- Why `alive` is false, if it is. -/
structure Flags (s : Bridge ι) : Prop where
  dead : s.alive = false → s.broken = true ∨ s.reader.closed = true
  closed : s.reader.closed = true → s.alive = false
  failed : ∀ i msg e, s.place i = some (msg, .writeFailed e) → s.broken = true

theorem Flags.setAsk {s t : Bridge ι} {i : ι} {msg : InboundMessage} {phase : AskPhase}
    (hs : Flags s) (hplace : ∀ j, t.place j = if j = i then some (msg, phase) else s.place j)
    (halive : t.alive = s.alive) (hbroken : t.broken = s.broken) (hreader : t.reader = s.reader)
    (hfailed : ∀ e, phase = .writeFailed e → s.broken = true) : Flags t := by
  refine ⟨?_, ?_, fun j msg' e hj => ?_⟩
  · rw [halive, hbroken, hreader]
    exact hs.dead
  · rw [halive, hreader]
    exact hs.closed
  · rw [hbroken]
    rw [hplace] at hj
    split at hj
    · cases hj
      exact hfailed e rfl
    · exact hs.failed j msg' e hj

theorem flags_move {W : Wire} {s s' : Bridge ι} {a : Act ι} (hs : Flags s)
    (m : Move W s a s') : Flags s' := by
  cases m with
  | call _ | checkOk _ _ | refused _ | lock _ _ | write _ _ | newline _ _ | flush _ | recvText _
  | recvClosed _ _ | dropWaiting _ _ | dropWriting _ _ =>
      exact hs.setAsk (place_setAsk s _ · _) rfl rfl rfl fun e h => by cases h
  | insert _ | dropGuard _ =>
      refine hs.setAsk (place_displace_setAsk s _ _ · _) ?_ ?_ ?_ fun e h => by cases h
      · rw [displace_eq]
        rfl
      · rw [displace_eq]
        rfl
      · rw [displace_eq]
        rfl
  | writeError _ _ broken =>
      exact hs.setAsk (place_setAsk s _ · _) rfl rfl rfl fun _ _ => broken
  | markDead ha =>
      have broken := hs.failed _ _ _ (place_of ha)
      exact ⟨fun _ => .inl broken, fun _ => rfl, fun _ _ _ _ => broken⟩
  | readNoise _ => exact hs
  | deliver _ _ =>
      refine ⟨?_, ?_, ?_⟩
      · rw [deliver_eq]
        exact hs.dead
      · rw [deliver_eq]
        exact hs.closed
      · rw [place_deliver, deliver_eq]
        exact hs.failed
  | readerEnd reading =>
      refine ⟨fun dead => ?_, fun h => (by cases h), hs.failed⟩
      obtain broken | closed := hs.dead dead
      · exact .inl broken
      · rw [reading] at closed
        cases closed
  | readerFlag _ => exact ⟨fun _ => .inr rfl, fun _ => rfl, hs.failed⟩
  | readerDrain flagged =>
      refine ⟨fun _ => .inr rfl, fun _ => hs.closed (by rw [flagged]; rfl), fun i msg e h => ?_⟩
      change s.clear.place i = _ at h
      rw [place_clear] at h
      exact hs.failed i msg e h
  | breakPipe => exact ⟨fun _ => .inl rfl, hs.closed, fun _ _ _ _ => rfl⟩

omit [DecidableEq ι] in
theorem completions_new : Completions (new : Bridge ι) :=
  ⟨fun _ h => (by cases h), List.nodup_nil⟩

omit [DecidableEq ι] in
theorem flags_new : Flags (new : Bridge ι) :=
  ⟨fun h => (by cases h), fun h => (by cases h), fun _ _ _ h => by cases h⟩

theorem Move.reading_before {W : Wire} {s s' : Bridge ι} {a : Act ι} (m : Move W s a s')
    (h : s'.reader = .reading) : s.reader = .reading := by
  cases m with
  | insert _ | dropGuard _ =>
      rw [displace_eq] at h
      exact h
  | deliver reading _ => exact reading
  | readerEnd _ | readerFlag _ | readerDrain _ => cases h
  | call _ | checkOk _ _ | refused _ | lock _ _ | write _ _ | newline _ _ | flush _
  | writeError _ _ _ | markDead _ | recvText _ | recvClosed _ _ | dropWaiting _ _
  | dropWriting _ _ | readNoise _ | breakPipe => exact h

theorem inserted_setAsk {s t : Bridge ι} {i j : ι} {msg m : InboundMessage}
    {phase phase' p' : AskPhase} {cell : Cell} (ha : s.asks i = some ⟨msg, phase, cell⟩)
    (hplace : ∀ j, t.place j = if j = i then some (msg, phase') else s.place j)
    (hi : phase'.inserted = true → phase.inserted = true) (hj : t.place j = some (m, p'))
    (h : p'.inserted = true) : ∃ p, s.place j = some (m, p) ∧ p.inserted = true := by
  rw [hplace] at hj
  split at hj
  · next same =>
      cases hj
      exact ⟨phase, same ▸ place_of ha, hi h⟩
  · exact ⟨p', hj, h⟩

theorem Move.inserted_before {W : Wire} {s s' : Bridge ι} {a : Act ι} (m : Move W s a s') {j : ι}
    {msg : InboundMessage} {p' : AskPhase} (hj : s'.place j = some (msg, p'))
    (h : p'.inserted = true) :
    (∃ p, s.place j = some (msg, p) ∧ p.inserted = true) ∨
      a = .insert j ∧ s.place j = some (msg, .checked) := by
  cases m with
  | @call i msg' ha =>
      rw [place_setAsk] at hj
      split at hj
      · cases hj
        cases h
      · exact .inl ⟨p', hj, h⟩
  | checkOk ha _ | refused ha =>
      exact .inl (inserted_setAsk ha (place_setAsk s _ · _) (fun h => by cases h) hj h)
  | lock ha _ | write ha _ | newline ha _ | flush ha | markDead ha | recvText ha
  | recvClosed ha _ =>
      exact .inl (inserted_setAsk ha (place_setAsk s _ · _) (fun _ => rfl) hj h)
  | writeError ha hl _ | dropWriting ha hl =>
      exact .inl (inserted_setAsk ha (place_setAsk s _ · _)
        (fun _ => inserted_of_holdsLock hl) hj h)
  | dropWaiting ha hp =>
      refine .inl (inserted_setAsk ha (place_setAsk s _ · _) (fun _ => ?_) hj h)
      obtain rfl | rfl := hp
      · rfl
      · rfl
  | @insert i msg' cell ha =>
      change ((s.displace msg'.conversationId i).setAsk i ⟨msg', .queued, cell⟩).place j = _ at hj
      rw [place_displace_setAsk] at hj
      split at hj
      · next same =>
          cases hj
          exact .inr ⟨same ▸ rfl, same ▸ place_of ha⟩
      · exact .inl ⟨p', hj, h⟩
  | dropGuard ha =>
      exact .inl (inserted_setAsk ha (place_displace_setAsk s _ _ · _) (fun _ => rfl) hj h)
  | readNoise _ | readerEnd _ | readerFlag _ | breakPipe => exact .inl ⟨p', hj, h⟩
  | deliver _ _ =>
      rw [place_deliver] at hj
      exact .inl ⟨p', hj, h⟩
  | readerDrain _ =>
      change s.clear.place j = _ at hj
      rw [place_clear] at hj
      exact .inl ⟨p', hj, h⟩

/-- What a step does to the channel of an ask: a sender leaves `pending` once. -/
inductive CellMove (W : Wire) (s : Bridge ι) (a : Act ι) (j : ι) : Cell → Cell → Prop
  | same (cell : Cell) : CellMove W s a j cell cell
  | displaced : CellMove W s a j .empty .displaced
  | drained : CellMove W s a j .empty .drained
  | sent {line : String} {msg : OutboundMessage} : a = .readLine line → s.reader = .reading →
      W.decode line = some msg → s.pending.lookup msg.conversationId = some j →
      CellMove W s a j .empty (.sent msg.text)

theorem cells_setAsk {W : Wire} {s t : Bridge ι} {a : Act ι} {i j : ι} {msg : InboundMessage}
    {phase phase' : AskPhase} {cell : Cell} {b : Ask} (hb : s.asks j = some b)
    (ha : s.asks i = some ⟨msg, phase, cell⟩)
    (others : ∃ b', t.asks j = some b' ∧ CellMove W s a j b.cell b'.cell) :
    ∃ b', (t.setAsk i ⟨msg, phase', cell⟩).asks j = some b' ∧ CellMove W s a j b.cell b'.cell := by
  rw [setAsk_asks]
  by_cases same : j = i
  · subst same
    rw [if_pos rfl]
    obtain rfl := Option.some.inj (ha.symm.trans hb)
    exact ⟨_, rfl, .same cell⟩
  · rw [if_neg same]
    exact others

theorem cells_displace {W : Wire} {s : Bridge ι} {a : Act ι} {cid : String} {i j : ι} {b : Ask}
    (hs : Linked s) (hb : s.asks j = some b) :
    ∃ b', (s.displace cid i).asks j = some b' ∧ CellMove W s a j b.cell b'.cell := by
  rw [displace_asks]
  split
  · next h =>
      obtain ⟨c, hc, own⟩ := (hs.owner cid j).mp h.1
      obtain rfl := Option.some.inj (hb.symm.trans hc)
      refine ⟨{ b with cell := .displaced }, by rw [hb]; rfl, ?_⟩
      rw [own.unresolved]
      exact .displaced
  · exact ⟨b, hb, .same _⟩

theorem Move.cells {W : Wire} {s s' : Bridge ι} {a : Act ι} (m : Move W s a s') (hs : Linked s)
    {j : ι} {b : Ask} (hb : s.asks j = some b) :
    ∃ b', s'.asks j = some b' ∧ CellMove W s a j b.cell b'.cell := by
  have kept : ∃ b', s.asks j = some b' ∧ CellMove W s a j b.cell b'.cell := ⟨b, hb, .same _⟩
  cases m with
  | @call i msg ha =>
      refine ⟨b, ?_, .same _⟩
      rw [setAsk_asks, if_neg, hb]
      rintro rfl
      rw [ha] at hb
      cases hb
  | checkOk ha _ | refused ha | lock ha _ | write ha _ | newline ha _ | flush ha
  | writeError ha _ _ | markDead ha | recvText ha | recvClosed ha _ | dropWaiting ha _
  | dropWriting ha _ => exact cells_setAsk hb ha kept
  | insert ha | dropGuard ha => exact cells_setAsk hb ha (cells_displace hs hb)
  | readNoise _ | readerEnd _ | readerFlag _ | breakPipe => exact kept
  | @deliver line msg reading hd =>
      rw [deliver_asks]
      split
      · next h =>
          obtain ⟨c, hc, own⟩ := (hs.owner _ j).mp h
          obtain rfl := Option.some.inj (hb.symm.trans hc)
          refine ⟨{ b with cell := .sent msg.text }, by rw [hb]; rfl, ?_⟩
          rw [own.unresolved]
          exact .sent rfl reading hd h
      · exact kept
  | readerDrain _ =>
      change ∃ b', s.clear.asks j = some b' ∧ _
      rw [clear_asks, hb]
      refine ⟨_, rfl, ?_⟩
      split
      · next h =>
          obtain ⟨k, hk⟩ := count_pending_pos.mp h
          obtain ⟨c, hc, own⟩ := (hs.owner k j).mp hk
          obtain rfl := Option.some.inj (hb.symm.trans hc)
          rw [own.unresolved]
          exact .drained
      · exact .same _

theorem result_setAsk {s t : Bridge ι} {i j : ι} {msg : InboundMessage} {phase phase' : AskPhase}
    {cell : Cell} {text : String} (ha : s.asks i = some ⟨msg, phase, cell⟩)
    (hplace : ∀ j, t.place j = if j = i then some (msg, phase') else s.place j)
    (hr : phase'.result = some (.ok text) →
      phase.result = some (.ok text) ∨ phase = .awaiting ∧ cell = .sent text)
    {m : InboundMessage} {p' : AskPhase} (hj : t.place j = some (m, p'))
    (ok : p'.result = some (.ok text)) :
    ∃ b, s.asks j = some b ∧ (b.phase.result = some (.ok text) ∨
      b.phase = .awaiting ∧ b.cell = .sent text) := by
  rw [hplace] at hj
  split at hj
  · next same =>
      subst same
      cases hj
      exact ⟨_, ha, hr ok⟩
  · obtain ⟨cell', hb⟩ := place_eq_some.mp hj
    exact ⟨_, hb, .inl ok⟩

theorem Move.result_before {W : Wire} {s s' : Bridge ι} {a : Act ι} (m : Move W s a s') {j : ι}
    {msg : InboundMessage} {p' : AskPhase} {text : String} (hj : s'.place j = some (msg, p'))
    (ok : p'.result = some (.ok text)) :
    ∃ b, s.asks j = some b ∧ (b.phase.result = some (.ok text) ∨
      b.phase = .awaiting ∧ b.cell = .sent text) := by
  have kept : s.place j = some (msg, p') → ∃ b, s.asks j = some b ∧
      (b.phase.result = some (.ok text) ∨ b.phase = .awaiting ∧ b.cell = .sent text) := by
    intro h
    obtain ⟨cell, hb⟩ := place_eq_some.mp h
    exact ⟨_, hb, .inl ok⟩
  cases m with
  | @call i msg' ha =>
      rw [place_setAsk] at hj
      split at hj
      · cases hj
        cases ok
      · exact kept hj
  | checkOk ha _ | refused ha | lock ha _ | write ha _ | newline ha _ | flush ha
  | writeError ha _ _ | markDead ha | recvClosed ha _ | dropWaiting ha _ | dropWriting ha _ =>
      exact result_setAsk ha (place_setAsk s _ · _) (fun h => by cases h) hj ok
  | recvText ha =>
      refine result_setAsk ha (place_setAsk s _ · _) (fun h => ?_) hj ok
      cases h
      exact .inr ⟨rfl, rfl⟩
  | insert ha =>
      exact result_setAsk ha (place_displace_setAsk s _ _ · _) (fun h => by cases h) hj ok
  | dropGuard ha =>
      refine result_setAsk ha (place_displace_setAsk s _ _ · _) (fun h => ?_) hj ok
      exact .inl h
  | readNoise _ | readerEnd _ | readerFlag _ | breakPipe => exact kept hj
  | deliver _ _ =>
      rw [place_deliver] at hj
      exact kept hj
  | readerDrain _ =>
      change s.clear.place j = _ at hj
      rw [place_clear] at hj
      exact kept hj

/-- An ask that returns a text found it in its channel. -/
def Returned (s : Bridge ι) : Prop :=
  ∀ i a text, s.asks i = some a → a.phase.result = some (.ok text) → a.cell = .sent text

theorem returned_move {W : Wire} {s s' : Bridge ι} {a : Act ι} (hs : Returned s) (hl : Linked s)
    (m : Move W s a s') : Returned s' := by
  intro j b' text hb' ok
  obtain ⟨b, hb, before⟩ := m.result_before (place_of hb') ok
  have sent : b.cell = .sent text := by
    obtain returned | ⟨_, sent⟩ := before
    · exact hs j b text hb returned
    · exact sent
  obtain ⟨c, hc, moved⟩ := m.cells hl hb
  obtain rfl := Option.some.inj (hb'.symm.trans hc)
  rw [sent] at moved
  generalize b'.cell = after at moved
  cases moved with
  | same => rfl

/-- What holds of every bridge, whatever the asks and the reader do. -/
structure Sound (s : Bridge ι) : Prop where
  linked : Linked s
  flags : Flags s
  completions : Completions s
  returned : Returned s

omit [DecidableEq ι] in
theorem sound_new : Sound (new : Bridge ι) :=
  ⟨linked_new, flags_new, completions_new, fun _ _ _ h => by cases h⟩

theorem sound_move {W : Wire} {s s' : Bridge ι} {a : Act ι} (hs : Sound s)
    (m : Move W s a s') : Sound s' where
  linked := linked_move hs.linked m
  flags := flags_move hs.flags m
  completions := completions_move hs.completions m
  returned := returned_move hs.returned hs.linked m

end Bridge
end EvoclawPluginWechat
