import EvoclawPluginWechat.Properties.BridgeHistory

/-!
The stream that a subprocess reads on stdin. While a bridge is alive its complete
lines are the messages of the asks that finished their line, in order, as long as no
ask is cut off with part of its line in the pipe.
-/
namespace EvoclawPluginWechat
open Framing

namespace Bridge
variable {ι : Type} [DecidableEq ι]

/-- The ask is inside its write and part of its line is in the pipe. -/
def midLine (W : Wire) (s : Bridge ι) (i : ι) : Bool :=
  match s.place i with
  | some (msg, .writing rest) => rest != W.serialize msg
  | _ => false

def Act.dropped : Act ι → Option ι
  | .drop i => some i
  | _ => none

/-- On a usable pipe no ask is dropped in the middle of its line. -/
def dropsWhole (W : Wire) (s : Bridge ι) (a : Act ι) : Prop :=
  ∀ i ∈ a.dropped, s.alive = true → s.broken = false → s.midLine W i = false

/-- The line is the serialized message of the ask. -/
def IsLine (W : Wire) (s : Bridge ι) (line : List UInt8) (i : ι) : Prop :=
  ∃ msg phase, s.place i = some (msg, phase) ∧ line = W.serialize msg

def Writing (s : Bridge ι) (i : ι) (msg : InboundMessage) (unsent : List UInt8) : Prop :=
  s.place i = some (msg, .writing unsent)

/-- The unfinished line in the pipe is the part the writing ask has written. -/
structure Partial (W : Wire) (s : Bridge ι) : Prop where
  writing : ∀ i msg unsent, s.Writing i msg unsent →
    W.serialize msg = rest newlineByte s.received ++ unsent
  idle : (∀ i msg unsent, ¬ s.Writing i msg unsent) → rest newlineByte s.received = []

/-- The lines in the pipe, until the reader task closes the bridge. -/
structure Framed (W : Wire) (s : Bridge ι) : Prop where
  holder : ∀ i msg phase, s.place i = some (msg, phase) → phase.holdsLock = true →
    s.stdinLock = some i
  lines : s.reader.closed = false →
    List.Forall₂ (s.IsLine W) (frames newlineByte s.received) s.completed
  unfinished : s.reader.closed = false → s.broken = false → Partial W s

omit [DecidableEq ι] in
theorem framed_new (W : Wire) : Framed W (new : Bridge ι) := by
  refine ⟨fun i msg phase h => ?_, fun _ => ?_, fun _ _ => ⟨fun i msg unsent h => ?_, fun _ => ?_⟩⟩
  · cases h
  · exact List.Forall₂.nil
  · cases h
  · rfl

omit [DecidableEq ι] in
theorem Framed.same {W : Wire} {s t : Bridge ι} (hs : Framed W s) (hplace : t.place = s.place)
    (hlock : t.stdinLock = s.stdinLock)
    (hreader : t.reader.closed = false → s.reader.closed = false)
    (hbroken : t.broken = false → s.broken = false) (hreceived : t.received = s.received)
    (hcompleted : t.completed = s.completed) : Framed W t := by
  refine ⟨?_, fun listening => ?_, fun listening usable => ?_⟩
  · rw [hplace, hlock]
    exact hs.holder
  · have lines := hs.lines (hreader listening)
    rw [hreceived, hcompleted]
    exact lines.imp fun line i h => by
      unfold IsLine
      rw [hplace]
      exact h
  · have old := hs.unfinished (hreader listening) (hbroken usable)
    refine ⟨?_, ?_⟩
    · unfold Writing
      rw [hplace, hreceived]
      exact old.writing
    · unfold Writing
      rw [hplace, hreceived]
      exact old.idle

theorem IsLine.after {W : Wire} {s s' : Bridge ι} {a : Act ι} {j : ι} {line : List UInt8}
    (m : Move W s a s') (h : s.IsLine W line j) : s'.IsLine W line j := by
  obtain ⟨msg, p, hj, rfl⟩ := h
  obtain ⟨p', hj', _⟩ := m.place_after hj
  exact ⟨msg, p', hj', rfl⟩

theorem Framed.setAsk {W : Wire} {s t : Bridge ι} {i : ι} {msg : InboundMessage}
    {phase : AskPhase} (hs : Framed W s)
    (hplace : ∀ j, t.place j = if j = i then some (msg, phase) else s.place j)
    (hline : ∀ line j, s.IsLine W line j → t.IsLine W line j)
    (hold : phase.holdsLock = true → t.stdinLock = some i)
    (hothers : ∀ j, j ≠ i → s.stdinLock = some j → t.stdinLock = some j)
    (hreader : t.reader = s.reader)
    (hframes : s.reader.closed = false →
      frames newlineByte t.received = frames newlineByte s.received)
    (hcompleted : t.completed = s.completed)
    (hunfinished : s.reader.closed = false → t.broken = false → Partial W t) : Framed W t := by
  refine ⟨fun j msg' phase' hj holds => ?_, fun listening => ?_, fun listening => ?_⟩
  · rw [hplace] at hj
    split at hj
    · next same =>
        subst same
        cases hj
        exact hold holds
    · next other => exact hothers j other (hs.holder j msg' phase' hj holds)
  · rw [hreader] at listening
    rw [hframes listening, hcompleted]
    exact (hs.lines listening).imp hline
  · rw [hreader] at listening
    exact hunfinished listening

theorem Partial.setAsk {W : Wire} {s t : Bridge ι} {i : ι} {msg : InboundMessage}
    {phase : AskPhase} (hs : Partial W s)
    (hplace : ∀ j, t.place j = if j = i then some (msg, phase) else s.place j)
    (before : ∀ msg unsent, ¬ s.Writing i msg unsent) (after : phase.holdsLock = false)
    (hreceived : t.received = s.received) : Partial W t := by
  have other : ∀ j msg' unsent, t.Writing j msg' unsent → s.Writing j msg' unsent := by
    intro j msg' unsent h
    unfold Writing at h
    rw [hplace] at h
    split at h
    · cases h
      cases after
    · exact h
  refine ⟨fun j msg' unsent h => ?_, fun none' => ?_⟩
  · rw [hreceived]
    exact hs.writing j msg' unsent (other j msg' unsent h)
  · rw [hreceived]
    refine hs.idle fun j msg' unsent h => ?_
    by_cases same : j = i
    · subst same
      exact before msg' unsent h
    · refine none' j msg' unsent ?_
      unfold Writing
      rw [hplace, if_neg same]
      exact h

section Moves
variable {W : Wire} {s t : Bridge ι} {i : ι} {msg : InboundMessage} {phase phase' : AskPhase}
  {cell : Cell}

omit [DecidableEq ι] in
theorem not_writing (ha : s.asks i = some ⟨msg, phase, cell⟩)
    (hw : ∀ unsent, phase ≠ .writing unsent) (msg₀ : InboundMessage) (unsent : List UInt8) :
    ¬ s.Writing i msg₀ unsent := by
  intro h
  rw [Writing, place_of ha] at h
  cases h
  exact hw unsent rfl

theorem Framed.quiet (hs : Framed W s) (ha : s.asks i = some ⟨msg, phase, cell⟩)
    (hplace : ∀ j, t.place j = if j = i then some (msg, phase') else s.place j)
    (hline : ∀ line j, s.IsLine W line j → t.IsLine W line j)
    (hw : ∀ unsent, phase ≠ .writing unsent) (after : phase'.holdsLock = false)
    (hlock : ∀ j, j ≠ i → s.stdinLock = some j → t.stdinLock = some j)
    (hreader : t.reader = s.reader) (hbroken : t.broken = s.broken)
    (hreceived : t.received = s.received) (hcompleted : t.completed = s.completed) :
    Framed W t := by
  refine hs.setAsk hplace hline (fun h => ?_) hlock hreader (fun _ => ?_) hcompleted
    fun listening usable => ?_
  · rw [after] at h
    cases h
  · rw [hreceived]
  · have old := hs.unfinished listening (hbroken ▸ usable)
    exact old.setAsk hplace (not_writing ha hw) after hreceived

omit [DecidableEq ι] in
theorem Framed.other_holder {j : ι} (hs : Framed W s)
    (ha : s.asks i = some ⟨msg, phase, cell⟩) (hl : phase.holdsLock = true) (hj : j ≠ i) :
    s.stdinLock ≠ some j := by
  intro h
  have mine := hs.holder i msg phase (place_of ha) hl
  exact hj (Option.some.inj (h.symm.trans mine))

omit [DecidableEq ι] in
theorem Framed.other_writing {j : ι} {msg' : InboundMessage} {unsent : List UInt8}
    (hs : Framed W s) (ha : s.asks i = some ⟨msg, phase, cell⟩) (hl : phase.holdsLock = true)
    (hj : j ≠ i) : ¬ s.Writing j msg' unsent := by
  intro h
  exact hs.other_holder ha hl hj (hs.holder j msg' _ h rfl)

theorem framed_call (hs : Framed W s) (ha : s.asks i = none)
    (hline : ∀ line j, s.IsLine W line j → (s.setAsk i ⟨msg, .called, .empty⟩).IsLine W line j) :
    Framed W (s.setAsk i ⟨msg, .called, .empty⟩) := by
  have absent : s.place i = none := by
    rw [place, ha]
    rfl
  refine hs.setAsk (place_setAsk s i · _) hline (fun h => ?_) (fun _ _ h => h) rfl (fun _ => rfl)
    rfl fun listening usable => ?_
  · cases h
  · refine (hs.unfinished listening usable).setAsk (place_setAsk s i · _) (fun msg₀ unsent h => ?_)
      rfl rfl
    rw [Writing, absent] at h
    cases h

theorem framed_lock (hs : Framed W s) (free : s.stdinLock = none) (hplace : ∀ j, t.place j =
      if j = i then some (msg, .writing (W.serialize msg)) else s.place j)
    (hline : ∀ line j, s.IsLine W line j → t.IsLine W line j) (hlock : t.stdinLock = some i)
    (hreader : t.reader = s.reader) (hbroken : t.broken = s.broken)
    (hreceived : t.received = s.received) (hcompleted : t.completed = s.completed) :
    Framed W t := by
  have nobody : ∀ j msg₀ unsent, ¬ s.Writing j msg₀ unsent := by
    intro j msg₀ unsent h
    have := hs.holder j msg₀ _ h rfl
    rw [free] at this
    cases this
  refine hs.setAsk hplace hline (fun _ => hlock) (fun j _ h => ?_) hreader (fun _ => ?_)
    hcompleted fun listening usable => ⟨fun j msg₀ unsent h => ?_, fun idle => ?_⟩
  · rw [free] at h
    cases h
  · rw [hreceived]
  · have empty := (hs.unfinished listening (hbroken ▸ usable)).idle nobody
    rw [hreceived, empty]
    rw [Writing, hplace] at h
    split at h
    · cases h
      rfl
    · exact absurd h (nobody j msg₀ unsent)
  · exact absurd ((hplace i).trans (if_pos rfl)) (idle i msg (W.serialize msg))

omit [DecidableEq ι] in
theorem newline_notMem_unsent {unsent : List UInt8} (hs : Framed W s)
    (listening : s.reader.closed = false) (usable : s.broken = false)
    (ha : s.asks i = some ⟨msg, .writing unsent, cell⟩) : newlineByte ∉ unsent := by
  intro h
  refine W.newline_free msg ?_
  rw [(hs.unfinished listening usable).writing i msg unsent (place_of ha)]
  exact List.mem_append_right _ h

theorem framed_write {unsent : List UInt8} {count : Nat} (hs : Framed W s)
    (ha : s.asks i = some ⟨msg, .writing unsent, cell⟩) (usable : s.broken = false)
    (hplace : ∀ j, t.place j =
      if j = i then some (msg, .writing (unsent.drop count)) else s.place j)
    (hline : ∀ line j, s.IsLine W line j → t.IsLine W line j)
    (hlock : t.stdinLock = s.stdinLock) (hreader : t.reader = s.reader)
    (hreceived : t.received = s.received ++ unsent.take count)
    (hcompleted : t.completed = s.completed) : Framed W t := by
  have mine := hs.holder i msg _ (place_of ha) rfl
  have piece : s.reader.closed = false → newlineByte ∉ unsent.take count := fun listening h =>
    newline_notMem_unsent hs listening usable ha (List.mem_of_mem_take h)
  refine hs.setAsk hplace hline (fun _ => hlock.trans mine) (fun _ _ h => hlock.trans h) hreader
    (fun listening => ?_) hcompleted
    fun listening _ => ⟨fun j msg₀ unsent₀ h => ?_, fun idle => ?_⟩
  · rw [hreceived]
    exact frames_append_piece _ _ (piece listening)
  · rw [Writing, hplace] at h
    split at h
    · cases h
      rw [hreceived, rest_append_piece _ _ (piece listening), List.append_assoc,
        List.take_append_drop]
      exact (hs.unfinished listening usable).writing i msg unsent (place_of ha)
    · next other => exact absurd h (hs.other_writing ha rfl other)
  · exact absurd ((hplace i).trans (if_pos rfl)) (idle i msg (unsent.drop count))

theorem framed_newline (hs : Framed W s) (ha : s.asks i = some ⟨msg, .writing [], cell⟩)
    (usable : s.broken = false)
    (hplace : ∀ j, t.place j = if j = i then some (msg, .flushing) else s.place j)
    (hline : ∀ line j, s.IsLine W line j → t.IsLine W line j)
    (hlock : t.stdinLock = s.stdinLock) (hreader : t.reader = s.reader)
    (hreceived : t.received = s.received ++ [newlineByte])
    (hcompleted : t.completed = s.completed ++ [i]) : Framed W t := by
  have mine := hs.holder i msg _ (place_of ha) rfl
  refine ⟨fun j msg₀ phase₀ hj holds => ?_, fun listening => ?_,
    fun _ _ => ⟨fun j msg₀ unsent h => ?_, fun _ => ?_⟩⟩
  · rw [hlock]
    rw [hplace] at hj
    split at hj
    · next same => exact same ▸ mine
    · exact hs.holder j msg₀ phase₀ hj holds
  · rw [hreader] at listening
    rw [hreceived, hcompleted, frames_append_sep]
    refine List.rel_append ((hs.lines listening).imp hline) (.cons ?_ .nil)
    refine ⟨msg, .flushing, (hplace i).trans (if_pos rfl), ?_⟩
    have whole := (hs.unfinished listening usable).writing i msg [] (place_of ha)
    rw [whole, List.append_nil]
  · rw [Writing, hplace] at h
    split at h
    · cases h
    · next other => exact absurd h (hs.other_writing ha rfl other)
  · rw [hreceived]
    exact rest_append_sep _ _

/-- The ask leaves its write and releases the lock; on a usable pipe no part of a line
stays behind. -/
theorem framed_leave (hs : Framed W s) (ha : s.asks i = some ⟨msg, phase, cell⟩)
    (hl : phase.holdsLock = true)
    (hplace : ∀ j, t.place j = if j = i then some (msg, phase') else s.place j)
    (hline : ∀ line j, s.IsLine W line j → t.IsLine W line j) (after : phase'.holdsLock = false)
    (hreader : t.reader = s.reader) (hbroken : t.broken = s.broken)
    (hreceived : t.received = s.received) (hcompleted : t.completed = s.completed)
    (whole : s.reader.closed = false → s.broken = false → s.midLine W i = false) :
    Framed W t := by
  refine hs.setAsk hplace hline (fun h => ?_) (fun j hj h => ?_) hreader (fun _ => ?_) hcompleted
    fun listening usable => ⟨fun j msg₀ unsent h => ?_, fun _ => ?_⟩
  · rw [after] at h
    cases h
  · exact absurd h (hs.other_holder ha hl hj)
  · rw [hreceived]
  · rw [Writing, hplace] at h
    split at h
    · cases h
      cases after
    · next other => exact absurd h (hs.other_writing ha hl other)
  · rw [hreceived]
    rw [hbroken] at usable
    have old := hs.unfinished listening usable
    have kept := whole listening usable
    cases phase with
    | writing unsent =>
        have line := old.writing i msg unsent (place_of ha)
        simp only [midLine, place_of ha, bne_eq_false_iff_eq] at kept
        rw [← kept] at line
        exact List.self_eq_append_left.mp line
    | flushing =>
        refine old.idle fun j msg₀ unsent h => ?_
        by_cases same : j = i
        · subst same
          exact not_writing ha (fun _ h => by cases h) msg₀ unsent h
        · exact hs.other_writing ha rfl same h
    | called | checked | queued | writeFailed _ | awaiting | leaving _ | done _ => cases hl

end Moves

/-- The step lemma: only a `drop` in the middle of a line leaves an unfinished one. -/
theorem framed_move {W : Wire} {s s' : Bridge ι} {a : Act ι} (hs : Framed W s) (hf : Flags s)
    (guard : dropsWhole W s a) (m : Move W s a s') : Framed W s' := by
  have hline : ∀ line j, s.IsLine W line j → s'.IsLine W line j := fun _ _ h => h.after m
  cases m with
  | call ha => exact framed_call hs ha hline
  | checkOk ha _ | refused ha | recvText ha | recvClosed ha _ | markDead ha =>
      exact hs.quiet ha (place_setAsk s _ · _) hline (fun _ h => by cases h) rfl (fun _ _ h => h)
        rfl rfl rfl rfl
  | insert ha | dropGuard ha =>
      refine hs.quiet ha (place_displace_setAsk s _ _ · _) hline (fun _ h => by cases h) rfl
        (fun _ _ h => ?_) ?_ ?_ ?_ ?_
      · rw [displace_eq]
        exact h
      · rw [displace_eq]
        rfl
      · rw [displace_eq]
        rfl
      · rw [displace_eq]
        rfl
      · rw [displace_eq]
        rfl
  | lock _ free => exact framed_lock hs free (place_setAsk s _ · _) hline rfl rfl rfl rfl rfl
  | write ha usable => exact framed_write hs ha usable (place_setAsk s _ · _) hline rfl rfl rfl rfl
  | newline ha usable =>
      exact framed_newline hs ha usable (place_setAsk s _ · _) hline rfl rfl rfl rfl
  | flush ha =>
      exact hs.quiet ha (place_setAsk s _ · _) hline (fun _ h => by cases h) rfl
        (fun j hj h => absurd h (hs.other_holder ha rfl hj)) rfl rfl rfl rfl
  | writeError ha hl broken =>
      refine framed_leave hs ha hl (place_setAsk s _ · _) hline rfl rfl rfl rfl rfl
        fun _ usable => ?_
      cases broken.symm.trans usable
  | dropWaiting ha hp =>
      obtain rfl | rfl := hp
      · exact hs.quiet ha (place_setAsk s _ · _) hline (fun _ h => by cases h) rfl
          (fun _ _ h => h) rfl rfl rfl rfl
      · exact hs.quiet ha (place_setAsk s _ · _) hline (fun _ h => by cases h) rfl
          (fun _ _ h => h) rfl rfl rfl rfl
  | @dropWriting i msg phase cell ha hl =>
      refine framed_leave hs ha hl (place_setAsk s _ · _) hline rfl rfl rfl rfl rfl
        fun listening usable => guard i rfl ?_ usable
      by_contra dead
      obtain broken | closed := hf.dead (Bool.eq_false_iff.mpr dead)
      · cases broken.symm.trans usable
      · cases closed.symm.trans listening
  | readNoise _ => exact hs
  | deliver _ _ =>
      refine hs.same (place_deliver s _) ?_ (fun h => ?_) (fun h => ?_) ?_ ?_
      · rw [deliver_eq]
      · rw [deliver_eq] at h
        exact h
      · rw [deliver_eq] at h
        exact h
      · rw [deliver_eq]
      · rw [deliver_eq]
  | readerEnd reading => exact hs.same rfl rfl (fun _ => by rw [reading]; rfl) id rfl rfl
  | readerFlag ended => exact hs.same rfl rfl (fun _ => by rw [ended]; rfl) id rfl rfl
  | readerDrain _ => exact hs.same (place_clear s) rfl (fun h => by cases h) id rfl rfl
  | breakPipe => exact hs.same rfl rfl id (fun h => by cases h) rfl rfl

theorem stdin_framed {W : Wire} {s : Bridge ι}
    (h : Transition.Reachable (step W) (dropsWhole W) (· = new) s) (alive : s.alive = true) :
    List.Forall₂ (s.IsLine W) (frames newlineByte s.received) s.completed ∧
      s.completed.Nodup := by
  have inv : Sound s ∧ Framed W s := by
    refine h.invariant (P := fun s => Sound s ∧ Framed W s) ?_ fun s a t hs guard hm => ?_
    · rintro _ rfl
      exact ⟨sound_new, framed_new W⟩
    · have m := move_of_step hm
      exact ⟨sound_move hs.1 m, framed_move hs.2 hs.1.flags guard m⟩
  refine ⟨inv.2.lines ?_, inv.1.completions.once⟩
  by_contra closed
  cases alive.symm.trans (inv.1.flags.closed (Bool.not_eq_false _ ▸ closed))

instance (W : Wire) (s : Bridge ι) (a : Act ι) : Decidable (dropsWhole W s a) :=
  inferInstanceAs (Decidable (∀ i ∈ a.dropped, _ → _ → _))

/-- One ask is dropped before its first byte, the next one writes its line. -/
theorem stdin_framed_after_early_drop : ∃ s : Bridge Bool, s.completed = [true] ∧
    List.Forall₂ (s.IsLine serdeJson) (frames newlineByte s.received) s.completed := by
  let first := inbound "wx-a" "a" "hi" 0
  let second := inbound "wx-b" "b" "hello" 1
  have run : (Transition.execIf (step serdeJson) (dropsWhole serdeJson) (new : Bridge Bool)
      ([.call false first, .checkAlive false, .insert false, .lockStdin false, .drop false,
        .dropGuard false, .call true second, .checkAlive true, .insert true] ++
        writesLine serdeJson true second)).any
      (fun s => decide (s.alive = true ∧ s.completed = [true])) = true := by
    decide +kernel
  obtain ⟨s, hrun, hs⟩ := (Option.any_eq_true _ _).mp run
  obtain ⟨alive, completed⟩ := of_decide_eq_true hs
  have reached : Transition.Reachable (step serdeJson) (dropsWhole serdeJson) (· = new) s :=
    ⟨new, _, rfl, Transition.run_of_execIf hrun⟩
  exact ⟨s, completed, (stdin_framed reached alive).1⟩

/-- The first ask is dropped after one byte; the line of the second one starts with it. -/
theorem stdin_torn_by_drop : ∃ s : Bridge Bool,
    Transition.Reachable (step serdeJson) Transition.anyStep (· = new) s ∧ s.alive = true ∧
      ∃ line ∈ frames newlineByte s.received, ∀ i, ¬ s.IsLine serdeJson line i := by
  let first := inbound "wx-a" "a" "hi" 0
  let second := inbound "wx-b" "b" "hello" 1
  have run : (Transition.exec (step serdeJson) (new : Bridge Bool)
      ([.call false first, .checkAlive false, .insert false, .lockStdin false, .write false 1,
        .drop false, .dropGuard false, .call true second, .checkAlive true, .insert true] ++
        writesLine serdeJson true second)).any
      (fun s => decide (s.alive = true ∧ ∃ line ∈ frames newlineByte s.received,
        ∀ i, ∀ p ∈ s.place i, line ≠ serdeJson.serialize p.1)) = true := by
    decide +kernel
  obtain ⟨s, hrun, hs⟩ := (Option.any_eq_true _ _).mp run
  obtain ⟨alive, line, hline, torn⟩ := of_decide_eq_true hs
  refine ⟨s, ⟨new, _, rfl, Transition.run_iff_exec.mpr hrun⟩, alive, line, hline, fun i h => ?_⟩
  obtain ⟨msg, phase, hp, same⟩ := h
  exact torn i (msg, phase) hp same

end Bridge
end EvoclawPluginWechat
