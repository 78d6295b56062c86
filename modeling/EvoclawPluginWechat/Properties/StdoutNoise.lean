import EvoclawPluginWechat.Core.Reader
import EvoclawPluginWechat.Properties.PendingExact

/-!
Lines on the subprocess's stdout that answer no ask. The reader skips them, unless their bytes
are not UTF-8: then its loop ends as at the end of stdout.
-/
namespace EvoclawPluginWechat
namespace Bridge
variable {ι : Type} {W : Wire} {s : Bridge ι} {frame : List UInt8} {fs : List (List UInt8)}
open Transition

/-- The line answers no ask that is pending in this state. -/
def Noise (W : Wire) (s : Bridge ι) (frame : List UInt8) : Prop :=
  ∀ line msg, nextLine frame = some line → isBlank line = false → W.decode line = some msg →
    s.pending.lookup msg.conversationId = none

theorem noise_of_blank {line : String} (valid : nextLine frame = some line)
    (blank : isBlank line = true) : s.Noise W frame := by
  intro line' msg valid' text _
  obtain rfl := Option.some.inj (valid.symm.trans valid')
  cases blank.symm.trans text

theorem noise_of_undecoded {line : String} (valid : nextLine frame = some line)
    (malformed : W.decode line = none) : s.Noise W frame := by
  intro line' msg valid' _ decoded
  obtain rfl := Option.some.inj (valid.symm.trans valid')
  cases malformed.symm.trans decoded

theorem noise_of_unknown {line : String} {msg : OutboundMessage}
    (valid : nextLine frame = some line) (decoded : W.decode line = some msg)
    (unknown : s.pending.lookup msg.conversationId = none) : s.Noise W frame := by
  intro line' msg' valid' _ decoded'
  obtain rfl := Option.some.inj (valid.symm.trans valid')
  obtain rfl := Option.some.inj (decoded.symm.trans decoded')
  exact unknown

theorem noise_of_invalid (invalid : nextLine frame = none) : s.Noise W frame := by
  intro line msg valid _ _
  cases invalid.symm.trans valid

variable [DecidableEq ι]

theorem run_endReader (reading : s.reader = .reading) :
    Run (step W) anyStep s [.readerEnd, .readerFlag, .readerDrain] s.endReader := by
  apply run_iff_exec.mpr
  simp only [exec, step, reading, if_true, Option.bind_some]
  rfl

theorem run_readFrame (W : Wire) (s : Bridge ι) (frame : List UInt8) :
    ∃ as, Run (step W) anyStep s as (s.readFrame W frame) := by
  unfold readFrame
  split
  · next reading =>
      split
      · next line _ =>
          cases hstep : s.step W (.readLine line) with
          | none => exact ⟨[], .nil s⟩
          | some s' => exact ⟨_, .cons trivial hstep (.nil s')⟩
      · exact ⟨_, run_endReader reading⟩
  · exact ⟨[], .nil s⟩

theorem Linked.readFrame (hs : Linked s) : Linked (s.readFrame W frame) := by
  obtain ⟨as, run⟩ := run_readFrame W s frame
  exact run.invariant (fun _ _ _ hs _ h => linked_move hs (move_of_step h)) hs

theorem Linked.readFrames (hs : Linked s) : Linked (s.readFrames W fs) := by
  induction fs generalizing s with
  | nil => exact hs
  | cons f fs ih => exact ih hs.readFrame

theorem readFrame_invalid (reading : s.reader = .reading) (invalid : nextLine frame = none) :
    s.readFrame W frame = s.endReader := by
  rw [readFrame, if_pos reading, invalid]

theorem readFrame_noise {line : String} (noise : s.Noise W frame)
    (valid : nextLine frame = some line) : s.readFrame W frame = s := by
  unfold readFrame
  split
  · next reading =>
      simp only [valid, step, if_pos reading]
      split
      · rfl
      · next text =>
          split
          · next msg decoded =>
              have unknown := noise line msg valid (Bool.eq_false_iff.mpr text) decoded
              rw [Option.getD_some, deliver, unknown]
          · rfl
  · rfl

theorem readFrame_answer (reading : s.reader = .reading) (answer : ¬ s.Noise W frame) :
    ∃ msg i, s.pending.lookup msg.conversationId = some i ∧
      s.readFrame W frame = s.deliver msg := by
  simp only [Noise, not_forall] at answer
  obtain ⟨line, msg, valid, text, decoded, known⟩ := answer
  obtain ⟨i, hi⟩ := Option.ne_none_iff_exists'.mp known
  refine ⟨msg, i, hi, ?_⟩
  simp [readFrame, reading, valid, step, text, decoded]

theorem readFrames_stopped (stopped : s.reader ≠ .reading) : s.readFrames W fs = s := by
  induction fs with
  | nil => rfl
  | cons f fs ih =>
      rw [readFrames, List.foldl_cons, readFrame, if_neg stopped]
      exact ih

theorem readFrames_append (W : Wire) (s : Bridge ι) (fs gs : List (List UInt8)) :
    s.readFrames W (fs ++ gs) = (s.readFrames W fs).readFrames W gs :=
  List.foldl_append

theorem deliver_alive (s : Bridge ι) (msg : OutboundMessage) :
    (s.deliver msg).alive = s.alive ∧ (s.deliver msg).reader = s.reader := by
  unfold deliver
  split
  · exact ⟨rfl, rfl⟩
  · exact ⟨rfl, rfl⟩

/-- Only an invalid line stops the reader. -/
theorem readFrames_valid (valid : ∀ f ∈ fs, nextLine f ≠ none) (reading : s.reader = .reading) :
    (s.readFrames W fs).alive = s.alive ∧ (s.readFrames W fs).reader = .reading := by
  induction fs generalizing s with
  | nil => exact ⟨rfl, reading⟩
  | cons f fs ih =>
      have first : (s.readFrame W f).alive = s.alive ∧ (s.readFrame W f).reader = .reading := by
        by_cases noise : s.Noise W f
        · obtain ⟨line, hline⟩ := Option.ne_none_iff_exists'.mp (valid f List.mem_cons_self)
          rw [readFrame_noise noise hline]
          exact ⟨rfl, reading⟩
        · obtain ⟨msg, _, _, same⟩ := readFrame_answer reading noise
          rw [same]
          exact ⟨(deliver_alive s msg).1, (deliver_alive s msg).2.trans reading⟩
      obtain ⟨alive, reader⟩ := ih (fun g hg => valid g (List.mem_cons_of_mem _ hg)) first.2
      exact ⟨alive.trans first.1, reader⟩

theorem readFrames_invalid (invalid : ∃ f ∈ fs, nextLine f = none) :
    (s.readFrames W fs).reader ≠ .reading := by
  obtain ⟨f, hf, invalid⟩ := invalid
  obtain ⟨first, rest, rfl⟩ := List.append_of_mem hf
  rw [readFrames_append]
  by_cases stopped : (s.readFrames W first).reader = .reading
  · rw [readFrames, List.foldl_cons, readFrame_invalid stopped invalid]
    change (readFrames W _ rest).reader ≠ _
    have finished : (s.readFrames W first).endReader.reader ≠ .reading := by
      intro h
      cases h
    rwa [readFrames_stopped finished]
  · rwa [readFrames_stopped stopped]

theorem readFrame_absent {i : ι} (absent : ∀ k, s.pending.lookup k ≠ some i) :
    (s.readFrame W frame).asks i = s.asks i ∧
      ∀ k, (s.readFrame W frame).pending.lookup k ≠ some i := by
  by_cases reading : s.reader = .reading
  · cases valid : nextLine frame with
    | none =>
        rw [readFrame_invalid reading valid]
        constructor
        · change Bridge.asks (clear _) i = _
          have none : ¬ 0 < Table.count (· == i) s.pending := fun h => by
            obtain ⟨k, hk⟩ := count_pending_pos.mp h
            exact absent k hk
          rw [clear_asks]
          simp only [if_neg none, Option.map_id']
        · intro k h
          cases h
    | some line =>
        by_cases noise : s.Noise W frame
        · rw [readFrame_noise noise valid]
          exact ⟨rfl, absent⟩
        · obtain ⟨msg, j, _, same⟩ := readFrame_answer reading noise
          rw [same, deliver_asks, if_neg (absent _)]
          refine ⟨rfl, fun k => ?_⟩
          rw [deliver_lookup]
          split
          · exact fun h => by cases h
          · exact absent k
  · rw [readFrame, if_neg reading]
    exact ⟨rfl, absent⟩

theorem readFrames_absent {i : ι} (absent : ∀ k, s.pending.lookup k ≠ some i) :
    (s.readFrames W fs).asks i = s.asks i := by
  induction fs generalizing s with
  | nil => rfl
  | cons f fs ih =>
      obtain ⟨same, absent'⟩ := readFrame_absent absent
      exact (ih absent').trans same

/-- The two states have the same asks with the same answers, and the bridge of the first is
alive where that of the second is. -/
structure Undisturbed (s t : Bridge ι) : Prop where
  asks : s.asks = t.asks
  alive : t.alive = true → s.alive = true

/-- The lines hold an invalid one, with nothing but noise before it. -/
def StopsUnheard (W : Wire) (s : Bridge ι) (fs : List (List UInt8)) : Prop :=
  ∃ quiet bad rest, fs = quiet ++ bad :: rest ∧ (∀ f ∈ quiet, s.Noise W f) ∧ nextLine bad = none

theorem not_undisturbed_of_answer (hs : Linked s) (reading : s.reader = .reading)
    (answer : ¬ s.Noise W frame) :
    ¬ Undisturbed s.endReader ((s.readFrame W frame).readFrames W fs) := by
  intro same
  obtain ⟨msg, i, hi, delivered⟩ := readFrame_answer reading answer
  obtain ⟨a, ha, own⟩ := (hs.owner _ i).mp hi
  have sent : (s.deliver msg).asks i = some { a with cell := .sent msg.text } := by
    rw [deliver_asks, if_pos hi, ha]
    rfl
  have gone : ∀ k, (s.deliver msg).pending.lookup k ≠ some i := by
    intro k h
    obtain ⟨b, hb, own⟩ := ((hs.deliver msg).owner k i).mp h
    obtain rfl := Option.some.inj (sent.symm.trans hb)
    cases own.unresolved
  have cut : s.endReader.asks i = some { a with cell := .drained } := by
    change Bridge.asks (clear _) i = _
    rw [clear_asks]
    simp only [ha, if_pos (count_pending_pos.mpr ⟨_, hi⟩), Option.map_some]
  have asks := congrFun same.asks i
  rw [delivered, readFrames_absent gone, sent, cut] at asks
  cases asks

/-- After an invalid line the rest is not read. -/
theorem undisturbed_endReader_iff (hs : Linked s) (reading : s.reader = .reading)
    (alive : s.alive = true) :
    Undisturbed s.endReader (s.readFrames W fs) ↔ StopsUnheard W s fs := by
  induction fs with
  | nil =>
      constructor
      · intro same
        cases same.alive alive
      · rintro ⟨quiet, bad, rest, h, _⟩
        cases quiet with
        | nil => cases h
        | cons _ _ => cases h
  | cons f fs ih =>
      change Undisturbed s.endReader ((s.readFrame W f).readFrames W fs) ↔ _
      cases valid : nextLine f with
      | none =>
          have stopped : s.endReader.reader ≠ .reading := fun h => by cases h
          rw [readFrame_invalid reading valid, readFrames_stopped stopped]
          constructor
          · intro _
            exact ⟨[], f, fs, rfl, fun _ h => (by cases h), valid⟩
          · intro _
            exact ⟨rfl, id⟩
      | some line =>
          by_cases noise : s.Noise W f
          · rw [readFrame_noise noise valid, ih]
            constructor
            · rintro ⟨quiet, bad, rest, rfl, noisy, invalid⟩
              exact ⟨f :: quiet, bad, rest, rfl, List.forall_mem_cons.mpr ⟨noise, noisy⟩, invalid⟩
            · rintro ⟨quiet, bad, rest, h, noisy, invalid⟩
              cases quiet with
              | nil =>
                  obtain ⟨rfl, _⟩ := List.cons.inj h
                  cases valid.symm.trans invalid
              | cons g quiet =>
                  obtain ⟨_, rfl⟩ := List.cons.inj h
                  exact ⟨quiet, bad, rest, rfl, (List.forall_mem_cons.mp noisy).2, invalid⟩
          · constructor
            · intro same
              exact absurd same (not_undisturbed_of_answer hs reading noise)
            · rintro ⟨quiet, bad, rest, h, noisy, invalid⟩
              cases quiet with
              | nil =>
                  obtain ⟨rfl, _⟩ := List.cons.inj h
                  cases valid.symm.trans invalid
              | cons g quiet =>
                  obtain ⟨rfl, _⟩ := List.cons.inj h
                  exact absurd (noisy f List.mem_cons_self) noise

theorem readFrames_noise (noisy : ∀ f ∈ fs, s.Noise W f) (reading : s.reader = .reading) :
    s.readFrames W fs = if ∀ f ∈ fs, nextLine f ≠ none then s else s.endReader := by
  induction fs with
  | nil => simp [readFrames]
  | cons f fs ih =>
      have rest := ih fun g hg => noisy g (List.mem_cons_of_mem _ hg)
      change (s.readFrame W f).readFrames W fs = _
      cases valid : nextLine f with
      | none =>
          have stopped : s.endReader.reader ≠ .reading := fun h => by cases h
          rw [readFrame_invalid reading valid, readFrames_stopped stopped, if_neg]
          intro all
          exact all f List.mem_cons_self valid
      | some line =>
          rw [readFrame_noise (noisy f List.mem_cons_self) valid, rest]
          simp only [List.forall_mem_cons, valid, ne_eq, reduceCtorEq, not_false_iff, true_and]

theorem readStdout_append {before : List UInt8} (whole : Framing.rest newlineByte before = [])
    (after : List UInt8) :
    s.readStdout W (before ++ after) =
      (s.readStdout W before).readFrames W (Framing.frames newlineByte after) := by
  rw [readStdout, Framing.frames_append whole, readFrames_append]
  rfl

theorem noise_harmless_iff {before noise : List UInt8} (after : List UInt8)
    (h : Reachable (step W) anyStep (· = new) s) (reading : s.reader = .reading)
    (alive : s.alive = true) (whole : Framing.rest newlineByte before = [])
    (lines : Framing.rest newlineByte noise = [])
    (noisy : ∀ f ∈ Framing.frames newlineByte noise, (s.readStdout W before).Noise W f) :
    Undisturbed (s.readStdout W (before ++ (noise ++ after))) (s.readStdout W (before ++ after)) ↔
      (∀ f ∈ Framing.frames newlineByte noise, nextLine f ≠ none) ∨
      (∃ f ∈ Framing.frames newlineByte before, nextLine f = none) ∨
      StopsUnheard W (s.readStdout W before) (Framing.frames newlineByte after) := by
  have linked : Linked (s.readStdout W before) := (linked_of_reachable h).readFrames
  rw [readStdout_append whole, readStdout_append whole, Framing.frames_append lines,
    readFrames_append]
  by_cases stopped : ∃ f ∈ Framing.frames newlineByte before, nextLine f = none
  · have ended : (s.readStdout W before).reader ≠ .reading := readFrames_invalid stopped
    rw [readFrames_stopped ended]
    exact iff_of_true ⟨rfl, id⟩ (.inr (.inl stopped))
  · have valid : ∀ f ∈ Framing.frames newlineByte before, nextLine f ≠ none :=
      fun f hf invalid => stopped ⟨f, hf, invalid⟩
    obtain ⟨alive', reading'⟩ := readFrames_valid (W := W) valid reading
    rw [readFrames_noise noisy reading']
    split
    · next decodes => exact iff_of_true ⟨rfl, id⟩ (.inl decodes)
    · next invalid =>
        have ended : (s.readStdout W before).endReader.reader ≠ .reading := fun h => by cases h
        rw [readFrames_stopped ended,
          undisturbed_endReader_iff linked reading' (alive'.trans alive)]
        refine ⟨fun unheard => .inr (.inr unheard), ?_⟩
        rintro (decodes | before | unheard)
        · exact absurd decodes invalid
        · exact absurd before stopped
        · exact unheard

/-- A bridge with one ask, and the line that answers it. -/
def asksOnce : List (Act Unit) :=
  [.call () (inbound "wx-a" "a" "hi" 0), .checkAlive (), .insert ()]

def answerLine : List UInt8 := utf8 (plainReply "wx-a" "hello").toList ++ [newlineByte]

def harmlessNoise : List UInt8 :=
  [newlineByte] ++ utf8 ['['] ++ [newlineByte] ++ utf8 (plainReply "wx-b" "who").toList ++
    [newlineByte]

theorem noise_harmless_iff_blank : ∃ s : Bridge Unit,
    Reachable (step serdeJson) anyStep (· = new) s ∧
      Undisturbed (s.readStdout serdeJson ([] ++ (harmlessNoise ++ answerLine)))
        (s.readStdout serdeJson ([] ++ answerLine)) := by
  obtain ⟨s, run, reading, alive, unknown⟩ : ∃ s : Bridge Unit,
      exec (step serdeJson) new asksOnce = some s ∧ s.reader = .reading ∧ s.alive = true ∧
      s.pending.lookup "wx-b" = none :=
    ⟨_, rfl, rfl, rfl, rfl⟩
  have reached : Reachable (step serdeJson) anyStep (· = new) s :=
    ⟨new, _, rfl, run_iff_exec.mpr run⟩
  have frames : Framing.frames newlineByte harmlessNoise =
      [[], utf8 ['['], utf8 (plainReply "wx-b" "who").toList] := by decide +kernel
  have first : nextLine [] = some "" := by decide +kernel
  have second : nextLine (utf8 ['[']) = some "[" := by decide +kernel
  have third : nextLine (utf8 (plainReply "wx-b" "who").toList) =
      some (plainReply "wx-b" "who") := by decide +kernel
  have decoded : serdeJson.decode (plainReply "wx-b" "who") = some ⟨"wx-b", "who"⟩ := by decide
  refine ⟨s, reached, (noise_harmless_iff answerLine reached reading alive rfl (by decide +kernel)
    ?_).mpr (.inl ?_)⟩
  · rw [frames]
    simp only [List.forall_mem_cons, List.not_mem_nil, false_implies, implies_true, and_true]
    exact ⟨noise_of_blank first rfl, noise_of_undecoded second (by decide),
      noise_of_unknown third decoded unknown⟩
  · rw [frames]
    simp only [List.forall_mem_cons, List.not_mem_nil, false_implies, implies_true, and_true]
    rw [first, second, third]
    exact ⟨nofun, nofun, nofun⟩

/-- One byte that is no UTF-8: the reader stops, and the answer after it is not read. -/
theorem invalid_line_disturbs : ∃ s : Bridge Unit,
    Reachable (step serdeJson) anyStep (· = new) s ∧ s.reader = .reading ∧ s.alive = true ∧
      nextLine [0xff] = none ∧ s.Noise serdeJson [0xff] ∧
      ¬ Undisturbed (s.readStdout serdeJson ([0xff, newlineByte] ++ answerLine))
        (s.readStdout serdeJson answerLine) := by
  obtain ⟨s, run, reading, alive⟩ : ∃ s : Bridge Unit,
      exec (step serdeJson) new asksOnce = some s ∧ s.reader = .reading ∧ s.alive = true :=
    ⟨_, rfl, rfl, rfl⟩
  have reached : Reachable (step serdeJson) anyStep (· = new) s :=
    ⟨new, _, rfl, run_iff_exec.mpr run⟩
  have invalid : nextLine [0xff] = none := by decide +kernel
  have valid : nextLine (utf8 (plainReply "wx-a" "hello").toList) =
      some (plainReply "wx-a" "hello") := by decide +kernel
  refine ⟨s, reached, reading, alive, invalid, noise_of_invalid invalid, fun same => ?_⟩
  have ended : (s.readStdout serdeJson ([0xff, newlineByte] ++ answerLine)).alive = false := by
    rw [readStdout_append rfl]
    have one : s.readStdout serdeJson [0xff, newlineByte] = s.endReader :=
      readFrame_invalid (W := serdeJson) reading invalid
    rw [one, readFrames_stopped (fun h => by cases h)]
    rfl
  have lasts : (s.readStdout serdeJson answerLine).alive = true := by
    have frames : Framing.frames newlineByte answerLine =
        [utf8 (plainReply "wx-a" "hello").toList] := by decide +kernel
    have all : ∀ f ∈ Framing.frames newlineByte answerLine, nextLine f ≠ none := by
      rw [frames, List.forall_mem_singleton, valid]
      exact nofun
    exact (readFrames_valid all reading).1.trans alive
  cases ended.symm.trans (same.alive lasts)

end Bridge
end EvoclawPluginWechat
