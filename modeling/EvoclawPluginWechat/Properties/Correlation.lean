import EvoclawPluginWechat.Core.Worker
import EvoclawPluginWechat.Properties.StdinFraming

/-!
When a reply belongs to the line its ask wrote. A worker answers in the order of its
lines, and the reader task finds the ask by the conversation id alone; so the
question is which earlier lines of the same conversation are still unanswered when an
ask inserts its sender.
-/
namespace EvoclawPluginWechat

def Bridge.Act.inserting {ι : Type} : Bridge.Act ι → Option ι
  | .insert i => some i
  | _ => none

def Bridge.conversation {ι : Type} (s : Bridge ι) (i : ι) : Option String :=
  (s.asks i).map fun a => a.msg.conversationId

namespace Worker
variable {ι : Type} [DecidableEq ι]

/-- The steps of a worker, one constructor for each branch. -/
inductive Move (W : Wire) (w : Worker ι) : Act ι → Worker ι → Prop
  | bridge {a : Bridge.Act ι} {s : Bridge ι} : (∀ line, a ≠ .readLine line) →
      Bridge.Move W w.bridge a s → Move W w (.bridge a) { w with bridge := s }
  | answer {out : String} {i : ι} {a : Ask} {line : List UInt8} : w.running = true →
      w.bridge.completed[w.answers.length]? = some i →
      (Framing.frames newlineByte w.bridge.received)[w.answers.length]? = some line →
      w.bridge.asks i = some a →
      (∀ msg, W.decode out = some msg →
        line = W.serialize a.msg ∧ msg.conversationId = a.msg.conversationId) →
      Move W w (.answer out) { w with answers := w.answers ++ [out] }
  | deliver {out : String} {s : Bridge ι} : w.answers[w.delivered]? = some out →
      Bridge.Move W w.bridge (.readLine out) s →
      Move W w .deliver { w with bridge := s, delivered := w.delivered + 1 }
  | exit : Move W w .exit
      { w with running := false, bridge := { w.bridge with broken := true } }

theorem step_bridge {W : Wire} {w : Worker ι} {a : Bridge.Act ι}
    (quiet : ∀ line, a ≠ .readLine line) :
    w.step W (.bridge a) = (w.bridge.step W a).map fun bridge => { w with bridge } := by
  cases a with
  | readLine line => exact absurd rfl (quiet line)
  | _ => rfl

theorem move_of_step {W : Wire} {w w' : Worker ι} {a : Act ι} (h : w.step W a = some w') :
    Move W w a w' := by
  cases a with
  | bridge a =>
      by_cases hr : ∃ line, a = .readLine line
      · obtain ⟨line, rfl⟩ := hr
        cases h
      · have quiet : ∀ line, a ≠ .readLine line := fun line hl => hr ⟨line, hl⟩
        rw [step_bridge quiet] at h
        obtain ⟨s, hs, rfl⟩ := Option.map_eq_some_iff.mp h
        exact .bridge quiet (Bridge.move_of_step hs)
  | answer out =>
      simp only [step, Option.ite_none_right_eq_some, Bool.and_eq_true, Option.some.injEq] at h
      obtain ⟨⟨running, echo⟩, rfl⟩ := h
      simp only [echoes] at echo
      split at echo
      · next i line hi hline =>
          split at echo
          · next a ha =>
              refine .answer running hi hline ha fun msg decoded => ?_
              rw [decoded] at echo
              split at echo
              · next whole => exact ⟨whole, Option.some.inj (eq_of_beq echo)⟩
              · cases echo
          · cases echo
      · cases echo
  | deliver =>
      simp only [step] at h
      split at h
      · next out hout =>
          obtain ⟨s, hs, rfl⟩ := Option.map_eq_some_iff.mp h
          exact .deliver hout (Bridge.move_of_step hs)
      · cases h
  | exit => cases h; exact .exit

/-- The text is the subprocess's answer to the line that this ask wrote. -/
def Answered (W : Wire) (w : Worker ι) (i : ι) (text : String) : Prop :=
  ∃ (k : Nat) (line : List UInt8) (out : String) (msg : OutboundMessage),
    w.bridge.completed[k]? = some i ∧
    (Framing.frames newlineByte w.bridge.received)[k]? = some line ∧
    w.bridge.IsLine W line i ∧ w.answers[k]? = some out ∧ W.decode out = some msg ∧
    msg.text = text

/-- The asks whose line has been written and whose answer has not reached the reader. -/
def undelivered (w : Worker ι) : List ι := w.bridge.completed.drop w.delivered

structure Correlated (W : Wire) (fan : ι → Bool) (w : Worker ι) : Prop where
  sound : w.bridge.Sound
  distinct : ∀ i j a b, fan i = true → i ≠ j → w.bridge.asks i = some a →
    w.bridge.asks j = some b → a.phase.isDone = false → b.phase.isDone = false →
    a.msg.conversationId ≠ b.msg.conversationId
  answers_le : w.answers.length ≤ w.bridge.completed.length
  delivered_le : w.delivered ≤ w.answers.length
  echo : ∀ (k : Nat) i out a msg, w.bridge.completed[k]? = some i → w.answers[k]? = some out →
    w.bridge.asks i = some a → W.decode out = some msg →
    msg.conversationId = a.msg.conversationId ∧
      (Framing.frames newlineByte w.bridge.received)[k]? = some (W.serialize a.msg)
  /-- Whatever is undelivered in the conversation of a waiting fan ask is its own. -/
  own : w.bridge.reader = .reading → ∀ i a k, fan i = true → w.bridge.asks i = some a →
    a.Owns k → ∀ j ∈ w.undelivered, ∀ b, w.bridge.asks j = some b → b.msg.conversationId = k →
    j = i
  sent : ∀ i a text, fan i = true → w.bridge.asks i = some a → a.cell = .sent text →
    w.Answered W i text

/-- An ask inserts its sender only where nothing of its conversation is undelivered. -/
def clear (w : Worker ι) (i : ι) : Prop :=
  w.bridge.reader = .reading →
    ∀ j ∈ w.undelivered, w.bridge.conversation j ≠ w.bridge.conversation i

/-- The step inserts a fan's sender only where no earlier line of the fan has its answer
still to come. -/
def inTurn (fan : ι → Bool) (w : Worker ι) : Act ι → Prop
  | .bridge b => ∀ i ∈ b.inserting, fan i = true → w.clear i
  | _ => True

instance (w : Worker ι) (i : ι) : Decidable (w.clear i) :=
  inferInstanceAs (Decidable (_ → ∀ j ∈ w.undelivered, _))

instance (fan : ι → Bool) (w : Worker ι) (a : Act ι) : Decidable (w.inTurn fan a) :=
  match a with
  | .bridge b => inferInstanceAs (Decidable (∀ i ∈ b.inserting, _ → _))
  | .answer _ | .deliver | .exit => .isTrue trivial

/-- Conversations in flight are not shared. -/
def apart (fan : ι → Bool) (w : Worker ι) (a : Act ι) : Prop :=
  ∀ i msg, a = .bridge (.call i msg) → ∀ j b, w.bridge.asks j = some b →
    b.phase.isDone = false → (fan i = true ∨ fan j = true) →
    b.msg.conversationId ≠ msg.conversationId

theorem getElem?_of_prefix {α : Type} {xs ys : List α} {k : Nat} {x : α} (h : xs <+: ys)
    (hx : xs[k]? = some x) : ys[k]? = some x := by
  obtain ⟨hk, rfl⟩ := List.getElem?_eq_some_iff.mp hx
  exact List.prefix_iff_getElem?.mp h k hk

section Step
variable {W : Wire} {fan : ι → Bool} {w : Worker ι}

omit [DecidableEq ι] in
theorem correlated_new : Correlated W fan (new : Worker ι) := by
  refine ⟨Bridge.sound_new, fun _ _ _ _ _ _ h => (by cases h), Nat.le_refl _, Nat.le_refl _,
    fun _ _ _ _ _ h => (by cases h), fun _ _ _ _ _ h => (by cases h),
    fun _ _ _ _ h => (by cases h)⟩

variable {b : Bridge.Act ι} {s' : Bridge ι} {running : Bool} {delivered : Nat}

theorem distinct_bridge (hs : Correlated W fan w) (m : Bridge.Move W w.bridge b s')
    (ok : w.apart fan (.bridge b)) {i j : ι} {a' b' : Ask} (hi : fan i = true) (hij : i ≠ j)
    (ha : s'.asks i = some a') (hb : s'.asks j = some b') (hda : a'.phase.isDone = false)
    (hdb : b'.phase.isDone = false) : a'.msg.conversationId ≠ b'.msg.conversationId := by
  obtain ⟨a, hai, hma, lateri⟩ | ⟨calli, freshi, _⟩ := m.ask_before ha
  · obtain ⟨c, hcj, hmc, laterj⟩ | ⟨callj, _, _⟩ := m.ask_before hb
    · rw [hma, hmc]
      exact hs.distinct i j a c hi hij hai hcj (lateri.unfinished hda) (laterj.unfinished hdb)
    · rw [hma]
      exact ok j b'.msg (by rw [callj]) i a hai (lateri.unfinished hda) (.inr hi)
  · obtain ⟨c, hcj, hmc, laterj⟩ | ⟨callj, _, _⟩ := m.ask_before hb
    · rw [hmc]
      exact (ok i a'.msg (by rw [calli]) j c hcj (laterj.unfinished hdb) (.inl hi)).symm
    · exact absurd (Bridge.Act.call.inj (calli.symm.trans callj)).1 hij

theorem ask_of_completed (hs : Correlated W fan w) (m : Bridge.Move W w.bridge b s') {j : ι}
    {b' : Ask} (hj : j ∈ w.bridge.completed) (hb : s'.asks j = some b') :
    ∃ c, w.bridge.asks j = some c ∧ b'.msg = c.msg := by
  obtain ⟨c, hc, hm, _⟩ | ⟨_, fresh, _⟩ := m.ask_before hb
  · exact ⟨c, hc, hm⟩
  · obtain ⟨msg, p, hp, _⟩ := hs.sound.completions.past j hj
    rw [Bridge.place, fresh] at hp
    cases hp

theorem answered_bridge (m : Bridge.Move W w.bridge b s') {i : ι} {text : String}
    (h : w.Answered W i text) : Answered W ⟨s', running, w.answers, delivered⟩ i text := by
  obtain ⟨k, line, out, msg, hi, hline, own, rest⟩ := h
  exact ⟨k, line, out, msg, getElem?_of_prefix m.completed_prefix hi,
    getElem?_of_prefix (Framing.frames_prefix m.received_prefix) hline, own.after m, rest⟩

theorem echo_bridge (hs : Correlated W fan w) (m : Bridge.Move W w.bridge b s')
    {k : Nat} {i : ι} {out : String} {a' : Ask} {msg : OutboundMessage}
    (hi : s'.completed[k]? = some i) (hout : w.answers[k]? = some out)
    (ha : s'.asks i = some a') (decoded : W.decode out = some msg) :
    msg.conversationId = a'.msg.conversationId ∧
      (Framing.frames newlineByte s'.received)[k]? = some (W.serialize a'.msg) := by
  have hk : k < w.bridge.completed.length :=
    Nat.lt_of_lt_of_le (List.getElem?_eq_some_iff.mp hout).1 hs.answers_le
  have old : w.bridge.completed[k]? = some i := by
    have kept := List.prefix_iff_getElem?.mp m.completed_prefix k hk
    rw [List.getElem?_eq_getElem hk, ← kept, hi]
  obtain ⟨c, hc, hm⟩ := ask_of_completed hs m (List.mem_of_getElem? old) ha
  obtain ⟨cid, line⟩ := hs.echo k i out c msg old hout hc decoded
  rw [hm]
  exact ⟨cid, getElem?_of_prefix (Framing.frames_prefix m.received_prefix) line⟩

theorem owns_before (m : Bridge.Move W w.bridge b s') (hl : w.bridge.Linked) {i : ι} {a' : Ask}
    {k : String} (ha : s'.asks i = some a') (own : a'.Owns k) :
    (∃ a, w.bridge.asks i = some a ∧ a.Owns k) ∨
      b = .insert i ∧ w.bridge.conversation i = some k := by
  obtain ⟨p, hp, inserted⟩ | ⟨insert, hp⟩ := m.inserted_before (Bridge.place_of ha) own.inserted
  · obtain ⟨cell, hc⟩ := Bridge.place_eq_some.mp hp
    obtain ⟨a'', ha'', moved⟩ := m.cells hl hc
    obtain rfl := Option.some.inj (ha.symm.trans ha'')
    refine .inl ⟨_, hc, inserted, own.cid, ?_⟩
    have empty := own.unresolved
    generalize a'.cell = after at moved empty
    subst empty
    cases moved with
    | same => rfl
  · obtain ⟨cell, hc⟩ := Bridge.place_eq_some.mp hp
    refine .inr ⟨insert, ?_⟩
    rw [Bridge.conversation, hc]
    exact congrArg some own.cid

omit [DecidableEq ι] in
theorem conversation_of {s : Bridge ι} {i : ι} {a : Ask} (h : s.asks i = some a) :
    s.conversation i = some a.msg.conversationId := by
  rw [Bridge.conversation, h]
  rfl

theorem own_bridge (hs : Correlated W fan w) (m : Bridge.Move W w.bridge b s')
    (turn : w.inTurn fan (.bridge b)) (ok : w.apart fan (.bridge b))
    (reading : s'.reader = .reading) {i j : ι} {a' c' : Ask} {k : String} (hi : fan i = true)
    (ha : s'.asks i = some a') (own : a'.Owns k)
    (hj : j ∈ s'.completed.drop w.delivered) (hc : s'.asks j = some c')
    (same : c'.msg.conversationId = k) : j = i := by
  have was := m.reading_before reading
  have old : j ∈ w.undelivered → j = i := by
    intro hj
    obtain ⟨c, hcj, hm⟩ := ask_of_completed hs m (List.mem_of_mem_drop hj) hc
    rw [hm] at same
    obtain ⟨a, hai, owned⟩ | ⟨rfl, conv⟩ := owns_before m hs.sound.linked ha own
    · exact hs.own was i a k hi hai owned j hj c hcj same
    · exact absurd ((conversation_of hcj).trans (same ▸ conv.symm)) (turn i rfl hi was j hj)
  obtain grown | ⟨l, msg, _, written, grown⟩ := m.completed_after
  · rw [grown] at hj
    exact old hj
  · have bound : w.delivered ≤ w.bridge.completed.length :=
      Nat.le_trans hs.delivered_le hs.answers_le
    rw [grown, List.drop_append_of_le_length bound] at hj
    obtain hj | new := List.mem_append.mp hj
    · exact old hj
    · obtain rfl := List.mem_singleton.mp new
      by_contra other
      obtain ⟨cell, hl⟩ := Bridge.place_eq_some.mp written
      obtain rfl := Option.some.inj (hc.symm.trans hl)
      exact distinct_bridge hs m ok hi (Ne.symm other) ha hc
        (Bridge.not_isDone_of_inserted own.inserted) rfl (own.cid.trans same.symm)

omit [DecidableEq ι] in
theorem correlated_answer (hs : Correlated W fan w) {out : String} {i : ι} {a : Ask}
    {line : List UInt8} (hi : w.bridge.completed[w.answers.length]? = some i)
    (hline : (Framing.frames newlineByte w.bridge.received)[w.answers.length]? = some line)
    (ha : w.bridge.asks i = some a)
    (echo : ∀ msg, W.decode out = some msg →
      line = W.serialize a.msg ∧ msg.conversationId = a.msg.conversationId) :
    Correlated W fan { w with answers := w.answers ++ [out] } := by
  have below := (List.getElem?_eq_some_iff.mp hi).1
  refine ⟨hs.sound, hs.distinct, ?_, ?_, ?_, hs.own, ?_⟩
  · rw [List.length_append]
    exact below
  · rw [List.length_append]
    exact Nat.le_trans hs.delivered_le (Nat.le_add_right _ _)
  · intro k i' out' a' msg hi' hout ha' decoded
    by_cases last : k < w.answers.length
    · rw [List.getElem?_append_left last] at hout
      exact hs.echo k i' out' a' msg hi' hout ha' decoded
    · obtain rfl : k = w.answers.length := by
        have := (List.getElem?_eq_some_iff.mp hout).1
        rw [List.length_append, List.length_singleton] at this
        omega
      rw [List.getElem?_append_right (Nat.le_refl _), Nat.sub_self] at hout
      obtain rfl := Option.some.inj hout
      obtain rfl := Option.some.inj (hi.symm.trans hi')
      obtain rfl := Option.some.inj (ha.symm.trans ha')
      obtain ⟨rfl, cid⟩ := echo msg decoded
      exact ⟨cid, hline⟩
  · intro i' a' text hfan ha' sent
    obtain ⟨k, l, o, msg, hk, hl, own, hout, hmsg⟩ := hs.sent i' a' text hfan ha' sent
    exact ⟨k, l, o, msg, hk, hl, own, getElem?_of_prefix (List.prefix_append _ _) hout, hmsg⟩

omit [DecidableEq ι] in
/-- The reader finds the ask that wrote the oldest undelivered line. -/
theorem answered_of_delivery (hs : Correlated W fan w) {out : String} {i : ι} {a : Ask}
    {msg : OutboundMessage} (hi : fan i = true) (ha : w.bridge.asks i = some a)
    (own : a.Owns msg.conversationId) (reading : w.bridge.reader = .reading)
    (hout : w.answers[w.delivered]? = some out) (decoded : W.decode out = some msg) :
    w.Answered W i msg.text := by
  have below : w.delivered < w.bridge.completed.length :=
    Nat.lt_of_lt_of_le (List.getElem?_eq_some_iff.mp hout).1 hs.answers_le
  have oldest := List.getElem?_eq_getElem below
  generalize w.bridge.completed[w.delivered] = j at oldest
  have undelivered : j ∈ w.undelivered := by
    refine List.mem_of_getElem? (i := 0) ?_
    rw [undelivered, List.getElem?_drop]
    exact oldest
  obtain ⟨msg', p, hp, _⟩ := hs.sound.completions.past j (List.mem_of_getElem? oldest)
  obtain ⟨cell, hc⟩ := Bridge.place_eq_some.mp hp
  obtain ⟨cid, line⟩ := hs.echo w.delivered j out _ msg oldest hout hc decoded
  obtain rfl := hs.own reading i a _ hi ha own j undelivered _ hc cid.symm
  exact ⟨w.delivered, _, out, msg, oldest, line, ⟨msg', p, hp, rfl⟩, hout, decoded, rfl⟩

theorem sent_bridge (hs : Correlated W fan w) (m : Bridge.Move W w.bridge b s')
    (next : ∀ line, b = .readLine line → w.answers[w.delivered]? = some line) {i : ι} {a' : Ask}
    {text : String} (hi : fan i = true) (ha : s'.asks i = some a') (sent : a'.cell = .sent text) :
    Answered W ⟨s', running, w.answers, delivered⟩ i text := by
  obtain ⟨a, hai, _, _⟩ | ⟨_, _, called⟩ := m.ask_before ha
  · obtain ⟨a'', ha'', moved⟩ := m.cells hs.sound.linked hai
    obtain rfl := Option.some.inj (ha.symm.trans ha'')
    rw [sent] at moved
    generalize hcell : a.cell = before at moved
    cases moved with
    | same => exact answered_bridge m (hs.sent i a text hi hai hcell)
    | sent line reading decoded found =>
        obtain ⟨c, hc, own⟩ := (hs.sound.linked.owner _ i).mp found
        exact answered_bridge m
          (answered_of_delivery hs hi hc own reading (next _ line) decoded)
  · have fresh := (Bridge.linked_move hs.sound.linked m).fresh i a' ha
    rw [Ask.Fresh, called, sent] at fresh
    cases fresh rfl rfl

theorem correlated_bridge (hs : Correlated W fan w) (m : Bridge.Move W w.bridge b s')
    (turn : w.inTurn fan (.bridge b)) (ok : w.apart fan (.bridge b))
    (next : ∀ line, b = .readLine line → w.answers[w.delivered]? = some line)
    (more : w.delivered ≤ delivered) (written : delivered ≤ w.answers.length) :
    Correlated W fan ⟨s', running, w.answers, delivered⟩ where
  sound := Bridge.sound_move hs.sound m
  distinct _ _ _ _ hi hij ha hb hda hdb := distinct_bridge hs m ok hi hij ha hb hda hdb
  answers_le := Nat.le_trans hs.answers_le m.completed_prefix.length_le
  delivered_le := written
  echo _ _ _ _ _ hi hout ha decoded := echo_bridge hs m hi hout ha decoded
  own reading _ _ _ hi ha own _ hj _ hc same :=
    own_bridge hs m turn ok reading hi ha own (List.drop_subset_drop_left _ more hj) hc same
  sent _ _ _ hi ha sent := sent_bridge hs m next hi ha sent

theorem correlated_move (hs : Correlated W fan w) {a : Act ι} {w' : Worker ι}
    (turn : w.inTurn fan a) (ok : w.apart fan a) (m : Move W w a w') : Correlated W fan w' := by
  cases m with
  | bridge quiet m =>
      exact correlated_bridge hs m turn ok (fun line h => absurd h (quiet line)) (Nat.le_refl _)
        hs.delivered_le
  | answer _ hi hline ha echo => exact correlated_answer hs hi hline ha echo
  | deliver hout m =>
      refine correlated_bridge hs m (fun _ h => by cases h) (fun i msg h => by cases h)
        (fun line h => ?_) (Nat.le_succ _) (List.getElem?_eq_some_iff.mp hout).1
      cases h
      exact hout
  | exit =>
      exact correlated_bridge hs .breakPipe (fun _ h => by cases h) (fun i msg h => by cases h)
        (fun line h => by cases h) (Nat.le_refl _) hs.delivered_le

omit [DecidableEq ι] in
theorem Correlated.answered (hs : Correlated W fan w) {i : ι} {a : Ask} {text : String}
    (hi : fan i = true) (ha : w.bridge.asks i = some a)
    (ok : a.phase.result = some (.ok text)) : w.Answered W i text :=
  hs.sent i a text hi ha (hs.sound.returned i a text ha ok)

end Step

end Worker
end EvoclawPluginWechat
