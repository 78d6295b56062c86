import EvoclawPluginWechat.Properties.BridgeHistory

/-!
Where the replies come from: each one is the text of a line of the subprocess, read while the
ask was waiting, and no line is handed to two asks.
-/
namespace EvoclawPluginWechat
namespace Bridge
open Transition
variable {ι : Type} [DecidableEq ι] {W : Wire} {s s' : Bridge ι} {as : List (Act ι)} {a : Act ι}

/-- The `k`-th step read this text for this ask, after the ask had inserted its sender. -/
def ReadAt (W : Wire) (as : List (Act ι)) (i : ι) (cid text : String) (k : Nat) : Prop :=
  ∃ out msg, as[k]? = some (.readLine out) ∧ W.decode out = some msg ∧
    msg.conversationId = cid ∧ msg.text = text ∧ ∃ k₀ < k, as[k₀]? = some (.insert i)

omit [DecidableEq ι] in
theorem getElem?_append_some {k : Nat} (h : as[k]? = some a) (bs : List (Act ι)) :
    (as ++ bs)[k]? = some a := by
  rw [List.getElem?_append_left (List.getElem?_eq_some_iff.mp h).1, h]

omit [DecidableEq ι] in
theorem ReadAt.append {i : ι} {cid text : String} {k : Nat} (h : ReadAt W as i cid text k)
    (bs : List (Act ι)) : ReadAt W (as ++ bs) i cid text k := by
  obtain ⟨out, msg, hk, decoded, same, read, k₀, before, inserted⟩ := h
  exact ⟨out, msg, getElem?_append_some hk bs, decoded, same, read, k₀, before,
    getElem?_append_some inserted bs⟩

/-- An ask that is in `pending` has put itself there. -/
def Inserted (as : List (Act ι)) (s : Bridge ι) : Prop :=
  ∀ i msg p, s.place i = some (msg, p) → p.inserted = true → Act.insert i ∈ as

theorem inserted_move (hs : Inserted as s) (m : Move W s a s') : Inserted (as ++ [a]) s' := by
  intro i msg p hp inserted
  obtain ⟨_, before, old⟩ | ⟨rfl, _⟩ := m.inserted_before hp inserted
  · exact List.mem_append_left _ (hs i msg _ before old)
  · exact List.mem_append_right _ (List.mem_singleton_self _)

/-- The texts in the channels, each with the step that read it. -/
structure Attributed (W : Wire) (as : List (Act ι)) (s : Bridge ι) (line : ι → Nat) : Prop where
  read : ∀ i b text, s.asks i = some b → b.cell = .sent text →
    ReadAt W as i b.msg.conversationId text (line i)
  apart : ∀ i j b c text text', s.asks i = some b → b.cell = .sent text → s.asks j = some c →
    c.cell = .sent text' → line i = line j → i = j

theorem Move.sent_before (m : Move W s a s') (hl : Linked s) {i : ι} {b : Ask} {text : String}
    (hb : s'.asks i = some b) (sent : b.cell = .sent text) :
    (∃ c, s.asks i = some c ∧ c.msg = b.msg ∧ c.cell = .sent text) ∨
    ∃ out msg, a = .readLine out ∧ W.decode out = some msg ∧ msg.text = text ∧
      msg.conversationId = b.msg.conversationId ∧
      s.pending.lookup msg.conversationId = some i := by
  obtain ⟨c, hc, same, _⟩ | ⟨rfl, fresh, _⟩ := m.ask_before hb
  · obtain ⟨b', hb', moved⟩ := m.cells hl hc
    obtain rfl := Option.some.inj (hb.symm.trans hb')
    rw [sent] at moved
    generalize before : c.cell = cell at moved
    cases moved with
    | same => exact .inl ⟨c, hc, same.symm, before⟩
    | @sent out msg read _ decoded owner =>
        obtain ⟨d, hd, own⟩ := (hl.owner _ i).mp owner
        obtain rfl := Option.some.inj (hc.symm.trans hd)
        exact .inr ⟨out, msg, read, decoded, rfl, by rw [same, own.cid], owner⟩
  · cases m with
    | call _ =>
        rw [setAsk_asks, if_pos rfl] at hb
        have empty := congrArg Ask.cell (Option.some.inj hb)
        cases empty.trans sent

theorem attributed_move {line : ι → Nat} (hs : Attributed W as s line) (hl : Linked s)
    (hi : Inserted as s) (m : Move W s a s') : ∃ line', Attributed W (as ++ [a]) s' line' := by
  -- whose line the step reads
  by_cases reads : ∃ j out msg, a = .readLine out ∧ W.decode out = some msg ∧
      s.pending.lookup msg.conversationId = some j
  · obtain ⟨j, out, msg, rfl, decoded, owner⟩ := reads
    obtain ⟨d, hd, own⟩ := (hl.owner _ j).mp owner
    have old : ∀ {i b text}, s'.asks i = some b → b.cell = .sent text → i ≠ j →
        ∃ c, s.asks i = some c ∧ c.msg = b.msg ∧ c.cell = .sent text := by
      intro i b text hb sent other
      obtain before | ⟨_, _, same, decoded', _, _, owner'⟩ := m.sent_before hl hb sent
      · exact before
      · cases same
        cases decoded.symm.trans decoded'
        exact absurd (Option.some.inj (owner'.symm.trans owner)) other
    have below : ∀ {i c text}, s.asks i = some c → c.cell = .sent text → line i < as.length :=
      fun hc sent => by
        obtain ⟨_, _, hk, _⟩ := hs.read _ _ _ hc sent
        exact (List.getElem?_eq_some_iff.mp hk).1
    refine ⟨Function.update line j as.length, fun i b text hb sent => ?_,
      fun i k b c text text' hb sent hc sent' same => ?_⟩
    · by_cases mine : i = j
      · subst mine
        rw [Function.update_self]
        obtain ⟨c, hc, _, sent'⟩ | ⟨out', msg', same, decoded', read, cid, _⟩ :=
          m.sent_before hl hb sent
        · obtain rfl := Option.some.inj (hc.symm.trans hd)
          cases own.unresolved.symm.trans sent'
        · cases same
          obtain ⟨k₀, below, first⟩ := List.mem_iff_getElem.mp
            (hi i d.msg d.phase (place_of hd) own.inserted)
          refine ⟨out, msg', List.getElem?_concat_length, decoded', cid, read, k₀, below, ?_⟩
          exact getElem?_append_some (List.getElem?_eq_some_iff.mpr ⟨below, first⟩) _
      · rw [Function.update_of_ne mine]
        obtain ⟨c, hc, same, sent'⟩ := old hb sent mine
        exact same ▸ (hs.read i c text hc sent').append _
    · by_cases hij : i = j <;> by_cases hkj : k = j
      · rw [hij, hkj]
      · obtain ⟨c', hc', _, sent'⟩ := old hc sent' hkj
        rw [hij, Function.update_self, Function.update_of_ne hkj] at same
        exact absurd same.symm (below hc' sent').ne
      · obtain ⟨b', hb', _, sent⟩ := old hb sent hij
        rw [hkj, Function.update_self, Function.update_of_ne hij] at same
        exact absurd same (below hb' sent).ne
      · obtain ⟨b', hb', _, sent⟩ := old hb sent hij
        obtain ⟨c', hc', _, sent'⟩ := old hc sent' hkj
        rw [Function.update_of_ne hij, Function.update_of_ne hkj] at same
        exact hs.apart i k b' c' text text' hb' sent hc' sent' same
  · have old : ∀ {i b text}, s'.asks i = some b → b.cell = .sent text →
        ∃ c, s.asks i = some c ∧ c.msg = b.msg ∧ c.cell = .sent text := by
      intro i b text hb sent
      obtain before | ⟨out, msg, same, decoded, _, _, owner⟩ := m.sent_before hl hb sent
      · exact before
      · exact absurd ⟨i, out, msg, same, decoded, owner⟩ reads
    refine ⟨line, fun i b text hb sent => ?_, fun i j b c text text' hb sent hc sent' same => ?_⟩
    · obtain ⟨c, hc, same, sent'⟩ := old hb sent
      exact same ▸ (hs.read i c text hc sent').append _
    · obtain ⟨b', hb', _, sent⟩ := old hb sent
      obtain ⟨c', hc', _, sent'⟩ := old hc sent'
      exact hs.apart i j b' c' text text' hb' sent hc' sent' same

/-- The asks that returned a text can be given the steps in which it was read: a line with
their conversation id and their text, read after their sender was inserted, and for each of
them another one. The subprocess may write what it likes. -/
theorem replies_from_own_lines (run : Run (step W) anyStep new as s) :
    ∃ line : ι → Nat,
      (∀ i b text, s.asks i = some b → b.phase.result = some (.ok text) →
        ReadAt W as i b.msg.conversationId text (line i)) ∧
      ∀ i j b c text text', s.asks i = some b → b.phase.result = some (.ok text) →
        s.asks j = some c → c.phase.result = some (.ok text') → line i = line j → i = j := by
  have inv : Sound s ∧ Inserted as s ∧ ∃ line, Attributed W as s line := by
    refine run.history (P := fun as s => Sound s ∧ Inserted as s ∧ ∃ line, Attributed W as s line)
      (fun as m a m' hs _ _ hm => ?_) ?_
    · obtain ⟨sound, inserted, line, attributed⟩ := hs
      have move := move_of_step hm
      exact ⟨sound_move sound move, inserted_move inserted move,
        attributed_move attributed sound.linked inserted move⟩
    · exact ⟨sound_new, fun _ _ _ h => (by cases h), fun _ => 0, fun _ _ _ h => (by cases h),
        fun _ _ _ _ _ _ h => by cases h⟩
  obtain ⟨sound, _, line, attributed⟩ := inv
  refine ⟨line, fun i b text hb ok => ?_, fun i j b c text text' hb ok hc ok' same => ?_⟩
  · exact attributed.read i b text hb (sound.returned i b text hb ok)
  · exact attributed.apart i j b c text text' hb (sound.returned i b text hb ok) hc
      (sound.returned j c text' hc ok') same

def answersAsk (i : Bool) (text : String) : List (Act Bool) :=
  let msg := inbound "wx-a" "a" "hi" 0
  [.call i msg, .checkAlive i, .insert i] ++ writesLine serdeJson i msg ++
    [.readLine (plainReply "wx-a" text), .recv i, .dropGuard i]

/-- Two asks of one fan, one after the other. -/
theorem replies_from_own_lines_two_asks : ∃ line : Bool → Nat, line false ≠ line true ∧
    ReadAt serdeJson (answersAsk false "one" ++ answersAsk true "two") true "wx-a" "two"
      (line true) := by
  have run : (exec (step serdeJson) new (answersAsk false "one" ++ answersAsk true "two")).any
      (fun s => decide (∃ b ∈ s.asks false, ∃ c ∈ s.asks true,
        b.phase.result = some (.ok "one") ∧ c.phase.result = some (.ok "two") ∧
          c.msg.conversationId = "wx-a")) = true := by
    decide +kernel
  obtain ⟨s, hrun, hs⟩ := (Option.any_eq_true _ _).mp run
  obtain ⟨b, hb, c, hc, first, second, cid⟩ := of_decide_eq_true hs
  obtain ⟨line, read, apart⟩ := replies_from_own_lines (run_iff_exec.mpr hrun)
  refine ⟨line, fun same => ?_, cid ▸ read true c "two" hc second⟩
  cases apart false true b c _ _ hb first hc second same

end Bridge
end EvoclawPluginWechat
