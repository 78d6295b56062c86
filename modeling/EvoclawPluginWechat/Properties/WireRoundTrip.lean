import EvoclawPluginWechat.Library.JsonReader
import EvoclawPluginWechat.Properties.MessageFrames
import EvoclawPluginWechat.Properties.RequestSteps
import EvoclawPluginWechat.Properties.StdinFraming

/-!
What the subprocess reads. A line on its stdin is a JSON text in UTF-8; read back, it is the
message of the ask that wrote it, and that message says what the fan of the request said.
-/
namespace EvoclawPluginWechat
open Framing Transition

section Escapes

theorem ofNat_of_toNat {c : Char} {k : Nat} (h : c.toNat = k) : Char.ofNat k = c := by
  rw [← h, Char.ofNat_toNat]

theorem codeChar_control {c : Char} (small : c.toNat < 32) :
    Json.codeChar '0' '0' (Nat.digitChar (c.toNat / 16)) (Nat.digitChar (c.toNat % 16)) =
      some c := by
  have code : ∀ k < 32, Json.codeChar '0' '0' (Nat.digitChar (k / 16)) (Nat.digitChar (k % 16)) =
      some (Char.ofNat k) := by decide
  rw [code _ small, Char.ofNat_toNat]

theorem escapeChar_spells (c : Char) : Json.Spells c (escapeChar c) := by
  unfold escapeChar
  split
  · next same =>
      subst same
      exact .named (by decide) (by decide)
  split
  · next same =>
      subst same
      exact .named (by decide) (by decide)
  split
  · next code => exact .named (by decide) (ofNat_of_toNat code ▸ by decide)
  split
  · next code => exact .named (by decide) (ofNat_of_toNat code ▸ by decide)
  split
  · next code => exact .named (by decide) (ofNat_of_toNat code ▸ by decide)
  split
  · next code => exact .named (by decide) (ofNat_of_toNat code ▸ by decide)
  split
  · next code => exact .named (by decide) (ofNat_of_toNat code ▸ by decide)
  split
  · next small => exact .code (codeChar_control small)
  · next quote backslash _ _ _ _ _ printed => exact .plain quote backslash (by omega)

end Escapes

section Reading

def ChannelKind.value : ChannelKind → Json.Value
  | .custom name => .object (.cons "Custom" (.string name) .nil)

def InboundMessage.value (m : InboundMessage) : Json.Value :=
  .object <|
    .cons "channel" m.channel.value <|
    .cons "conversation_id" (.string m.conversationId) <|
    .cons "sender_id" (.string m.senderId) <|
    .cons "sender_name" (m.senderName.elim .null .string) <|
    .cons "mentions_self" (.bool m.mentionsSelf) <|
    .cons "text" (.string m.text) <|
    .cons "received_at_ms" (.int m.receivedAtMs) .nil

theorem json_eq_text (m : InboundMessage) : m.json = m.value.text escapeChar := by
  obtain ⟨⟨_⟩, _, _, senderName, _, _, _⟩ := m
  cases senderName with
  | none => rfl
  | some _ => rfl

def InboundMessage.ofValue (v : Json.Value) : Option InboundMessage := do
  let channel ← v.get? "channel"
  let name ← (channel.get? "Custom").bind Json.Value.string?
  let conversationId ← (v.get? "conversation_id").bind Json.Value.string?
  let senderId ← (v.get? "sender_id").bind Json.Value.string?
  let senderName := (v.get? "sender_name").bind Json.Value.string?
  let mentionsSelf ← (v.get? "mentions_self").bind Json.Value.bool?
  let text ← (v.get? "text").bind Json.Value.string?
  let receivedAtMs ← (v.get? "received_at_ms").bind Json.Value.int?
  pure ⟨.custom name, conversationId, senderId, senderName, mentionsSelf, text, receivedAtMs⟩

theorem ofValue_value (m : InboundMessage) : InboundMessage.ofValue m.value = some m := by
  obtain ⟨⟨_⟩, _, _, senderName, _, _, _⟩ := m
  cases senderName with
  | none => rfl
  | some _ => rfl

/-- A line of bytes as a message. -/
def readInbound (line : List UInt8) : Option InboundMessage :=
  (fromUtf8 line).bind fun s => (Json.read s.toList).bind InboundMessage.ofValue

theorem readInbound_serialize (m : InboundMessage) :
    readInbound (serdeJson.serialize m) = some m := by
  have decoded : fromUtf8 (serdeJson.serialize m) = some (String.ofList m.json) := by
    rw [fromUtf8_eq_some, String.toList_ofList]
    rfl
  rw [readInbound, decoded, Option.bind_some, String.toList_ofList, json_eq_text,
    Json.read_text escapeChar_spells, Option.bind_some, ofValue_value]

end Reading

/-- What the ask of a stage says for the request; the clocks are left open. -/
def Request.Tells (cfg : HandlerCfg) (r : Request) : Stage → InboundMessage → Prop
  | .reply, msg => ∃ ms, msg = Bridge.inbound (r.cid cfg) r.fromUser r.userMsg ms
  | .classify, msg => ∃ nanos ms, msg =
      Bridge.inbound (ephemeralCid nanos) "intent-classifier" (cfg.prompt r.userMsg) ms

namespace Worker
variable {ι : Type} [DecidableEq ι] {W : Wire} {w w' : Worker ι} {a : Act ι}

def dropsWhole (W : Wire) (w : Worker ι) : Act ι → Prop
  | .bridge op => w.bridge.dropsWhole W op
  | _ => True

instance (W : Wire) (w : Worker ι) (a : Act ι) : Decidable (w.dropsWhole W a) := by
  cases a with
  | bridge op => exact inferInstanceAs (Decidable (w.bridge.dropsWhole W op))
  | _ => exact .isTrue trivial

structure Framed (W : Wire) (w : Worker ι) : Prop where
  sound : w.bridge.Sound
  framed : w.bridge.Framed W

theorem framed_worker_move (hs : Framed W w) (whole : w.dropsWhole W a) (m : Move W w a w') :
    Framed W w' := by
  cases m with
  | bridge _ m =>
      exact ⟨Bridge.sound_move hs.sound m, Bridge.framed_move hs.framed hs.sound.flags whole m⟩
  | answer _ _ _ _ _ => exact ⟨hs.sound, hs.framed⟩
  | deliver _ m =>
      refine ⟨Bridge.sound_move hs.sound m, Bridge.framed_move hs.framed hs.sound.flags ?_ m⟩
      exact fun i h => by cases h
  | exit =>
      have m : Bridge.Move W w.bridge .breakPipe { w.bridge with broken := true } := .breakPipe
      refine ⟨Bridge.sound_move hs.sound m, Bridge.framed_move hs.framed hs.sound.flags ?_ m⟩
      exact fun i h => by cases h

end Worker

namespace Plugin
variable {n : Nat} {W : Wire} {cfg : HandlerCfg} {s s' : Plugin n}

/-- No request that goes away, and no timeout, cuts a line on a usable pipe. -/
def dropsWhole (W : Wire) (s : Plugin n) (a : Act) : Prop :=
  ∀ x ∈ a.onWorker s, (s.workers x.1).dropsWhole W x.2

instance (W : Wire) (s : Plugin n) (a : Act) : Decidable (dropsWhole W s a) :=
  inferInstanceAs (Decidable (∀ x ∈ a.onWorker s, _))

theorem message_tells (s : Plugin n) (r : Request) (ms : Int) (stage : Stage) :
    r.Tells cfg stage (message cfg s r ms stage) := by
  cases stage with
  | reply => exact ⟨ms, rfl⟩
  | classify => exact ⟨_, ms, rfl⟩

structure Told (W : Wire) (cfg : HandlerCfg) (s : Plugin n) : Prop where
  framed : ∀ b, (s.workers b).Framed W
  told : ∀ b i msg p, (s.workers b).bridge.place i = some (msg, p) →
    ∃ r, s.requests i.1 = some r ∧ r.Tells cfg i.2 msg

theorem told_new : Told W cfg (new : Plugin n) :=
  ⟨fun _ => ⟨Bridge.sound_new, Bridge.framed_new W⟩, fun _ _ _ _ h => by cases h⟩

theorem Told.lines (hs : Told W cfg s) {b : BridgeId} (alive : s.alive b = true) :
    List.Forall₂ ((s.workers b).bridge.IsLine W)
      (frames newlineByte (s.workers b).bridge.received) (s.workers b).bridge.completed := by
  obtain ⟨sound, framed⟩ := hs.framed b
  refine framed.lines ?_
  by_contra closed
  cases alive.symm.trans (sound.flags.closed (Bool.not_eq_false _ ▸ closed))

/-- A reader of JSON finds the ask's own message on the line, and it says what its request
says. -/
def ReadsBack (cfg : HandlerCfg) (s : Plugin n) (b : BridgeId) (line : List UInt8) (i : AskId) :
    Prop :=
  ∃ r msg p, s.requests i.1 = some r ∧ (s.workers b).bridge.place i = some (msg, p) ∧
    readInbound line = some msg ∧ r.Tells cfg i.2 msg

theorem Told.readsBack (hs : Told W cfg s) (reads : ∀ m, readInbound (W.serialize m) = some m)
    {b : BridgeId} {line : List UInt8} {i : AskId}
    (isLine : (s.workers b).bridge.IsLine W line i) : s.ReadsBack cfg b line i := by
  obtain ⟨msg, p, place, rfl⟩ := isLine
  obtain ⟨r, hr, tells⟩ := hs.told b i msg p place
  exact ⟨r, msg, p, hr, place, reads msg, tells⟩

variable [NeZero n]

theorem told_step {a : Act} (hs : Told W cfg s) (whole : dropsWhole W s a)
    (h : s.step W cfg a = some s') : Told W cfg s' := by
  have m := move_of_step h
  have kept : ∀ {i : AskId} {msg : InboundMessage},
      (∃ r, s.requests i.1 = some r ∧ r.Tells cfg i.2 msg) →
        ∃ r, s'.requests i.1 = some r ∧ r.Tells cfg i.2 msg := by
    rintro i msg ⟨r, hr, tells⟩
    obtain ⟨phase, hr', _⟩ := (turn_of_step h).request_after hr
    refine ⟨_, hr', ?_⟩
    obtain ⟨t, stage⟩ := i
    cases stage with
    | reply => exact tells
    | classify => exact tells
  refine ⟨fun b => ?_, fun b i msg p hp => ?_⟩
  · obtain same | ⟨op, on, _, hop⟩ | ⟨_, _, _, _, _, _, _, _, hop⟩ := m.worker_after b
    · exact same ▸ hs.framed b
    · exact Worker.framed_worker_move (hs.framed b) (whole _ on) (Worker.move_of_step hop)
    · refine Worker.framed_worker_move (hs.framed b) ?_ (Worker.move_of_step hop)
      exact fun i h => by cases h
  · obtain same | ⟨op, _, nocall, hop⟩ | ⟨t, r, stage, ms, _, hr, _, _, hop⟩ := m.worker_after b
    · exact kept (hs.told b i msg p (same ▸ hp))
    · obtain ⟨p', before, _⟩ | ⟨call, _⟩ := (Worker.move_of_step hop).place_before hp
      · exact kept (hs.told b i msg p' before)
      · exact absurd call (nocall i msg)
    · obtain ⟨p', before, _⟩ | ⟨call, _⟩ := (Worker.move_of_step hop).place_before hp
      · exact kept (hs.told b i msg p' before)
      · cases call
        exact kept ⟨r, hr, message_tells s r ms stage⟩

theorem told_reachable (h : Reachable (step W cfg) (dropsWhole W) (· = (new : Plugin n)) s) :
    Told W cfg s := by
  refine h.invariant (P := Told W cfg) ?_ fun s a s' hs whole hm => told_step hs whole hm
  rintro _ rfl
  exact told_new

/-- The subprocess of a living bridge reads what the requests asked, line by line, if the
serializer writes JSON. -/
theorem subprocess_reads_requests (reads : ∀ m, readInbound (W.serialize m) = some m)
    (h : Reachable (step W cfg) (dropsWhole W) (· = (new : Plugin n)) s)
    {b : BridgeId} (alive : s.alive b = true) :
    List.Forall₂ (s.ReadsBack cfg b) (frames newlineByte (s.workers b).bridge.received)
        (s.workers b).bridge.completed ∧
      (s.workers b).bridge.completed.Nodup := by
  have told := told_reachable h
  exact ⟨(told.lines alive).imp fun _ _ isLine => told.readsBack reads isLine,
    (told.framed b).sound.completions.once⟩

/-- A message with a quote and a line break in it. -/
theorem subprocess_reads_requests_quoted : ∃ s : Plugin 1,
    (s.workers 0).bridge.completed = [(0, .reply)] ∧
      List.Forall₂ (s.ReadsBack plainCfg 0) (frames newlineByte (s.workers 0).bridge.received)
        (s.workers 0).bridge.completed := by
  have run : (execIf (step serdeJson plainCfg) (dropsWhole serdeJson) (new : Plugin 1)
      (writesTurn serdeJson plainCfg 0 "fan" "say \"a\nb\"" 0)).any
      (fun s => decide (s.alive 0 = true ∧
        (s.workers 0).bridge.completed = [(0, .reply)])) = true := by
    decide +kernel
  obtain ⟨s, hrun, hs⟩ := (Option.any_eq_true _ _).mp run
  obtain ⟨alive, completed⟩ := of_decide_eq_true hs
  have reached : Reachable (step serdeJson plainCfg) (dropsWhole serdeJson)
      (· = (new : Plugin 1)) s := ⟨new, _, rfl, run_of_execIf hrun⟩
  exact ⟨s, completed, (subprocess_reads_requests readInbound_serialize reached alive).1⟩

end Plugin
end EvoclawPluginWechat
