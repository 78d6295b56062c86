import EvoclawPluginWechat.Core.Wire
import EvoclawPluginWechat.Library.Framing
import EvoclawPluginWechat.Library.Table
import Mathlib.Logic.Function.Basic

/-!
`Bridge::ask` and the reader task as a step function over one bridge. Asks have
identities, so that an entry of `pending` says whose sender it is. A step ends where
another task may run: at an access to shared state or at an `await`. Bytes the pipe
has accepted are in `received`.
-/
namespace EvoclawPluginWechat

/-- The receiver's side of an ask's `oneshot` channel. -/
inductive Cell
  | empty
  | sent (text : String)
  /-- The reader cleared `pending` with the sender in it. -/
  | drained
  /-- Another ask replaced or removed the sender. -/
  | displaced
  deriving DecidableEq

inductive AskPhase
  | called
  /-- Past the test of `alive`. -/
  | checked
  /-- The sender is inserted, the guard exists; waiting for the lock of stdin. -/
  | queued
  /-- Inside `write_all`, holding the lock, with the bytes still to write. -/
  | writing (rest : List UInt8)
  /-- The newline is written, the flush is not. -/
  | flushing
  /-- The write failed and the lock is released; `alive` is not cleared yet. -/
  | writeFailed (e : PluginError)
  | awaiting
  /-- The result is known, or the future is dropped; the guard is still there. -/
  | leaving (result : Option (Except PluginError String))
  | done (result : Option (Except PluginError String))
  deriving DecidableEq

structure Ask where
  msg : InboundMessage
  phase : AskPhase
  cell : Cell
  deriving DecidableEq

/-- The reader task: in its loop, out of it, `alive` cleared, `pending` cleared. -/
inductive ReaderPhase
  | reading
  | ended
  | flagged
  | finished
  deriving DecidableEq

structure Bridge (ι : Type) where
  alive : Bool
  pending : Table String ι
  asks : ι → Option Ask
  stdinLock : Option ι
  received : List UInt8
  /-- The asks whose newline was written, in order. -/
  completed : List ι
  /-- The subprocess has closed its end of stdin. -/
  broken : Bool
  reader : ReaderPhase

namespace Bridge

inductive Act (ι : Type)
  | call (i : ι) (msg : InboundMessage)
  | checkAlive (i : ι)
  | insert (i : ι)
  | lockStdin (i : ι)
  | write (i : ι) (count : Nat)
  | writeNewline (i : ι)
  | flush (i : ι)
  | writeError (i : ι) (text : String)
  | markDead (i : ι)
  | recv (i : ι)
  | drop (i : ι)
  | dropGuard (i : ι)
  | readLine (line : String)
  | readerEnd
  | readerFlag
  | readerDrain
  | breakPipe

/-- The message `ask` builds from its arguments and the clock. -/
def inbound (conversationId openid text : String) (receivedAtMs : Int) : InboundMessage where
  channel := .wechat
  conversationId
  senderId := openid
  senderName := none
  mentionsSelf := true
  text
  receivedAtMs

variable {ι : Type} [DecidableEq ι]

/-- A bridge as `Bridge::spawn` returns it. -/
def new : Bridge ι where
  alive := true
  pending := ∅
  asks _ := none
  stdinLock := none
  received := []
  completed := []
  broken := false
  reader := .reading

def setAsk (s : Bridge ι) (i : ι) (a : Ask) : Bridge ι :=
  { s with asks := Function.update s.asks i (some a) }

def setCell (s : Bridge ι) (i : ι) (cell : Cell) : Bridge ι :=
  { s with asks := Function.update s.asks i ((s.asks i).map fun a => { a with cell }) }

/-- The sender under this key is dropped, unless it is the ask's own. -/
def displace (s : Bridge ι) (cid : String) (i : ι) : Bridge ι :=
  match s.pending.lookup cid with
  | some k => if k = i then s else s.setCell k .displaced
  | none => s

/-- The text of a write error; `kind` says which of the three writes failed. -/
def writeFailure (kind text : String) : PluginError := .backend (kind ++ ": " ++ text)

/-- `map.clear()` drops every sender in the map. -/
def clear (s : Bridge ι) : Bridge ι :=
  { s with
    pending := ∅
    asks := fun j => (s.asks j).map fun a =>
      if 0 < Table.count (· == j) s.pending then { a with cell := .drained } else a }

/-- The reader takes the sender out of the map and sends the text. -/
def deliver (s : Bridge ι) (msg : OutboundMessage) : Bridge ι :=
  match s.pending.lookup msg.conversationId with
  | some i => { s with pending := s.pending.erase msg.conversationId }.setCell i (.sent msg.text)
  | none => s

def step (W : Wire) (s : Bridge ι) : Act ι → Option (Bridge ι)
  | .call i msg =>
      match s.asks i with
      | none => some (s.setAsk i ⟨msg, .called, .empty⟩)
      | some _ => none
  | .checkAlive i =>
      match s.asks i with
      | some ⟨msg, .called, cell⟩ =>
          if s.alive then some (s.setAsk i ⟨msg, .checked, cell⟩)
          else some (s.setAsk i ⟨msg, .done (some (.error (.backend "bridge is dead"))), cell⟩)
      | _ => none
  | .insert i =>
      match s.asks i with
      | some ⟨msg, .checked, cell⟩ =>
          some { (s.displace msg.conversationId i).setAsk i ⟨msg, .queued, cell⟩ with
            pending := s.pending.insert msg.conversationId i }
      | _ => none
  | .lockStdin i =>
      match s.asks i, s.stdinLock with
      | some ⟨msg, .queued, cell⟩, none =>
          some { s.setAsk i ⟨msg, .writing (W.serialize msg), cell⟩ with stdinLock := some i }
      | _, _ => none
  -- the pipe takes part of the line
  | .write i count =>
      match s.asks i with
      | some ⟨msg, .writing rest, cell⟩ =>
          if 0 < count ∧ count ≤ rest.length ∧ s.broken = false then
            some { s.setAsk i ⟨msg, .writing (rest.drop count), cell⟩ with
              received := s.received ++ rest.take count }
          else none
      | _ => none
  | .writeNewline i =>
      match s.asks i with
      | some ⟨msg, .writing [], cell⟩ =>
          if s.broken = false then
            some { s.setAsk i ⟨msg, .flushing, cell⟩ with
              received := s.received ++ [newlineByte]
              completed := s.completed ++ [i] }
          else none
      | _ => none
  | .flush i =>
      match s.asks i with
      | some ⟨msg, .flushing, cell⟩ =>
          some { s.setAsk i ⟨msg, .awaiting, cell⟩ with stdinLock := none }
      | _ => none
  -- a write fails when the other end of the pipe is closed
  | .writeError i text =>
      if s.broken then
        match s.asks i with
        | some ⟨msg, .writing (_ :: _), cell⟩ => some { s.setAsk i
            ⟨msg, .writeFailed (writeFailure "write stdin" text), cell⟩ with stdinLock := none }
        | some ⟨msg, .writing [], cell⟩ => some { s.setAsk i
            ⟨msg, .writeFailed (writeFailure "write stdin newline" text), cell⟩ with
              stdinLock := none }
        | some ⟨msg, .flushing, cell⟩ => some { s.setAsk i
            ⟨msg, .writeFailed (writeFailure "flush stdin" text), cell⟩ with stdinLock := none }
        | _ => none
      else none
  | .markDead i =>
      match s.asks i with
      | some ⟨msg, .writeFailed e, cell⟩ =>
          some { s.setAsk i ⟨msg, .leaving (some (.error e)), cell⟩ with alive := false }
      | _ => none
  | .recv i =>
      match s.asks i with
      | some ⟨msg, .awaiting, cell⟩ =>
          match cell with
          | .empty => none
          | .sent text => some (s.setAsk i ⟨msg, .leaving (some (.ok text)), cell⟩)
          | .drained | .displaced => some (s.setAsk i
              ⟨msg, .leaving (some (.error (.backend "subprocess died before reply"))), cell⟩)
      | _ => none
  -- the caller drops the future at one of its awaits; a held lock is released
  | .drop i =>
      match s.asks i with
      | some ⟨msg, .queued, cell⟩ | some ⟨msg, .awaiting, cell⟩ =>
          some (s.setAsk i ⟨msg, .leaving none, cell⟩)
      | some ⟨msg, .writing _, cell⟩ | some ⟨msg, .flushing, cell⟩ =>
          some { s.setAsk i ⟨msg, .leaving none, cell⟩ with stdinLock := none }
      | _ => none
  | .dropGuard i =>
      match s.asks i with
      | some ⟨msg, .leaving result, cell⟩ =>
          some { (s.displace msg.conversationId i).setAsk i ⟨msg, .done result, cell⟩ with
            pending := s.pending.erase msg.conversationId }
      | _ => none
  | .readLine line =>
      if s.reader = .reading then
        if isBlank line then some s
        else match W.decode line with
          | some msg => some (s.deliver msg)
          | none => some s
      else none
  -- `next_line` returns `Ok(None)` at the end of stdout, or an error
  | .readerEnd => if s.reader = .reading then some { s with reader := .ended } else none
  | .readerFlag =>
      if s.reader = .ended then some { s with reader := .flagged, alive := false } else none
  | .readerDrain =>
      if s.reader = .flagged then some { s.clear with reader := .finished } else none
  | .breakPipe => some { s with broken := true }

end Bridge
end EvoclawPluginWechat
