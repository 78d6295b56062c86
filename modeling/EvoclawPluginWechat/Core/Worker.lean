import EvoclawPluginWechat.Core.Bridge

/-!
A bridge together with its subprocess. The subprocess reads its stdin line by line
and writes one line on stdout for each; what it computes is not modelled. Ids of the
conversations come back as they were sent.
-/
namespace EvoclawPluginWechat

structure Worker (ι : Type) where
  bridge : Bridge ι
  running : Bool
  /-- The lines written on stdout, in order; the `k`-th answers the `k`-th line of stdin. -/
  answers : List String
  /-- How many lines the reader task has read. -/
  delivered : Nat

namespace Worker

inductive Act (ι : Type)
  | bridge (a : Bridge.Act ι)
  | answer (out : String)
  | deliver
  | exit

variable {ι : Type} [DecidableEq ι]

def new : Worker ι := ⟨Bridge.new, true, [], 0⟩

/-- The output may answer the next line: where that line is the message of the ask
that finished it, the output carries its conversation id. A torn line is no message, and
what answers it is no reply. -/
def echoes (W : Wire) (w : Worker ι) (out : String) : Bool :=
  let k := w.answers.length
  match w.bridge.completed[k]?, (Framing.frames newlineByte w.bridge.received)[k]? with
  | some i, some line =>
      match w.bridge.asks i with
      | some a =>
          if line = W.serialize a.msg then
            (W.decode out).map OutboundMessage.conversationId == some a.msg.conversationId
          else (W.decode out).isNone
      | none => false
  | _, _ => false

def step (W : Wire) (w : Worker ι) : Act ι → Option (Worker ι)
  | .bridge (.readLine _) => none
  | .bridge a => (w.bridge.step W a).map fun bridge => { w with bridge }
  | .answer out =>
      if w.running && w.echoes W out then some { w with answers := w.answers ++ [out] } else none
  | .deliver =>
      match w.answers[w.delivered]? with
      | some out => (w.bridge.step W (.readLine out)).map fun bridge =>
          { w with bridge, delivered := w.delivered + 1 }
      | none => none
  -- the pipes of a dead process are closed, what is on stdout can still be read
  | .exit => some { w with running := false, bridge := { w.bridge with broken := true } }

end Worker
end EvoclawPluginWechat
