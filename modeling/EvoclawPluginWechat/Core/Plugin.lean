import EvoclawPluginWechat.Core.Caches
import EvoclawPluginWechat.Core.ConversationId
import EvoclawPluginWechat.Core.ConvSerializer
import EvoclawPluginWechat.Core.Pool
import EvoclawPluginWechat.Core.Worker

/-!
The text branch of `dispatch_and_reply` for any number of requests at once, over the
serializer, the pool, the workers and the reply cache they share. What the intent
layer decides about a message is left open.
-/
namespace EvoclawPluginWechat

/-- A request asks a bridge at most twice: to classify the message, and for the reply. -/
inductive Stage
  | classify
  | reply
  deriving DecidableEq

abbrev AskId := TaskId × Stage

inductive ReplyPayload
  | text (s : String)
  | news
  deriving DecidableEq

/-- What the router returns. -/
inductive Reply
  | text (s : String)
  | news
  | fallbackToLlm

inductive RequestPhase
  | dispatched
  /-- `acquire` has returned the conversation's mutex. -/
  | acquired
  | waiting
  /-- Holding the guard, at the head of `compute_text_payload`. -/
  | entered
  /-- No cached reply; `classified` after the classifier was asked. -/
  | routing (classified : Bool)
  | checkout (stage : Stage)
  | asking (stage : Stage) (bridge : BridgeId)
  | computed (payload : ReplyPayload)
  /-- The future is dropped while it asks; the guard goes last. -/
  | abandoned (stage : Stage) (bridge : BridgeId)
  | leaving (payload : Option ReplyPayload)
  | finished (payload : Option ReplyPayload)
  deriving DecidableEq

structure Request where
  fromUser : String
  userMsg : String
  msgId : Option String
  phase : RequestPhase
  deriving DecidableEq

/-- The configuration the text branch reads, with the pure functions it calls. -/
structure HandlerCfg where
  appId : String
  fallback : String
  /-- `cap_reply_text` at `reply.max_chars`. -/
  capReplyText : String → String
  /-- The prompt template with the message put in. -/
  prompt : String → String

structure Plugin (n : Nat) where
  now : Int
  wall : Int
  serializer : ConvSerializer
  pool : BridgePool n AskId
  workers : BridgeId → Worker AskId
  replies : ReplyCache
  requests : TaskId → Option Request

def Request.cid (cfg : HandlerCfg) (r : Request) : String :=
  buildConversationId cfg.appId r.fromUser

def Request.cacheKey (r : Request) : Option String :=
  EvoclawPluginWechat.cacheKey r.fromUser r.msgId

namespace Plugin

inductive Act
  | tick (d : Nat)
  /-- The wall clock is set, forward or back; it may then read a time before the epoch. -/
  | setClock (wall : Int)
  | receive (t : TaskId) (fromUser userMsg : String) (msgId : Option String)
  | acquire (t : TaskId)
  | lockOwned (t : TaskId)
  | grant (t : TaskId)
  | lookupReply (t : TaskId)
  | classifyByAi (t : TaskId)
  | route (t : TaskId) (reply : Reply)
  | checkedOut (t : TaskId) (receivedAtMs : Int)
  | finishAsk (t : TaskId)
  | storeReply (t : TaskId)
  | release (t : TaskId)
  | disconnect (t : TaskId)
  | unwind (t : TaskId)
  | pool (a : BridgePool.Act AskId)
  | worker (b : BridgeId) (a : Worker.Act AskId)
  | gcBegin (idleThreshold : Nat)
  | gcVisit (cid : String)
  | gcEnd
  | gcReplies

variable {n : Nat} [NeZero n]

def new : Plugin n where
  now := 0
  wall := 0
  serializer := .new
  pool := .new
  workers _ := .new
  replies := .new ∅
  requests _ := none

def alive (s : Plugin n) (b : BridgeId) : Bool := (s.workers b).bridge.alive

def setRequest (s : Plugin n) (t : TaskId) (r : Option Request) : Plugin n :=
  { s with requests := Function.update s.requests t r }

def setPhase (s : Plugin n) (t : TaskId) (phase : RequestPhase) : Plugin n :=
  s.setRequest t ((s.requests t).map fun r => { r with phase })

def setWorker (s : Plugin n) (b : BridgeId) (w : Worker AskId) : Plugin n :=
  { s with workers := Function.update s.workers b w }

/-- One step of one worker. -/
def runWorker (W : Wire) (s : Plugin n) (b : BridgeId) (a : Worker.Act AskId) :
    Option (Plugin n) :=
  ((s.workers b).step W a).map (s.setWorker b)

def runSerializer (s : Plugin n) (a : ConvSerializer.Act) : Option (Plugin n) :=
  (s.serializer.step a).map fun serializer => { s with serializer }

def runPool (s : Plugin n) (a : BridgePool.Act AskId) : Option (Plugin n) :=
  (s.pool.step s.alive s.now a).map fun pool => { s with pool }

/-- What the ask of this id has come to, once its future is over. -/
def askResult (s : Plugin n) (b : BridgeId) (i : AskId) :
    Option (Option (Except PluginError String)) :=
  match (s.workers b).bridge.asks i with
  | some ⟨_, .done result, _⟩ => some result
  | _ => none

/-- The message the ask of this stage sends. -/
def message (cfg : HandlerCfg) (s : Plugin n) (r : Request) (receivedAtMs : Int) :
    Stage → InboundMessage
  | .classify => Bridge.inbound (ephemeralCid (currentUnixNanos s.wall)) "intent-classifier"
      (cfg.prompt r.userMsg) receivedAtMs
  | .reply => Bridge.inbound (r.cid cfg) r.fromUser r.userMsg receivedAtMs

/-- The end of `ask_with_timeout`: `none` is the timeout. -/
def answer (cfg : HandlerCfg) : Option (Except PluginError String) → String
  | some (.ok reply) => if isBlank reply then cfg.fallback else reply
  | some (.error _) | none => cfg.fallback

/-- What follows an ask, or a checkout that failed. -/
def afterAsk (cfg : HandlerCfg) (result : Option (Except PluginError String)) :
    Stage → RequestPhase
  | .classify => .routing true
  | .reply => .computed (.text (cfg.capReplyText (answer cfg result)))

/-- The lookup at the head of `compute_text_payload`. -/
def lookupReply (s : Plugin n) (t : TaskId) (r : Request) : Plugin n :=
  match r.cacheKey with
  | none => s.setPhase t (.routing false)
  | some key =>
      match lookupCachedReply s.replies s.now key with
      | (.returned (some text), replies) =>
          { s.setPhase t (.leaving (some (.text text))) with replies }
      | (.returned none, replies) => { s.setPhase t (.routing false) with replies }
      | (.panicked, replies) => { s.setPhase t (.leaving none) with replies }

/-- The write at its end, for text only. -/
def storePayload (s : Plugin n) (t : TaskId) (r : Request) (payload : ReplyPayload) : Plugin n :=
  match r.cacheKey, payload with
  | some key, .text text =>
      match EvoclawPluginWechat.storeReply s.replies s.now s.now key text with
      | (.returned (), replies) => { s.setPhase t (.leaving (some payload)) with replies }
      | (.panicked, replies) => { s.setPhase t (.leaving none) with replies }
  | _, _ => s.setPhase t (.leaving (some payload))

/-- The checkout has returned: the ask begins, or there is no bridge to ask. -/
def startAsk (W : Wire) (cfg : HandlerCfg) (s : Plugin n) (t : TaskId) (r : Request)
    (stage : Stage) (receivedAtMs : Int) : Option (Plugin n) :=
  match s.pool.calls (t, stage) with
  | some (.returned (.ok b)) =>
      (s.runWorker W b (.bridge (.call (t, stage) (message cfg s r receivedAtMs stage)))).map
        fun s => s.setPhase t (.asking stage b)
  | some (.returned (.error e)) => some (s.setPhase t (afterAsk cfg (some (.error e)) stage))
  | _ => none

/-- The client is gone and the request's future is dropped at one of its awaits. -/
def disconnect (W : Wire) (s : Plugin n) (t : TaskId) : RequestPhase → Option (Plugin n)
  | .waiting => (s.runSerializer (.release t)).map fun s => s.setPhase t (.finished none)
  | .checkout stage =>
      (s.runPool (.cancel (t, stage))).map fun s => s.setPhase t (.leaving none)
  | .asking stage b =>
      (s.runWorker W b (.bridge (.drop (t, stage)))).map fun s =>
        s.setPhase t (.abandoned stage b)
  | _ => none

def step (W : Wire) (cfg : HandlerCfg) (s : Plugin n) : Act → Option (Plugin n)
  | .tick d => some { s with now := s.now + d, wall := s.wall + d }
  | .setClock wall => some { s with wall }
  | .receive t fromUser userMsg msgId =>
      match s.requests t with
      | none => some (s.setRequest t (some ⟨fromUser, userMsg, msgId, .dispatched⟩))
      | some _ => none
  | .acquire t =>
      match s.requests t with
      | some ⟨fromUser, _, _, .dispatched⟩ =>
          (s.runSerializer (.acquire t (buildConversationId cfg.appId fromUser) s.now)).map
            fun s => s.setPhase t .acquired
      | _ => none
  | .lockOwned t =>
      match s.requests t with
      | some ⟨_, _, _, .acquired⟩ =>
          (s.runSerializer (.lockOwned t)).map fun s => s.setPhase t .waiting
      | _ => none
  | .grant t =>
      match s.requests t with
      | some ⟨_, _, _, .waiting⟩ =>
          (s.runSerializer (.grant t)).map fun s => s.setPhase t .entered
      | _ => none
  | .lookupReply t =>
      match s.requests t with
      | some ⟨fromUser, userMsg, msgId, .entered⟩ =>
          some (s.lookupReply t ⟨fromUser, userMsg, msgId, .entered⟩)
      | _ => none
  | .classifyByAi t =>
      match s.requests t with
      | some ⟨_, _, _, .routing false⟩ =>
          (s.runPool (.call (t, .classify))).map fun s => s.setPhase t (.checkout .classify)
      | _ => none
  | .route t reply =>
      match s.requests t with
      | some ⟨_, _, _, .routing _⟩ =>
          match reply with
          | .text text => some (s.setPhase t (.computed (.text (cfg.capReplyText text))))
          | .news => some (s.setPhase t (.computed .news))
          | .fallbackToLlm =>
              (s.runPool (.call (t, .reply))).map fun s => s.setPhase t (.checkout .reply)
      | _ => none
  | .checkedOut t receivedAtMs =>
      match s.requests t with
      | some ⟨fromUser, userMsg, msgId, .checkout stage⟩ =>
          s.startAsk W cfg t ⟨fromUser, userMsg, msgId, .checkout stage⟩ stage receivedAtMs
      | _ => none
  | .finishAsk t =>
      match s.requests t with
      | some ⟨_, _, _, .asking stage b⟩ =>
          (s.askResult b (t, stage)).map fun result => s.setPhase t (afterAsk cfg result stage)
      | _ => none
  | .storeReply t =>
      match s.requests t with
      | some ⟨fromUser, userMsg, msgId, .computed payload⟩ =>
          some (s.storePayload t ⟨fromUser, userMsg, msgId, .computed payload⟩ payload)
      | _ => none
  | .release t =>
      match s.requests t with
      | some ⟨_, _, _, .leaving payload⟩ =>
          (s.runSerializer (.release t)).map fun s => s.setPhase t (.finished payload)
      | _ => none
  | .disconnect t =>
      match s.requests t with
      | some ⟨_, _, _, phase⟩ => s.disconnect W t phase
      | none => none
  | .unwind t =>
      match s.requests t with
      | some ⟨_, _, _, .abandoned stage b⟩ =>
          (s.askResult b (t, stage)).map fun _ => s.setPhase t (.leaving none)
      | _ => none
  -- calls are begun and cancelled by the requests
  | .pool (.call _) | .pool (.cancel _) => none
  | .pool a => s.runPool a
  | .worker _ (.bridge (.call _ _)) => none
  -- the `drop` of an ask is its timeout
  | .worker b a => s.runWorker W b a
  | .gcBegin idleThreshold => s.runSerializer (.gcBegin idleThreshold s.now)
  | .gcVisit cid => s.runSerializer (.gcVisit cid)
  | .gcEnd => s.runSerializer .gcEnd
  | .gcReplies =>
      some { s with replies := (sweepCache s.replies s.now replyCacheTtl CacheEntry.insertedAt).2 }

end Plugin
end EvoclawPluginWechat
