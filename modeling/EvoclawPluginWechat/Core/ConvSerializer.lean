import EvoclawPluginWechat.Core.Std
import EvoclawPluginWechat.Library.Table

/-!
`conv_serializer.rs`: the per-conversation mutex map, with the reference count
of every mutex and the handle of every task made explicit. `acquire` runs under
the outer lock and is one step. A `gc` sweep holds the outer lock too, but tasks
drop their handles without it, so the sweep is one step for each entry.
-/
namespace EvoclawPluginWechat

abbrev TaskId := Nat
abbrev MutexId := Nat

/-- A map entry: `lock: Arc<TokioMutex<()>>` and the time of the last `acquire`. -/
structure Entry where
  lock : MutexId
  lastSeen : Int
  deriving DecidableEq

/-- What a task has made of the `Arc` it got: the value `acquire` returned, the
future of `lock_owned`, or the guard. -/
inductive Hold
  | returned
  | waiting
  | inside
  deriving DecidableEq

structure Handle where
  cid : String
  lock : MutexId
  hold : Hold
  deriving DecidableEq

/-- A `gc` in progress, with the keys `retain` has not looked at yet. -/
structure Sweep where
  startedAt : Int
  idleThreshold : Nat
  cutoff : Int
  cutoff_eq : Instant.sub startedAt idleThreshold = some cutoff
  before : Nat
  todo : List String

structure ConvSerializer where
  locks : Table String Entry
  poisoned : Bool
  sweep : Option Sweep
  strongCount : MutexId → Nat
  owner : MutexId → Option TaskId
  nextMutex : MutexId
  handles : Table TaskId Handle

namespace ConvSerializer

inductive Act
  | acquire (t : TaskId) (cid : String) (now : Int)
  | lockOwned (t : TaskId)
  | grant (t : TaskId)
  | release (t : TaskId)
  | gcBegin (idleThreshold : Nat) (now : Int)
  | gcVisit (cid : String)
  | gcEnd

def new : ConvSerializer where
  locks := ∅
  poisoned := false
  sweep := none
  strongCount _ := 0
  owner _ := none
  nextMutex := 0
  handles := ∅

/-- The outer mutex can be taken: nobody sweeps and no panic has poisoned it. -/
def outerFree (s : ConvSerializer) : Bool := s.sweep.isNone && !s.poisoned

/-- `acquire`: look up or create the entry, stamp it, clone its `Arc`. A poisoned
outer mutex makes `expect` panic, and the task gets no handle. -/
def acquire (s : ConvSerializer) (t : TaskId) (cid : String) (now : Int) :
    Option ConvSerializer :=
  if s.outerFree && (s.handles.lookup t).isNone then
    match s.locks.lookup cid with
    | some e => some { s with
        locks := s.locks.insert cid ⟨e.lock, now⟩
        strongCount := Function.update s.strongCount e.lock (s.strongCount e.lock + 1)
        handles := s.handles.insert t ⟨cid, e.lock, .returned⟩ }
    | none => some { s with
        locks := s.locks.insert cid ⟨s.nextMutex, now⟩
        -- one reference for the map, one for the clone
        strongCount := Function.update s.strongCount s.nextMutex 2
        nextMutex := s.nextMutex + 1
        handles := s.handles.insert t ⟨cid, s.nextMutex, .returned⟩ }
  else none

/-- `lock_owned` moves the returned `Arc` into the waiting future. -/
def lockOwned (s : ConvSerializer) (t : TaskId) : Option ConvSerializer :=
  match s.handles.lookup t with
  | some ⟨cid, m, .returned⟩ => some { s with handles := s.handles.insert t ⟨cid, m, .waiting⟩ }
  | _ => none

/-- The mutex is handed to a waiting task; any waiter may be the next one. -/
def grant (s : ConvSerializer) (t : TaskId) : Option ConvSerializer :=
  match s.handles.lookup t with
  | some ⟨cid, m, .waiting⟩ =>
      if s.owner m = none then some { s with
        owner := Function.update s.owner m (some t)
        handles := s.handles.insert t ⟨cid, m, .inside⟩ }
      else none
  | _ => none

/-- The task drops what it holds: the unused `Arc`, the waiting future when it is
cancelled, or the guard, which also unlocks the mutex. -/
def release (s : ConvSerializer) (t : TaskId) : Option ConvSerializer :=
  match s.handles.lookup t with
  | some ⟨_, m, hold⟩ => some { s with
      owner := if hold = .inside then Function.update s.owner m none else s.owner
      strongCount := Function.update s.strongCount m (s.strongCount m - 1)
      handles := s.handles.erase t }
  | none => none

/-- `gc` up to `retain`. A threshold that reaches below the least instant makes the
subtraction panic with the outer lock held. -/
def gcBegin (s : ConvSerializer) (idleThreshold : Nat) (now : Int) :
    Option ConvSerializer :=
  if s.outerFree then
    match h : Instant.sub now idleThreshold with
    | some cutoff => some { s with
        sweep := some ⟨now, idleThreshold, cutoff, h, s.locks.len, s.locks.keys⟩ }
    | none => some { s with poisoned := true }
  else none

/-- The predicate of `retain`: in use, or seen after the cutoff. -/
def keeps (s : ConvSerializer) (cutoff : Int) (e : Entry) : Bool :=
  decide (s.strongCount e.lock > 1) || decide (e.lastSeen > cutoff)

/-- `retain` looks at one entry, in any order. -/
def gcVisit (s : ConvSerializer) (cid : String) : Option ConvSerializer :=
  match s.sweep, s.locks.lookup cid with
  | some sw, some e =>
      if cid ∈ sw.todo then
        let s' := { s with sweep := some { sw with todo := sw.todo.erase cid } }
        if s.keeps sw.cutoff e then some s'
        else some { s' with
          locks := s.locks.erase cid
          strongCount := Function.update s.strongCount e.lock (s.strongCount e.lock - 1) }
      else none
  | _, _ => none

def gcEnd (s : ConvSerializer) : Option ConvSerializer :=
  match s.sweep with
  | some sw => if sw.todo = [] then some { s with sweep := none } else none
  | none => none

/-- What `gc` returns when it ends: `before - map.len()`. -/
def evicted (s : ConvSerializer) : Nat :=
  match s.sweep with
  | some sw => sw.before - s.locks.len
  | none => 0

def step (s : ConvSerializer) : Act → Option ConvSerializer
  | .acquire t cid now => s.acquire t cid now
  | .lockOwned t => s.lockOwned t
  | .grant t => s.grant t
  | .release t => s.release t
  | .gcBegin idle now => s.gcBegin idle now
  | .gcVisit cid => s.gcVisit cid
  | .gcEnd => s.gcEnd

/-- The task is inside the critical section of the conversation. -/
def Inside (s : ConvSerializer) (t : TaskId) (cid : String) : Prop :=
  ∃ m, s.handles.lookup t = some ⟨cid, m, .inside⟩

end ConvSerializer
end EvoclawPluginWechat
