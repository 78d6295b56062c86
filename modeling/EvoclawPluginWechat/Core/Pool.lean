import EvoclawPluginWechat.Core.Wire
import Mathlib.Logic.Function.Basic

/-!
`BridgePool::checkout` as a step function. Every call in flight has a phase that
says where in the loop it is; a phase changes where the source reads or writes
shared state, takes a lock or waits. Which bridges are alive and what time it is
comes from outside.
-/
namespace EvoclawPluginWechat

abbrev BridgeId := Nat

/-- `RESPAWN_COOLDOWN`. -/
def respawnCooldown : Nat := Duration.fromSecs 1

/-- Where a checkout call stands; `left` counts the iterations still to come. -/
inductive CheckoutPhase (n : Nat)
  /-- At the head of the loop. -/
  | ticket (left : Nat)
  /-- Waiting for the read lock of its slot. -/
  | reading (left : Nat) (idx : Fin n)
  /-- The slot was dead; the cooldown is not tested yet. -/
  | slotDead (left : Nat) (idx : Fin n)
  /-- Past the cooldown test, waiting for the write lock. -/
  | writeWait (left : Nat) (idx : Fin n)
  /-- Holding the write lock, the slot not looked at again yet. -/
  | locked (left : Nat) (idx : Fin n)
  /-- Inside `Bridge::spawn`, holding the write lock. -/
  | spawning (left : Nat) (idx : Fin n)
  /-- `Bridge::spawn` has failed, `mark_respawn_failed` has not run yet. -/
  | spawnFailed (left : Nat) (idx : Fin n)
  | returned (result : Except PluginError BridgeId)
  | dropped
  deriving DecidableEq

/-- The pool; `n` slots, at least one, as `BridgePool::spawn` demands. -/
structure BridgePool (n : Nat) (ι : Type) where
  slots : Fin n → BridgeId
  next : Nat
  lastRespawnFailedAt : Option Int
  /-- Which call holds the write lock of a slot. -/
  writer : Fin n → Option ι
  calls : ι → Option (CheckoutPhase n)
  nextBridge : BridgeId

namespace BridgePool

inductive Act (ι : Type)
  | call (c : ι)
  | fetchAdd (c : ι)
  | readSlot (c : ι)
  | testCooldown (c : ι)
  | lockSlot (c : ι)
  | recheck (c : ι)
  | spawnOk (c : ι)
  | spawnErr (c : ι)
  | markRespawnFailed (c : ι)
  | giveUp (c : ι)
  | cancel (c : ι)

variable {n : Nat} [NeZero n] {ι : Type} [DecidableEq ι]

/-- The pool as `BridgePool::spawn` leaves it, one bridge in each slot. -/
def new : BridgePool n ι where
  slots idx := idx
  next := 0
  lastRespawnFailedAt := none
  writer _ := none
  calls _ := none
  nextBridge := n

/-- The slot the shared counter points at. -/
def slotOf (counter : Nat) : Fin n := Fin.ofNat n counter

def inRespawnCooldown (p : BridgePool n ι) (now : Int) : Bool :=
  match p.lastRespawnFailedAt with
  | some t => decide (now - t < respawnCooldown)
  | none => false

def setCall (p : BridgePool n ι) (c : ι) (phase : CheckoutPhase n) : BridgePool n ι :=
  { p with calls := Function.update p.calls c (some phase) }

def setWriter (p : BridgePool n ι) (idx : Fin n) (w : Option ι) : BridgePool n ι :=
  { p with writer := Function.update p.writer idx w }

/-- The error text after the loop. -/
def exhausted (p : BridgePool n ι) (now : Int) : PluginError :=
  .backend (if p.inRespawnCooldown now then
    "all bridge slots dead; in respawn cooldown after recent failure"
  else "all bridge slots dead and respawn failed")

def step (alive : BridgeId → Bool) (now : Int) (p : BridgePool n ι) :
    Act ι → Option (BridgePool n ι)
  | .call c =>
      match p.calls c with
      | none => some (p.setCall c (.ticket (n * 2)))
      | some _ => none
  -- the counter wraps modulo 2^64
  | .fetchAdd c =>
      match p.calls c with
      | some (.ticket (left + 1)) =>
          some { p.setCall c (.reading left (slotOf p.next)) with next := (p.next + 1) % 2 ^ 64 }
      | _ => none
  | .readSlot c =>
      match p.calls c with
      | some (.reading left idx) =>
          if p.writer idx = none then
            if alive (p.slots idx) then some (p.setCall c (.returned (.ok (p.slots idx))))
            else some (p.setCall c (.slotDead left idx))
          else none
      | _ => none
  | .testCooldown c =>
      match p.calls c with
      | some (.slotDead left idx) =>
          if p.inRespawnCooldown now then some (p.setCall c (.ticket left))
          else some (p.setCall c (.writeWait left idx))
      | _ => none
  | .lockSlot c =>
      match p.calls c with
      | some (.writeWait left idx) =>
          if p.writer idx = none then
            some ((p.setCall c (.locked left idx)).setWriter idx (some c))
          else none
      | _ => none
  | .recheck c =>
      match p.calls c with
      | some (.locked left idx) =>
          if alive (p.slots idx) then
            some ((p.setCall c (.returned (.ok (p.slots idx)))).setWriter idx none)
          else some (p.setCall c (.spawning left idx))
      | _ => none
  | .spawnOk c =>
      match p.calls c with
      | some (.spawning _ idx) =>
          some { (p.setCall c (.returned (.ok p.nextBridge))).setWriter idx none with
            slots := Function.update p.slots idx p.nextBridge
            nextBridge := p.nextBridge + 1 }
      | _ => none
  | .spawnErr c =>
      match p.calls c with
      | some (.spawning left idx) => some (p.setCall c (.spawnFailed left idx))
      | _ => none
  -- the write guard is dropped at the end of the iteration
  | .markRespawnFailed c =>
      match p.calls c with
      | some (.spawnFailed left idx) =>
          some { (p.setCall c (.ticket left)).setWriter idx none with
            lastRespawnFailedAt := some now }
      | _ => none
  | .giveUp c =>
      match p.calls c with
      | some (.ticket 0) => some (p.setCall c (.returned (.error (p.exhausted now))))
      | _ => none
  -- the caller drops the future at one of its two waits
  | .cancel c =>
      match p.calls c with
      | some (.reading _ _) | some (.writeWait _ _) => some (p.setCall c .dropped)
      | _ => none

/-- The call starts a `Bridge::spawn` attempt with its next step. -/
def StartsSpawn (alive : BridgeId → Bool) (p : BridgePool n ι) (c : ι) : Prop :=
  ∃ left idx, p.calls c = some (.locked left idx) ∧ alive (p.slots idx) = false

end BridgePool

/-- A pool, the bridges it knows and the monotonic clock. -/
structure PoolRun (n : Nat) (ι : Type) where
  pool : BridgePool n ι
  alive : BridgeId → Bool
  now : Int

namespace PoolRun
variable {n : Nat} [NeZero n] {ι : Type} [DecidableEq ι]

inductive Act (ι : Type)
  | pool (a : BridgePool.Act ι)
  | die (b : BridgeId)
  | tick (d : Nat)

/-- A bridge is alive from its spawn until it dies. -/
def step (s : PoolRun n ι) : Act ι → Option (PoolRun n ι)
  | .pool a => (s.pool.step s.alive s.now a).map fun p => { s with
      pool := p
      alive := if p.nextBridge = s.pool.nextBridge then s.alive
        else Function.update s.alive s.pool.nextBridge true }
  | .die b => some { s with alive := Function.update s.alive b false }
  | .tick d => some { s with now := s.now + d }

def SlotDead (s : PoolRun n ι) (idx : Fin n) : Prop := s.alive (s.pool.slots idx) = false

end PoolRun
end EvoclawPluginWechat
