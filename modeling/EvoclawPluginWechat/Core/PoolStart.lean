import EvoclawPluginWechat.Core.StartUp
import EvoclawPluginWechat.Library.Ring

/-!
`BridgePool::spawn`, beside the subprocesses that it has started: their stderr is being read
and their stdout may close while it spawns the others, while it sleeps and while it looks
at them.
-/
namespace EvoclawPluginWechat

/-- `STDERR_RING_CAP`. -/
def stderrRingCap : Nat := 64

/-- A bridge, as far as the start-up looks at it. -/
structure StartedBridge where
  alive : Bool
  recentStderr : List String
  /-- Every line that its stderr task has read. -/
  stderr : List String
  deriving DecidableEq

inductive PoolStartPhase
  /-- In the loop that spawns, at the next worker. -/
  | spawning
  | sleeping (wakeAt : Int)
  /-- In the loop that looks at the slots. -/
  | checking (idx : Nat)
  /-- The slot's bridge was found dead; its stderr is not read yet. -/
  | diagnosing (idx : Nat)
  | returned (result : Except PluginError Unit)
  deriving DecidableEq

structure PoolStart where
  now : Int
  bridges : List StartedBridge
  phase : PoolStartPhase

namespace PoolStart

inductive Act
  | tick (d : Nat)
  | spawnOk
  | spawnErr (text : String)
  | readStderr (idx : Nat) (line : String)
  /-- The reader task has found the end of stdout. -/
  | die (idx : Nat)
  | wake
  | check
  | diagnose

/-- The arguments of `BridgePool::spawn`; the grace in milliseconds. -/
structure Args where
  binary : String
  count : Nat
  startupGraceMs : Nat

def begin (args : Args) (now : Int) : PoolStart where
  now
  bridges := []
  phase := match poolSize args.count with
    | .ok _ => .spawning
    | .error e => .returned (.error e)

/-- The error of `Bridge::spawn`. -/
def spawnError (args : Args) (text : String) : PluginError :=
  .backend ("spawn " ++ args.binary ++ ": " ++ text)

def workerError (args : Args) (idx : Nat) (text : String) : PluginError :=
  .backend ("spawn worker #" ++ toString idx ++ ": " ++ (spawnError args text).display)

def stderrBlock (captured : List String) : String :=
  if captured.isEmpty then
    "(no stderr captured — check that `binary` is correct and executable)"
  else "captured stderr:\n  " ++ "\n  ".intercalate captured

def diedError (args : Args) (idx : Nat) (captured : List String) : PluginError :=
  .backend ("evoclaw subprocess in slot #" ++ toString idx ++ " died within " ++
    toString args.startupGraceMs ++ "ms of startup. Most likely causes: wrong " ++
    "`evoclaw.binary` path, unsupported flag in `evoclaw.extra_args` (check `evoclaw channel " ++
    "run --help` against your binary), or missing API key for the configured provider.\n" ++
    stderrBlock captured)

def step (args : Args) (s : PoolStart) : Act → Option PoolStart
  | .tick d => some { s with now := s.now + d }
  | .spawnOk =>
      match s.phase with
      | .spawning =>
          let bridges := s.bridges ++ [⟨true, [], []⟩]
          some { s with
            bridges
            phase := if bridges.length = args.count then
              .sleeping (s.now + args.startupGraceMs * 1000000) else .spawning }
      | _ => none
  | .spawnErr text =>
      match s.phase with
      | .spawning =>
          some { s with phase := .returned (.error (workerError args s.bridges.length text)) }
      | _ => none
  | .readStderr idx line =>
      if idx < s.bridges.length then
        some { s with bridges := s.bridges.modify idx fun b => { b with
          recentStderr := Ring.push stderrRingCap b.recentStderr line
          stderr := b.stderr ++ [line] } }
      else none
  | .die idx =>
      if idx < s.bridges.length then
        some { s with bridges := s.bridges.modify idx fun b => { b with alive := false } }
      else none
  | .wake =>
      match s.phase with
      | .sleeping wakeAt => if wakeAt ≤ s.now then some { s with phase := .checking 0 } else none
      | _ => none
  | .check =>
      match s.phase with
      | .checking idx =>
          match s.bridges[idx]? with
          | some b => some { s with
              phase := if b.alive then .checking (idx + 1) else .diagnosing idx }
          | none => some { s with phase := .returned (.ok ()) }
      | _ => none
  | .diagnose =>
      match s.phase with
      | .diagnosing idx =>
          match s.bridges[idx]? with
          | some b => some { s with
              phase := .returned (.error (diedError args idx b.recentStderr)) }
          | none => none
      | _ => none

end PoolStart
end EvoclawPluginWechat
