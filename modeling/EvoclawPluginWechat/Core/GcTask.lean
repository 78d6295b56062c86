import EvoclawPluginWechat.Core.Caches
import EvoclawPluginWechat.Core.Config
import EvoclawPluginWechat.Core.ConvSerializer

/-!
The background task of `run_server` beside the requests, as far as both touch the two caches
and the map of the conversation mutexes. A tick of the task takes the three tables one after
the other; requests go on meanwhile, and so does the clock.
-/
namespace EvoclawPluginWechat

/-- `gc_interval`, at least a minute. -/
def Config.gcInterval (cfg : Config) : Nat := Duration.fromSecs (max cfg.session.gcIntervalSecs 60)

def Config.gcIdle (cfg : Config) : Nat := Duration.fromSecs cfg.session.cidLockIdleSecs

def Config.sweepConvSerializer (cfg : Config) : Bool := cfg.session.dir.isSome

/-- Where the task is in its loop, with the time the tick began. -/
inductive GcPhase
  | sleeping
  /-- Before each of the two halves of `gc_caches`. -/
  | replies (began : Int)
  | nonces (began : Int)
  /-- Before the call of `ConvSerializer::gc`, and in it. -/
  | locks (began : Int)
  | sweeping (began : Int)
  | ending (began : Int)
  /-- Ended by a panic. -/
  | dead

structure GcRun where
  tables : CacheRun
  serializer : ConvSerializer
  task : GcPhase
  /-- When the interval ticks next. -/
  due : Int

namespace GcRun

inductive Act
  /-- The clock, or a request at one of the caches. -/
  | caches (a : CacheRun.Act)
  | acquire (t : TaskId) (cid : String)
  | lockOwned (t : TaskId)
  | grant (t : TaskId)
  | release (t : TaskId)
  | tickBegins
  | sweepReplies
  | sweepNonces
  | sweepBegins
  | sweepVisits (cid : String)
  | tickEnds

/-- The first tick of the interval is skipped. -/
def new (cfg : Config) (wall : Int) : GcRun where
  tables := ⟨.new, wall, 0⟩
  serializer := .new
  task := .sleeping
  due := cfg.gcInterval

def runSerializer (s : GcRun) (a : ConvSerializer.Act) : Option GcRun :=
  (s.serializer.step a).map fun serializer => { s with serializer }

def step (cfg : Config) (s : GcRun) : Act → Option GcRun
  -- only the task calls `gc_caches`
  | .caches .gcCaches => none
  | .caches a => (s.tables.step a).map fun tables => { s with tables }
  | .acquire t cid => s.runSerializer (.acquire t cid s.tables.now)
  | .lockOwned t => s.runSerializer (.lockOwned t)
  | .grant t => s.runSerializer (.grant t)
  | .release t => s.runSerializer (.release t)
  | .tickBegins =>
      match s.task with
      | .sleeping =>
          if s.due ≤ s.tables.now then
            some { s with task := .replies s.tables.now, due := s.due + cfg.gcInterval }
          else none
      | _ => none
  | .sweepReplies =>
      match s.task with
      | .replies began =>
          match sweepCache s.tables.caches.reply s.tables.now replyCacheTtl
            CacheEntry.insertedAt with
          | (.returned _, reply) =>
              some { s with tables.caches.reply := reply, task := .nonces began }
          | (.panicked, reply) => some { s with tables.caches.reply := reply, task := .dead }
      | _ => none
  | .sweepNonces =>
      match s.task with
      | .nonces began =>
          match sweepCache s.tables.caches.nonce s.tables.now
            (Duration.fromSecs replayWindowSecs.toNat) id with
          | (.returned _, nonce) => some { s with
              tables.caches.nonce := nonce
              task := if cfg.sweepConvSerializer then .locks began else .ending began }
          | (.panicked, nonce) => some { s with tables.caches.nonce := nonce, task := .dead }
      | _ => none
  | .sweepBegins =>
      match s.task with
      | .locks began =>
          (s.serializer.step (.gcBegin cfg.gcIdle s.tables.now)).map fun serializer =>
            { s with serializer, task := if serializer.poisoned then .dead else .sweeping began }
      | _ => none
  | .sweepVisits cid =>
      match s.task with
      | .sweeping _ => s.runSerializer (.gcVisit cid)
      | _ => none
  | .tickEnds =>
      match s.task with
      | .sweeping _ => (s.runSerializer .gcEnd).map fun s => { s with task := .sleeping }
      | .ending _ => some { s with task := .sleeping }
      | _ => none

end GcRun
end EvoclawPluginWechat
