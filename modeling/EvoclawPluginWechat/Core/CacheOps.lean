import EvoclawPluginWechat.Core.Caches

/-!
Calls of the cache functions one after the other, each with its reading of the two clocks,
and what they come back with.
-/
namespace EvoclawPluginWechat

inductive CacheOp
  | storeReply (key reply : String)
  | lookupCachedReply (key : String)
  | checkReplay (ts nonce : String)
  | gcCaches
  deriving DecidableEq

structure CacheCall where
  /-- The monotonic clock, which counts from the boot. -/
  instant : Nat
  wall : Int
  op : CacheOp
  deriving DecidableEq

namespace CacheCall

def isSweep (e : CacheCall) : Bool := e.op == .gcCaches

/-- What a call that is asked something answers. -/
inductive Answer
  | found (reply : Outcome (Option String))
  | checked (result : Outcome (Except String Unit))

def perform (e : CacheCall) (c : Caches) : Option Answer × Caches :=
  match e.op with
  | .storeReply key reply =>
      (none, { c with reply :=
        (EvoclawPluginWechat.storeReply c.reply e.instant e.instant key reply).2 })
  | .lookupCachedReply key =>
      let found := EvoclawPluginWechat.lookupCachedReply c.reply e.instant key
      (some (.found found.1), { c with reply := found.2 })
  | .checkReplay ts nonce =>
      let checked :=
        EvoclawPluginWechat.checkReplay c.nonce e.wall e.instant e.instant ts nonce
      (some (.checked checked.1), { c with nonce := checked.2 })
  | .gcCaches => (none, (c.gc e.instant e.instant).2)

/-- The caches once the calls have been made. -/
def after (c : Caches) (es : List CacheCall) : Caches := es.foldl (fun c e => (e.perform c).2) c

def answers (c : Caches) : List CacheCall → List Answer
  | [] => []
  | e :: es => (e.perform c).1.toList ++ answers (e.perform c).2 es

end CacheCall
end EvoclawPluginWechat
