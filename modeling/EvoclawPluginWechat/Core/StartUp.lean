import EvoclawPluginWechat.Core.Caches
import EvoclawPluginWechat.Core.Config

/-!
`run_server` up to the point where it listens, without what it asks of the operating
system: the session directory, the subprocesses and the socket. The router of `axum` is a
parameter.
-/
namespace EvoclawPluginWechat

/-- The `Display` of an error. -/
def PluginError.display : PluginError → String
  | .badXml text => "malformed XML body: " ++ text
  | .decryptFailed text => "aes decrypt failed: " ++ text
  | .encryptFailed text => "aes encrypt failed: " ++ text
  | .backend text => "evoclaw subprocess error: " ++ text
  | .config text => "config: " ++ text
  | .io text => "io: " ++ text

/-- `axum::Router`. -/
structure Axum where
  Router : Type
  new : Router
  /-- `route` with a handler for GET; `none` is its panic. -/
  route : Router → String → Option Router
  /-- The captures and wildcards of the path, if it has any, are well formed. -/
  pattern : String → Bool
  /-- It panics on a path without the slash. -/
  slash : ∀ router path, path.toList.head? ≠ some '/' → route router path = none
  /-- It panics on a second handler for a path. -/
  again : ∀ router router' path, route router path = some router' → route router' path = none
  first : ∀ path, path.toList.head? = some '/' → (route new path).isSome = pattern path
  /-- A path without captures does not overlap with another one. -/
  healthz : ∀ router path, route new path = some router → path ≠ "/healthz" →
    (route router "/healthz").isSome = true

structure Server (axum : Axum) where
  aesKey : Option AesKey
  workers : Nat
  router : axum.Router

/-- The check at the head of `BridgePool::spawn`. -/
def poolSize (count : Nat) : Except PluginError Nat :=
  if count = 0 then .error (.config "BridgePool count must be >= 1") else .ok count

def runServer (parseBind : String → Except String Unit) (axum : Axum) (crates : CryptoCrates)
    (cfg : Config) : Outcome (Except String (Server axum)) :=
  match parseBind cfg.server.bind with
  | .error e => .returned (.error ("invalid server.bind '" ++ cfg.server.bind ++ "': " ++ e))
  | .ok () =>
      match cfg.aesKey crates with
      | .error e => .returned (.error e.display)
      | .ok aesKey =>
          match poolSize cfg.evoclaw.workerCount with
          | .error e => .returned (.error e.display)
          | .ok workers =>
              match (axum.route axum.new cfg.server.endpointPath).bind
                  (axum.route · "/healthz") with
              | none => .panicked
              | some router => .returned (.ok ⟨aesKey, workers, router⟩)

end EvoclawPluginWechat
