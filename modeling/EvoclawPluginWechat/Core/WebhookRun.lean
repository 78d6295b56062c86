import EvoclawPluginWechat.Core.Webhook

/-!
Webhook requests one after the other, in the order in which they get the lock of the nonce
cache, and the run without those that are rejected with certain responses.
-/
namespace EvoclawPluginWechat

structure Post where
  /-- The wall clock, which may be set at any time. -/
  wall : Int
  /-- Between the two readings of the monotonic clock in `check_replay`. -/
  lag : Nat
  query : WebhookQuery
  body : String

structure WebhookRun where
  now : Int
  nonceCache : NonceCache

namespace WebhookRun

inductive Act
  | tick (d : Nat)
  | post (p : Post)
  | gcCaches

def new (now : Int) : WebhookRun := ⟨now, .new ∅⟩

variable (crates : CryptoCrates) (cfg : Config) (aesKey : Option AesKey)

def screen (s : WebhookRun) (p : Post) : Outcome Webhook.Decision × NonceCache :=
  Webhook.screen crates ⟨cfg, aesKey, s.nonceCache⟩ ⟨p.wall, s.now, s.now + p.lag⟩ p.query p.body

/-- The nonce half of `gc_caches`, now. -/
def swept (s : WebhookRun) : NonceCache :=
  (sweepCache s.nonceCache s.now (Duration.fromSecs replayWindowSecs.toNat) id).2

def step (s : WebhookRun) : Act → WebhookRun
  | .tick d => { s with now := s.now + d }
  | .post p => ⟨s.now + p.lag, (s.screen crates cfg aesKey p).2⟩
  | .gcCaches => { s with nonceCache := s.swept }

def run (s : WebhookRun) (as : List Act) : WebhookRun := as.foldl (step crates cfg aesKey) s

/-- The requests of a run, each with the decision about it. -/
def decisions (s : WebhookRun) : List Act → List (Post × Outcome Webhook.Decision)
  | [] => []
  | .post p :: as =>
      (p, (s.screen crates cfg aesKey p).1) ::
        decisions (s.step crates cfg aesKey (.post p)) as
  | a :: as => decisions (s.step crates cfg aesKey a) as

section Removal
variable (removed : Response → Bool)

/-- The request is rejected with one of the responses. -/
def isRemoved : Outcome Webhook.Decision → Bool
  | .returned (.rejected response) => removed response
  | _ => false

/-- The run with these requests taken out; the time they took passes all the same. -/
def without (s : WebhookRun) : List Act → List Act
  | [] => []
  | .post p :: as =>
      (if isRemoved removed (s.screen crates cfg aesKey p).1 then .tick p.lag else .post p) ::
        without (s.step crates cfg aesKey (.post p)) as
  | a :: as => a :: without (s.step crates cfg aesKey a) as

/-- The requests that stay, with their decisions. -/
def remaining (s : WebhookRun) (as : List Act) : List (Post × Outcome Webhook.Decision) :=
  (s.decisions crates cfg aesKey as).filter fun d => !isRemoved removed d.2

end Removal

/-- The rejections for a missing or a mismatching signature. In Compatible mode a body
without Encrypt element is rejected for want of a plain signature. -/
def unsigned (mode : EncryptMode) (response : Response) : Bool :=
  response == ⟨400, none, "missing signature"⟩ || response == ⟨403, none, "signature mismatch"⟩ ||
    response == ⟨400, none, "missing msg_signature"⟩ ||
    (mode == .compatible && response == ⟨400, none, "no encrypt element"⟩)

end WebhookRun
end EvoclawPluginWechat
