import EvoclawPluginWechat.Properties.RetryAgreement
import EvoclawPluginWechat.Properties.RetryCost

/-!
The reply cache of the whole plugin runs as the caches under `computeTextPayload` do: what
holds of every run of the caches holds of the plugin's, and a request of the plugin reads and
writes the cache as the call does.
-/
namespace EvoclawPluginWechat

def withoutArticle : Webhook.ReplyPayload → ReplyPayload
  | .text s => .text s
  | .news _ => .news

namespace Plugin
open Transition
variable {n : Nat} {W : Wire} {cfg : HandlerCfg} {s s' : Plugin n} {t : TaskId} {r : Request}

/-- The reply cache and the monotonic clock. -/
def cacheView (s : Plugin n) : CacheRun := ⟨⟨s.replies, .new ∅⟩, s.now, s.now⟩

theorem Calm.cacheView (hs : Calm s) : s.cacheView.Clean := ⟨hs.now, hs.clean, rfl⟩

/-- What the lookup makes of the request. -/
def foundPhase : Outcome (Option String) → RequestPhase
  | .returned (some text) => .leaving (some (.text text))
  | .returned none => .routing false
  | .panicked => .leaving none

theorem lookupReply_eq : s.lookupReply t r =
    let looked := lookupPayload s.cacheView (cacheKey r.fromUser r.msgId)
    { s.setPhase t (foundPhase looked.1) with replies := looked.2.caches.reply } := by
  have key : cacheKey r.fromUser r.msgId = r.cacheKey := rfl
  rw [key, lookupReply.eq_def]
  cases r.cacheKey with
  | none => rfl
  | some key =>
      dsimp only [lookupPayload, cacheView]
      split <;> next looked => rw [looked]; rfl

theorem storePayload_eq (payload : Webhook.ReplyPayload) (asks : List AskCall) :
    let stored := EvoclawPluginWechat.storePayload s.cacheView (cacheKey r.fromUser r.msgId)
      payload asks
    s.storePayload t r (withoutArticle payload) =
      { s.setPhase t (.leaving (match stored.payload with
          | .returned payload => some (withoutArticle payload)
          | .panicked => none)) with
        replies := stored.after.caches.reply } := by
  have key : cacheKey r.fromUser r.msgId = r.cacheKey := rfl
  rw [key, storePayload.eq_def]
  cases r.cacheKey with
  | none => cases payload <;> rfl
  | some key =>
      cases payload with
      | news article => rfl
      | text text =>
          dsimp only [withoutArticle, EvoclawPluginWechat.storePayload, cacheView]
          cases storeReply s.replies s.now s.now key text with
          | mk outcome replies => cases outcome <;> rfl

theorem lookupReply_view : (s.lookupReply t r).cacheView =
    (lookupPayload s.cacheView (cacheKey r.fromUser r.msgId)).2 := by
  rw [lookupReply_eq]
  cases cacheKey r.fromUser r.msgId <;> rfl

theorem storePayload_view (answer : Webhook.ReplyPayload) :
    (s.storePayload t r (withoutArticle answer)).cacheView =
      (EvoclawPluginWechat.storePayload s.cacheView (cacheKey r.fromUser r.msgId) answer
        []).after := by
  rw [storePayload_eq answer []]
  cases cacheKey r.fromUser r.msgId with
  | none => rfl
  | some key =>
      cases answer with
      | news _ => rfl
      | text text =>
          dsimp only [EvoclawPluginWechat.storePayload, cacheView]
          cases storeReply s.replies s.now s.now key text with
          | mk outcome replies => cases outcome <;> rfl

/-- What the store of a computed payload does to the cache. -/
def storesReply (r : Request) : List CacheRun.Act :=
  match r.cacheKey, r.phase with
  | some key, .computed (.text text) => [.storeReply key text]
  | _, _ => []

/-- What a step does to the reply cache and its clock. -/
def onCaches (s : Plugin n) : Act → List CacheRun.Act
  | .tick d => [.tick d]
  | .gcReplies => [.gcCaches]
  | .lookupReply t => ((s.requests t).bind Request.cacheKey).toList.map .lookupCachedReply
  | .storeReply t => (s.requests t).elim [] storesReply
  | _ => []

def Act.usesCaches : Act → Bool
  | .tick _ | .gcReplies | .lookupReply _ | .storeReply _ => true
  | _ => false

theorem onCaches_quiet {a : Act} (quiet : a.usesCaches = false) : s.onCaches a = [] := by
  cases a with
  | tick _ | gcReplies | lookupReply _ | storeReply _ => cases quiet
  | _ => rfl

theorem Turn.cacheView_same {a : Act} (turn : Turn s a s') (quiet : a.usesCaches = false) :
    s'.cacheView = s.cacheView := by
  have still : a.elapsed = 0 := by
    cases a with
    | tick _ => cases quiet
    | _ => rfl
  cases turn with
  | others _ replies now =>
      have now : s'.now = s.now := by
        rw [now, still]
        exact Int.add_zero _
      rw [cacheView, cacheView, replies, now]
  | received _ => rfl
  | moves _ _ _ _ replies now => rw [cacheView, cacheView, replies, now]
  | sweep | lookup _ _ | store _ _ => cases quiet

theorem sweep_view (hs : Calm s) :
    CacheRun.step s.cacheView .gcCaches = some (cacheView { s with
      replies := (sweepCache s.replies s.now replyCacheTtl CacheEntry.insertedAt).2 }) := by
  obtain ⟨_, replies⟩ := hs.cacheView.sweepReplies
  obtain ⟨_, nonces⟩ := hs.cacheView.sweepNonces
  have swept := hs.sweepCache
  simp only [CacheRun.step, Caches.gc, replies, nonces]
  rw [cacheView]
  dsimp only
  rw [swept]
  rfl

theorem lookup_view : Run CacheRun.step anyStep s.cacheView
    (r.cacheKey.toList.map .lookupCachedReply) (s.lookupReply t r).cacheView := by
  have key : cacheKey r.fromUser r.msgId = r.cacheKey := rfl
  rw [lookupReply_view, key]
  cases r.cacheKey with
  | none => exact .nil _
  | some key => exact .cons trivial rfl (.nil _)

theorem store_view {payload : ReplyPayload} (computed : r.phase = .computed payload) :
    Run CacheRun.step anyStep s.cacheView (storesReply r)
      (s.storePayload t r payload).cacheView := by
  have key : cacheKey r.fromUser r.msgId = r.cacheKey := rfl
  rw [storesReply, computed]
  cases payload with
  | news =>
      rw [storePayload.eq_def]
      cases r.cacheKey <;> exact .nil _
  | text text =>
      have stored := storePayload_view (s := s) (t := t) (r := r) (.text text)
      dsimp only [withoutArticle] at stored
      rw [stored, key]
      cases r.cacheKey with
      | none => exact .nil _
      | some key =>
          refine .cons trivial ?_ (.nil _)
          dsimp only [EvoclawPluginWechat.storePayload, CacheRun.step, cacheView]
          cases storeReply s.replies s.now s.now key text with
          | mk outcome replies => cases outcome <;> rfl

section
variable [NeZero n] {as bs : List Act} {key : String}

theorem calm_run (run : Run (step W cfg) anyStep (new : Plugin n) as s) : Calm s :=
  run.invariant (fun _ _ _ hs _ h => calm_turn hs (turn_of_step h)) ⟨le_rfl, rfl⟩

theorem cacheView_step {a : Act} (hs : Calm s) (h : s.step W cfg a = some s') :
    Run CacheRun.step anyStep s.cacheView (s.onCaches a) s'.cacheView := by
  have turn := turn_of_step h
  cases uses : a.usesCaches with
  | false =>
      rw [onCaches_quiet uses, turn.cacheView_same uses]
      exact .nil _
  | true =>
      cases a with
      | tick d =>
          cases h
          exact .cons trivial rfl (.nil _)
      | gcReplies =>
          cases h
          exact .cons trivial (sweep_view hs) (.nil _)
      | lookupReply t =>
          simp only [step] at h
          split at h
          · next hr =>
              cases h
              rw [onCaches, hr]
              exact lookup_view
          · cases h
      | storeReply t =>
          simp only [step] at h
          split at h
          · next hr =>
              cases h
              rw [onCaches, hr]
              exact store_view rfl
          · cases h
      | _ => cases uses

/-- The caches under a run go through what its steps do to them. -/
theorem cacheView_run (hs : Calm s) (run : Run (step W cfg) anyStep s as s') :
    Run CacheRun.step anyStep s.cacheView (project (step W cfg) onCaches s as) s'.cacheView :=
  run.project_run cacheView (fun _ _ _ hs _ h => calm_turn hs (turn_of_step h))
    (fun _ _ _ hs _ h => cacheView_step hs h) hs

/-- While a text lasts that was once under its key, a request leaves with a text and does not go
on to a bridge. -/
theorem request_leaves_with_text (before : Run (step W cfg) anyStep (new : Plugin n) as s)
    (run : Run (step W cfg) anyStep s bs s') (cached : s.cacheView.StillCached key s'.now)
    (hr : s'.requests t = some r) (hkey : r.cacheKey = some key) :
    ∃ text, ((s'.lookupReply t r).requests t).map Request.phase =
      some (.leaving (some (.text text))) := by
  have calm := calm_run before
  have viewed := cacheView_run ⟨le_rfl, rfl⟩ before
  have timely := ((CacheRun.timely_new rfl le_rfl).run viewed).1
  have viewed' := cacheView_run calm run
  obtain ⟨timely', _⟩ := timely.run viewed'
  have still := timely.run_stillCached viewed' (Int.le_refl _) cached
  obtain ⟨found, looked, isSome⟩ :=
    lookupPayload_found timely'.toClean (cacheKey r.fromUser r.msgId)
  obtain ⟨text, rfl⟩ := Option.isSome_iff_exists.mp (isSome.mpr ⟨key, hkey, still⟩)
  refine ⟨text, ?_⟩
  rw [lookupReply_eq]
  dsimp only
  rw [looked, setPhase_requests_self _ hr]
  rfl

end
end Plugin
end EvoclawPluginWechat
