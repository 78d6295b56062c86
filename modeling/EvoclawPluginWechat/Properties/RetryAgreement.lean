import EvoclawPluginWechat.Properties.RequestSteps

/-!
The retries of a message agree with the answer that was stored for it: the lock of the
conversation keeps them apart from the computation, and the cache from then on.
-/
namespace EvoclawPluginWechat
namespace Plugin
variable {n : Nat} {W : Wire} {cfg : HandlerCfg} {s s' : Plugin n} {t : TaskId} {r : Request}

/-- The clock is past its origin, no panic has poisoned the reply cache. -/
structure Calm (s : Plugin n) : Prop where
  now : 0 ≤ s.now
  clean : s.replies.poisoned = false

/-- What any access to the reply cache leaves in it. -/
def freshReplies (s : Plugin n) : Table String CacheEntry :=
  Table.retain (youngerThan (s.now - (replyCacheTtl : Int))) s.replies.value

theorem Calm.sub (hs : Calm s) :
    Instant.sub s.now replyCacheTtl = some (s.now - (replyCacheTtl : Int)) :=
  Instant.sub_of_nonneg hs.now (by decide)

theorem Calm.lookupCachedReply (hs : Calm s) (key : String) :
    lookupCachedReply s.replies s.now key =
      (.returned ((s.freshReplies.lookup key).map CacheEntry.replyText),
        ⟨s.freshReplies, false⟩) :=
  lookupCachedReply_of_sub hs.clean hs.sub key

theorem Calm.storeReply (hs : Calm s) (key reply : String) :
    storeReply s.replies s.now s.now key reply =
      (.returned (), ⟨s.freshReplies.insert key ⟨s.now, reply⟩, false⟩) :=
  storeReply_of_sub hs.clean hs.sub s.now key reply

theorem Calm.sweepCache (hs : Calm s) :
    (sweepCache s.replies s.now replyCacheTtl CacheEntry.insertedAt).2 =
      ⟨s.freshReplies, false⟩ := by
  obtain ⟨_, swept⟩ := sweepCache_of_sub hs.clean hs.sub
  rw [swept]
  rfl

theorem Calm.lookupReply_hit (hs : Calm s) {key : String} {e : CacheEntry}
    (hkey : r.cacheKey = some key) (he : s.freshReplies.lookup key = some e) :
    s.lookupReply t r = { s.setPhase t (.leaving (some (.text e.replyText))) with
      replies := ⟨s.freshReplies, false⟩ } := by
  simp only [lookupReply, hkey, hs.lookupCachedReply, he, Option.map_some]

theorem Calm.lookupReply_replies (hs : Calm s) :
    (s.lookupReply t r).replies = s.replies ∨
      (s.lookupReply t r).replies = ⟨s.freshReplies, false⟩ := by
  unfold lookupReply
  split
  · exact .inl rfl
  · next key _ =>
      right
      rw [hs.lookupCachedReply key]
      cases s.freshReplies.lookup key with
      | none => rfl
      | some e => rfl

theorem Calm.storePayload_text (hs : Calm s) {key text : String} (hkey : r.cacheKey = some key) :
    s.storePayload t r (.text text) = { s.setPhase t (.leaving (some (.text text))) with
      replies := ⟨s.freshReplies.insert key ⟨s.now, text⟩, false⟩ } := by
  simp only [storePayload, hkey, hs.storeReply]

theorem Calm.storePayload_replies (hs : Calm s) (payload : ReplyPayload) :
    (s.storePayload t r payload).replies = s.replies ∨
      ∃ key text, r.cacheKey = some key ∧ (s.storePayload t r payload).replies =
        ⟨s.freshReplies.insert key ⟨s.now, text⟩, false⟩ := by
  cases hkey : r.cacheKey with
  | none =>
      left
      simp only [storePayload, hkey]
      rfl
  | some key =>
      cases payload with
      | text text =>
          rw [hs.storePayload_text hkey]
          exact .inr ⟨key, text, rfl, rfl⟩
      | news =>
          left
          simp only [storePayload, hkey]
          rfl

theorem lookupReply_now : (s.lookupReply t r).now = s.now := by
  unfold lookupReply
  split
  · rfl
  · split <;> rfl

theorem storePayload_now {payload : ReplyPayload} :
    (s.storePayload t r payload).now = s.now := by
  unfold storePayload
  split
  · split <;> rfl
  · rfl

theorem Turn.now_le {a : Act} (turn : Turn s a s') : s.now ≤ s'.now := by
  cases turn with
  | others _ _ now => exact now ▸ Int.le_add_of_nonneg_right (Int.natCast_nonneg _)
  | sweep | received _ => exact le_rfl
  | lookup _ _ => rw [lookupReply_now]
  | store _ _ => rw [storePayload_now]
  | moves _ _ _ _ _ now => rw [now]

theorem calm_turn {a : Act} (hs : Calm s) (turn : Turn s a s') : Calm s' := by
  have later := turn.now_le
  cases turn with
  | others _ replies _ => exact ⟨Int.le_trans hs.now later, replies ▸ hs.clean⟩
  | sweep => exact ⟨hs.now, by rw [hs.sweepCache]⟩
  | received _ => exact ⟨hs.now, hs.clean⟩
  | lookup _ _ =>
      refine ⟨by rw [lookupReply_now]; exact hs.now, ?_⟩
      obtain replies | replies := hs.lookupReply_replies
      · rw [replies, hs.clean]
      · rw [replies]
  | store _ _ =>
      refine ⟨by rw [storePayload_now]; exact hs.now, ?_⟩
      obtain replies | ⟨_, _, _, replies⟩ := hs.storePayload_replies _
      · rw [replies, hs.clean]
      · rw [replies]
  | moves _ _ _ _ replies now => exact ⟨now ▸ hs.now, replies ▸ hs.clean⟩

/-- The answer is in the cache since `t₀`; while it lasts, no delivery computes another. -/
structure Kept (key text : String) (t₀ : Int) (s : Plugin n) : Prop where
  since : t₀ ≤ s.now
  entry : s.now < t₀ + (replyCacheTtl : Int) → s.replies.value.lookup key = some ⟨t₀, text⟩
  idle : s.now < t₀ + (replyCacheTtl : Int) → ∀ t q, s.requests t = some q →
    q.cacheKey = some key → q.phase.computing = false

section
variable {key text : String} {t₀ : Int}

theorem Kept.fresh (hs : Kept key text t₀ s) (soon : s.now < t₀ + (replyCacheTtl : Int)) :
    s.freshReplies.lookup key = some ⟨t₀, text⟩ := by
  rw [freshReplies, Table.lookup_retain_eq_some]
  refine ⟨hs.entry soon, ?_⟩
  exact decide_eq_true (show s.now - (replyCacheTtl : Int) < t₀ by omega)

theorem Kept.idle_after (hs : Kept key text t₀ s) {q : Request} {phase : RequestPhase}
    (soon : s.now < t₀ + (replyCacheTtl : Int)) (hr : s.requests t = some r)
    (safe : r.cacheKey = some key → phase.computing = true → r.phase.computing = true)
    {t' : TaskId} (hq : (s.setPhase t phase).requests t' = some q)
    (hkey : q.cacheKey = some key) : q.phase.computing = false := by
  rw [setPhase_requests] at hq
  split at hq
  · rw [hr] at hq
    obtain rfl := Option.some.inj hq
    cases computing : phase.computing with
    | false => rfl
    | true =>
        have before := safe hkey computing
        rw [hs.idle soon t r hr hkey] at before
        cases before
  · exact hs.idle soon t' q hq hkey

theorem kept_turn {a : Act} (hs : Kept key text t₀ s) (calm : Calm s) (turn : Turn s a s') :
    Kept key text t₀ s' := by
  have later := turn.now_le
  cases turn with
  | others requests replies _ =>
      refine ⟨Int.le_trans hs.since later, fun soon => ?_, fun soon => ?_⟩
      · rw [replies]
        exact hs.entry (Int.lt_of_le_of_lt later soon)
      · rw [requests]
        exact hs.idle (Int.lt_of_le_of_lt later soon)
  | sweep =>
      refine ⟨hs.since, fun soon => ?_, hs.idle⟩
      change (sweepCache _ _ _ _).2.value.lookup key = _
      rw [calm.sweepCache]
      exact hs.fresh soon
  | received hr =>
      refine ⟨hs.since, hs.entry, fun soon t' q hq hkey => ?_⟩
      rw [setRequest_requests] at hq
      split at hq
      · obtain rfl := Option.some.inj hq
        rfl
      · exact hs.idle soon t' q hq hkey
  | @lookup t r hr entered =>
      refine ⟨by rw [lookupReply_now]; exact hs.since, fun soon => ?_, fun soon t' q hq hkey => ?_⟩
      · rw [lookupReply_now] at soon
        obtain replies | replies := calm.lookupReply_replies (t := t) (r := r)
        · rw [replies]
          exact hs.entry soon
        · rw [replies]
          exact hs.fresh soon
      · rw [lookupReply_now] at soon
        by_cases delivers : r.cacheKey = some key
        · rw [calm.lookupReply_hit delivers (hs.fresh soon)] at hq
          exact hs.idle_after soon hr (fun _ h => by cases h) hq hkey
        · obtain ⟨phase, _, requests⟩ := lookupReply_phase (s := s) (t := t) entered
          rw [requests] at hq
          exact hs.idle_after soon hr (fun h => absurd h delivers) hq hkey
  | @store t r payload hr computed =>
      refine ⟨by rw [storePayload_now]; exact hs.since, fun soon => ?_, fun soon t' q hq hkey => ?_⟩
      · rw [storePayload_now] at soon
        obtain replies | ⟨key', text', hkey', replies⟩ :=
          calm.storePayload_replies (t := t) (r := r) payload
        · rw [replies]
          exact hs.entry soon
        · have other : key ≠ key' := by
            rintro rfl
            have busy := hs.idle soon t r hr hkey'
            rw [computed] at busy
            cases busy
          rw [replies, Table.lookup_insert_eq, if_neg other]
          exact hs.fresh soon
      · rw [storePayload_now] at soon
        obtain ⟨left, _, requests⟩ := storePayload_phase (s := s) (t := t) computed
        rw [requests] at hq
        exact hs.idle_after soon hr (fun _ h => by cases h) hq hkey
  | moves hr next outside requests replies now =>
      refine ⟨now ▸ hs.since, fun soon => ?_, fun soon t' q hq hkey => ?_⟩
      · rw [replies]
        exact hs.entry (now ▸ soon)
      · rw [requests] at hq
        refine hs.idle_after (now ▸ soon) hr (fun _ computing => ?_) hq hkey
        exact (next.computing_before computing).resolve_right outside

end

/-- No bridge was ever asked anything for the request. -/
def Unasked (s : Plugin n) (t : TaskId) : Prop :=
  ∀ b stage, (s.workers b).bridge.asks (t, stage) = none

theorem unasked_move {a : Act} (hu : s.Unasked t)
    (idle : ∀ q stage, s.requests t = some q → q.phase ≠ .checkout stage)
    (m : Move W cfg s a s') : s'.Unasked t := by
  intro b stage
  refine Option.eq_none_iff_forall_not_mem.mpr fun x hx => ?_
  have before : ∀ msg p, (s.workers b).bridge.place (t, stage) ≠ some (msg, p) := by
    intro msg p h
    obtain ⟨cell, ha⟩ := Bridge.place_eq_some.mp h
    cases (hu b stage).symm.trans ha
  obtain same | ⟨op, _, nocall, hop⟩ | ⟨t', r, stage', ms, rfl, hr, hp, _, hop⟩ := m.worker_after b
  · rw [same] at hx
    cases (hu b stage).symm.trans hx
  · obtain ⟨p, hp, _⟩ | ⟨call, _⟩ := (Worker.move_of_step hop).place_before (Bridge.place_of hx)
    · exact before _ p hp
    · exact nocall _ _ call
  · obtain ⟨p, hp, _⟩ | ⟨call, _⟩ := (Worker.move_of_step hop).place_before (Bridge.place_of hx)
    · exact before _ p hp
    · rw [Worker.Act.bridge.injEq, Bridge.Act.call.injEq, Prod.mk.injEq] at call
      exact idle r stage' (call.1.1 ▸ hr) hp

/-- The request goes away with this text, and no bridge was asked for it. -/
structure Returns (s : Plugin n) (t : TaskId) (text : String) : Prop where
  settled : ∃ q, s.requests t = some q ∧ q.phase.settled = some (.text text)
  unasked : s.Unasked t

theorem returns_step [NeZero n] {a : Act} {text : String} (hs : s.Returns t text)
    (h : s.step W cfg a = some s') : s'.Returns t text := by
  obtain ⟨q, hq, settled⟩ := hs.settled
  constructor
  · obtain ⟨phase, hq', next⟩ := (turn_of_step h).request_after hq
    refine ⟨_, hq', ?_⟩
    obtain same | next := next
    · exact (congrArg RequestPhase.settled same).trans settled
    · exact next.settled_after settled
  · refine unasked_move hs.unasked (fun q' stage hq' checkout => ?_) (move_of_step h)
    obtain rfl := Option.some.inj (hq.symm.trans hq')
    rw [checkout] at settled
    cases settled

def deliveryKey (fromUser msgId : String) : String := fromUser ++ ":" ++ msgId

/-- A message under the cache key of the pair is one of that sender with that id. -/
def keysDiffer (fromUser msgId : String) (_s : Plugin n) (a : Act) : Prop :=
  ∀ t u msg id, a = .receive t u msg id →
    (Request.mk u msg id .dispatched).cacheKey = some (deliveryKey fromUser msgId) →
    u = fromUser ∧ id = some msgId

/-- What holds in every run in which the cache keys of other messages differ. -/
structure Orderly (cfg : HandlerCfg) (fromUser msgId : String) (s : Plugin n) : Prop where
  attended : Attended cfg s
  calm : Calm s
  sender : ∀ t q, s.requests t = some q → q.cacheKey = some (deliveryKey fromUser msgId) →
    q.fromUser = fromUser
  early : ∀ t q, s.requests t = some q → q.phase.early = true → s.Unasked t

section
variable {fromUser msgId : String}

theorem orderly_new [NeZero n] : Orderly cfg fromUser msgId (new : Plugin n) where
  attended := attended_new
  calm := ⟨le_rfl, rfl⟩
  sender _ _ h := by cases h
  early _ _ h := by cases h

theorem orderly_step [NeZero n] {a : Act} (hs : Orderly cfg fromUser msgId s)
    (keys : keysDiffer fromUser msgId s a) (h : s.step W cfg a = some s') :
    Orderly cfg fromUser msgId s' := by
  have m := move_of_step h
  have turn := turn_of_step h
  refine ⟨attended_move hs.attended m, calm_turn hs.calm turn, fun t q hq hkey => ?_,
    fun t q hq early => ?_⟩
  · obtain ⟨_, u, msg, id, rfl, rfl⟩ | ⟨q₀, hq₀, same, _⟩ := turn.request_before hq
    · exact (keys t u msg id rfl hkey).1
    · rw [same] at hkey ⊢
      exact hs.sender t q₀ hq₀ hkey
  · obtain ⟨none, u, msg, id, rfl, rfl⟩ | ⟨q₀, hq₀, same, next⟩ := turn.request_before hq
    · have unasked : s.Unasked t := by
        intro b stage
        refine Option.eq_none_iff_forall_not_mem.mpr fun x hx => ?_
        obtain ⟨r, hr, _⟩ := hs.attended.asked b _ x.msg x.phase (Bridge.place_of hx)
        cases none.symm.trans hr
      exact unasked_move unasked (fun q' _ hq' => by cases none.symm.trans hq') m
    · have before : q₀.phase.early = true := by
        obtain same | next := next
        · rw [← same]
          exact early
        · exact next.early_before early
      refine unasked_move (hs.early t q₀ hq₀ before) (fun q' stage hq' checkout => ?_) m
      obtain rfl := Option.some.inj (hq₀.symm.trans hq')
      rw [checkout] at before
      cases before

theorem Orderly.one_inside (hs : Orderly cfg fromUser msgId s) {t t' : TaskId} {q q' : Request}
    (hq : s.requests t = some q) (hq' : s.requests t' = some q')
    (hkey : q.cacheKey = some (deliveryKey fromUser msgId))
    (hkey' : q'.cacheKey = some (deliveryKey fromUser msgId))
    (inside : q.phase.hold = some .inside) (inside' : q'.phase.hold = some .inside) : t = t' := by
  obtain ⟨m, hm⟩ := hs.attended.handle t q _ hq inside
  obtain ⟨m', hm'⟩ := hs.attended.handle t' q' _ hq' inside'
  have same : q'.cid cfg = q.cid cfg := by
    rw [Request.cid, Request.cid, hs.sender t q hq hkey, hs.sender t' q' hq' hkey']
  rw [same] at hm'
  exact hs.attended.linked.inside_unique ⟨m, hm⟩ ⟨m', hm'⟩

end
end Plugin

/-- The message has this sender and this id. -/
def Request.Delivers (r : Request) (fromUser msgId : String) : Prop :=
  r.fromUser = fromUser ∧ r.msgId = some msgId

theorem Request.cacheKey_of_delivers {r : Request} {fromUser msgId : String}
    (nonempty : msgId ≠ "") (h : r.Delivers fromUser msgId) :
    r.cacheKey = some (Plugin.deliveryKey fromUser msgId) := by
  rw [Request.cacheKey, EvoclawPluginWechat.cacheKey, h.2, h.1]
  simp [Plugin.deliveryKey, nonempty]

namespace Plugin
variable {n : Nat} {W : Wire} {cfg : HandlerCfg} {s s' : Plugin n} {t : TaskId} {r : Request}
variable {fromUser msgId text : String} [NeZero n]

theorem lookupReply_enabled (h : s.step W cfg (.lookupReply t) = some s')
    (hr : s.requests t = some r) : r.phase = .entered ∧ s' = s.lookupReply t r := by
  simp only [step, hr] at h
  split at h
  · next same =>
      cases Option.some.inj same
      exact ⟨rfl, (Option.some.inj h).symm⟩
  · cases h

theorem storeReply_enabled {payload : ReplyPayload} (h : s.step W cfg (.storeReply t) = some s')
    (hr : s.requests t = some r) (computed : r.phase = .computed payload) :
    s' = s.storePayload t r payload := by
  obtain ⟨fromUser, userMsg, msgId, phase⟩ := r
  obtain rfl : phase = .computed payload := computed
  simp only [step, hr] at h
  exact (Option.some.inj h).symm

theorem grant_enabled (h : s.step W cfg (.grant t) = some s') (hr : s.requests t = some r) :
    s'.requests t = some { r with phase := .entered } := by
  simp only [step, hr] at h
  split at h
  · next same =>
      cases Option.some.inj same
      obtain ⟨s₁, h₁, rfl⟩ := Option.map_eq_some_iff.mp h
      obtain ⟨ser, _, rfl⟩ := runSerializer_eq_some.mp h₁
      exact setPhase_requests_self .entered hr
  · cases h

theorem Orderly.kept_store (hs : Orderly cfg fromUser msgId s) (hr : s.requests t = some r)
    (hkey : r.cacheKey = some (deliveryKey fromUser msgId))
    (computed : r.phase = .computed (.text text))
    (h : s.step W cfg (.storeReply t) = some s') :
    Kept (deliveryKey fromUser msgId) text s.now s' ∧ s'.now = s.now := by
  have inside : r.phase.hold = some .inside := by rw [computed]; rfl
  rw [storeReply_enabled h hr computed, hs.calm.storePayload_text hkey]
  refine ⟨⟨le_rfl, fun _ => ?_, fun _ t' q hq hkey' => ?_⟩, rfl⟩
  · exact AList.lookup_insert _
  · change (s.setPhase t _).requests t' = some q at hq
    rw [setPhase_requests] at hq
    split at hq
    · rw [hr] at hq
      cases hq
      rfl
    · next other =>
        cases computing : q.phase.computing with
        | false => rfl
        | true =>
            have inside' := RequestPhase.hold_of_computing computing
            exact absurd (hs.one_inside hq hr hkey' hkey inside' inside) other

/-- The delivery is at its computation, or gone. -/
structure Stays (t : TaskId) (key : String) (s : Plugin n) : Prop where
  stays : ∃ q, s.requests t = some q ∧ q.cacheKey = some key ∧
    (q.phase.hold = some .inside ∨ q.phase.ended = true)

theorem stays_step {a : Act} {key : String} (hs : Stays t key s)
    (h : s.step W cfg a = some s') : Stays t key s' := by
  obtain ⟨q, hq, hkey, place⟩ := hs.stays
  obtain ⟨phase, hq', next⟩ := (turn_of_step h).request_after hq
  refine ⟨_, hq', hkey, ?_⟩
  obtain same | next := next
  · change phase.hold = some .inside ∨ phase.ended = true
    rw [same]
    exact place
  · obtain inside | ended := place
    · exact next.inside_after inside
    · cases next.not_ended.symm.trans ended

theorem ended_step {a : Act} (hs : ∃ q, s.requests t = some q ∧ q.phase.ended = true)
    (h : s.step W cfg a = some s') : ∃ q, s'.requests t = some q ∧ q.phase.ended = true := by
  obtain ⟨q, hq, ended⟩ := hs
  obtain ⟨phase, hq', next⟩ := (turn_of_step h).request_after hq
  refine ⟨_, hq', ?_⟩
  obtain same | next := next
  · exact (congrArg RequestPhase.ended same).trans ended
  · cases next.not_ended.symm.trans ended

open Transition

theorem orderly_run {as : List Act} (hs : Orderly cfg fromUser msgId s)
    (run : Run (step W cfg) (keysDiffer fromUser msgId) s as s') :
    Orderly cfg fromUser msgId s' :=
  run.invariant (fun _ _ _ hs keys h => orderly_step hs keys h) hs

/-- While one delivery computes, no other one looks up. -/
theorem Orderly.lookup_waits {first retry : TaskId} {as bs : List Act} {q p : Request}
    {m : Plugin n} (hs : Orderly cfg fromUser msgId s)
    (hfirst : Stays first (deliveryKey fromUser msgId) s)
    (before : Run (step W cfg) (keysDiffer fromUser msgId) s as m)
    (after : Run (step W cfg) (keysDiffer fromUser msgId) m bs s')
    (hq : s'.requests first = some q) (unfinished : q.phase.ended = false)
    (hp : m.requests retry = some p) (hkey : p.cacheKey = some (deliveryKey fromUser msgId))
    (other : retry ≠ first) : m.step W cfg (.lookupReply retry) = none := by
  refine Option.eq_none_iff_forall_not_mem.mpr fun s₁ h => ?_
  obtain ⟨entered, _⟩ := lookupReply_enabled h hp
  have orderly := orderly_run hs before
  have stays := before.invariant (P := Stays first (deliveryKey fromUser msgId))
    (fun _ _ _ hs _ h => stays_step hs h) hfirst
  obtain ⟨q₁, hq₁, hkey₁, inside | ended⟩ := stays.stays
  · have inside' : p.phase.hold = some .inside := by rw [entered]; rfl
    exact other (orderly.one_inside hp hq₁ hkey hkey₁ inside' inside)
  · obtain ⟨q', hq', ended'⟩ := after.invariant
      (P := fun s => ∃ q, s.requests first = some q ∧ q.phase.ended = true)
      (fun _ _ _ hs _ h => ended_step hs h) ⟨q₁, hq₁, ended⟩
    obtain rfl := Option.some.inj (hq.symm.trans hq')
    cases unfinished.symm.trans ended'

theorem Orderly.returns_lookup {key : String} {t₀ : Int} (hs : Orderly cfg fromUser msgId s)
    (kept : Kept key text t₀ s) (soon : s.now < t₀ + (replyCacheTtl : Int))
    (hr : s.requests t = some r) (hkey : r.cacheKey = some key)
    (h : s.step W cfg (.lookupReply t) = some s') : s'.Returns t text := by
  obtain ⟨entered, rfl⟩ := lookupReply_enabled h hr
  have early : r.phase.early = true := by rw [entered]; rfl
  rw [hs.calm.lookupReply_hit hkey (kept.fresh soon)]
  exact ⟨⟨_, setPhase_requests_self _ hr, rfl⟩, hs.early t r hr early⟩

theorem retries_agree {s₁ s₂ s₃ s₄ : Plugin n} (nonempty : msgId ≠ "")
    (h : Reachable (step W cfg) (keysDiffer fromUser msgId) (· = (new : Plugin n)) s₁)
    {first : TaskId} {q : Request} (hq : s₁.requests first = some q)
    (delivers : q.Delivers fromUser msgId) (enters : s₁.step W cfg (.grant first) = some s₂)
    {as : List Act} (computes : Run (step W cfg) (keysDiffer fromUser msgId) s₂ as s₃)
    (computed : (s₃.requests first).map Request.phase = some (.computed (.text text)))
    (stores : s₃.step W cfg (.storeReply first) = some s₄) :
    (∀ pre post s retry p, as = pre ++ post →
      Run (step W cfg) (keysDiffer fromUser msgId) s₂ pre s → s.requests retry = some p →
      p.Delivers fromUser msgId → retry ≠ first → s.step W cfg (.lookupReply retry) = none) ∧
    ∀ bs s₅ retry p s₆, Run (step W cfg) (keysDiffer fromUser msgId) s₄ bs s₅ →
      s₅.requests retry = some p → p.Delivers fromUser msgId →
      s₅.now < s₄.now + (replyCacheTtl : Int) →
      s₅.step W cfg (.lookupReply retry) = some s₆ →
      ∀ cs s₇, Run (step W cfg) (keysDiffer fromUser msgId) s₆ cs s₇ → s₇.Returns retry text := by
  have orderly₁ : Orderly cfg fromUser msgId s₁ :=
    h.invariant (fun _ hs => hs ▸ orderly_new) fun _ _ _ hs keys h => orderly_step hs keys h
  have quiet : keysDiffer fromUser msgId s₁ (.grant first) := fun _ _ _ _ h => by cases h
  have orderly₂ := orderly_step orderly₁ quiet enters
  have entered := grant_enabled enters hq
  have stays : Stays first (deliveryKey fromUser msgId) s₂ :=
    ⟨_, entered, Request.cacheKey_of_delivers nonempty delivers, .inl rfl⟩
  have orderly₃ := orderly_run orderly₂ computes
  obtain ⟨q₃, hq₃, hphase⟩ := Option.map_eq_some_iff.mp computed
  have hkey₃ : q₃.cacheKey = some (deliveryKey fromUser msgId) := by
    have stays₃ := computes.invariant (P := Stays first (deliveryKey fromUser msgId))
      (fun _ _ _ hs _ h => stays_step hs h) stays
    obtain ⟨q', hq', hkey, _⟩ := stays₃.stays
    exact Option.some.inj (hq₃.symm.trans hq') ▸ hkey
  constructor
  · rintro pre post s retry p rfl before hp delivers' other
    obtain ⟨m, before', after⟩ := computes.split
    obtain rfl := before.deterministic before'
    exact orderly₂.lookup_waits stays before after hq₃ (by rw [hphase]; rfl) hp
      (Request.cacheKey_of_delivers nonempty delivers') other
  · intro bs s₅ retry p s₆ run hp delivers' soon looks cs s₇ rest
    obtain ⟨kept, now⟩ := orderly₃.kept_store hq₃ hkey₃ hphase stores
    have quiet₃ : keysDiffer fromUser msgId s₃ (.storeReply first) := fun _ _ _ _ h => by cases h
    have inv := run.invariant (P := fun s => Orderly cfg fromUser msgId s ∧
        Kept (deliveryKey fromUser msgId) text s₃.now s)
      (fun _ _ _ hs keys h =>
        ⟨orderly_step hs.1 keys h, kept_turn hs.2 hs.1.calm (turn_of_step h)⟩)
      ⟨orderly_step orderly₃ quiet₃ stores, kept⟩
    rw [now] at soon
    have returns := inv.1.returns_lookup inv.2 soon hp
      (Request.cacheKey_of_delivers nonempty delivers') looks
    exact rest.invariant (fun _ _ _ hs _ h => returns_step hs h) returns

/-- The sender and the id of the message that comes in, if one does. -/
def Act.message : Act → Option (String × Option String)
  | .receive _ fromUser _ msgId => some (fromUser, msgId)
  | _ => none

omit [NeZero n] in
theorem keysDiffer_of_message {a : Act} (h : ∀ x ∈ a.message, x = (fromUser, some msgId)) :
    keysDiffer fromUser msgId s a := by
  rintro t u msg id rfl _
  exact Prod.mk.inj (h _ rfl)

/-- The answer comes from the router; the retry has another text. -/
theorem retries_agree_second_delivery : ∃ s : Plugin 1,
    Reachable (step serdeJson plainCfg) (keysDiffer "fan" "77") (· = new) s ∧
      s.Returns 1 "pong" := by
  obtain ⟨s₁, s₂, s₃, s₄, s₅, s₆, q, p, run₁, hq, delivers, enters, run₂, computed, stores, run₃,
      hp, delivers', soon, looks⟩ :
      ∃ (s₁ s₂ s₃ s₄ s₅ s₆ : Plugin 1) (q p : Request),
        exec (step serdeJson plainCfg) new
          [.receive 0 "fan" "hi" (some "77"), .acquire 0, .lockOwned 0] = some s₁ ∧
        s₁.requests 0 = some q ∧ q.Delivers "fan" "77" ∧
        step serdeJson plainCfg s₁ (.grant 0) = some s₂ ∧
        exec (step serdeJson plainCfg) s₂ [.lookupReply 0, .route 0 (.text "pong")] = some s₃ ∧
        (s₃.requests 0).map Request.phase = some (.computed (.text "pong")) ∧
        step serdeJson plainCfg s₃ (.storeReply 0) = some s₄ ∧
        exec (step serdeJson plainCfg) s₄ [.receive 1 "fan" "hello" (some "77"), .acquire 1,
          .lockOwned 1, .release 0, .grant 1, .tick 59000000000] = some s₅ ∧
        s₅.requests 1 = some p ∧ p.Delivers "fan" "77" ∧
        s₅.now < s₄.now + (replyCacheTtl : Int) ∧
        step serdeJson plainCfg s₅ (.lookupReply 1) = some s₆ :=
    ⟨_, _, _, _, _, _, _, _, rfl, rfl, ⟨rfl, rfl⟩, rfl, rfl, rfl, rfl, rfl, rfl, ⟨rfl, rfl⟩,
      by decide, rfl⟩
  have guard : ∀ {as : List Act} {s s' : Plugin 1}, exec (step serdeJson plainCfg) s as = some s' →
      (∀ a ∈ as, ∀ x ∈ a.message, x = ("fan", some "77")) →
      Run (step serdeJson plainCfg) (keysDiffer "fan" "77") s as s' := fun h all =>
    (run_iff_exec.mpr h).guard fun a ha _ => keysDiffer_of_message (all a ha)
  have computes := guard run₂ (by decide)
  have later := guard run₃ (by decide)
  have reached₁ : Reachable (step serdeJson plainCfg) (keysDiffer "fan" "77") (· = new) s₁ :=
    ⟨new, _, rfl, guard run₁ (by decide)⟩
  have retry := (retries_agree (by decide) reached₁ hq delivers enters computes computed stores).2
    _ s₅ 1 p s₆ later hp delivers' soon looks [] s₆ (.nil s₆)
  have quiet : ∀ {s : Plugin 1} {a : Act}, a.message = none → keysDiffer "fan" "77" s a :=
    fun none => keysDiffer_of_message fun x hx => by cases none.symm.trans hx
  have reached : Reachable (step serdeJson plainCfg) (keysDiffer "fan" "77") (· = new) s₆ :=
    reached₁.run ((Run.cons (quiet rfl) enters computes).append
      (.cons (quiet rfl) stores (later.append (.cons (quiet rfl) looks (.nil s₆)))))
  exact ⟨s₆, reached, retry⟩

end Plugin
end EvoclawPluginWechat
