import EvoclawPluginWechat.Core.Caches
import EvoclawPluginWechat.Library.Runs

/-!
What one step does to the two caches while no panic has poisoned them: an entry was there
before or is stored now, and a reply that is not yet too old stays or makes way for one that
is stored now.
-/
namespace EvoclawPluginWechat
namespace CacheRun
open Transition
variable {s s' : CacheRun} {a : Act} {as : List Act} {b t : Int} {key : String} {e : CacheEntry}

/-- The clock is past its origin, no panic has poisoned a cache. -/
structure Clean (s : CacheRun) : Prop where
  now : 0 ≤ s.now
  reply : s.caches.reply.poisoned = false
  nonce : s.caches.nonce.poisoned = false

theorem Clean.subReply (h : s.Clean) :
    Instant.sub s.now replyCacheTtl = some (s.now - (replyCacheTtl : Int)) :=
  Instant.sub_of_nonneg h.now (by decide)

theorem Clean.subNonce (h : s.Clean) :
    Instant.sub s.now (Duration.fromSecs replayWindowSecs.toNat) =
      some (s.now - (Duration.fromSecs 300 : Int)) :=
  Instant.sub_of_nonneg h.now (by decide)

structure Follows (s s' : CacheRun) : Prop where
  clean : s'.Clean
  later : s.now ≤ s'.now
  replies : ∀ key e, s'.caches.reply.value.lookup key = some e →
    s.caches.reply.value.lookup key = some e ∨ e.insertedAt = s.now
  nonces : ∀ nonce t, s'.caches.nonce.value.lookup nonce = some t →
    s.caches.nonce.value.lookup nonce = some t ∨ t = s.now
  kept : ∀ key e, s.caches.reply.value.lookup key = some e →
    s.now < e.insertedAt + (replyCacheTtl : Int) →
    ∃ e', s'.caches.reply.value.lookup key = some e' ∧ (e' = e ∨ e'.insertedAt = s.now)

theorem lookup_younger {replies : Table String CacheEntry} :
    (Table.retain (youngerThan (t - (replyCacheTtl : Int))) replies).lookup key = some e ↔
      replies.lookup key = some e ∧ t < e.insertedAt + (replyCacheTtl : Int) := by
  rw [Table.lookup_retain_eq_some, youngerThan, decide_eq_true_eq]
  exact and_congr_right fun _ => by omega

theorem Clean.follows_retain (h : s.Clean) :
    Follows s { s with caches.reply :=
      ⟨Table.retain (youngerThan (s.now - (replyCacheTtl : Int))) s.caches.reply.value,
        false⟩ } where
  clean := ⟨h.now, rfl, h.nonce⟩
  later := Int.le_refl _
  replies _ _ he := .inl (lookup_younger.mp he).1
  nonces _ _ ht := .inl ht
  kept _ e he young := ⟨e, lookup_younger.mpr ⟨he, young⟩, .inl rfl⟩

theorem Clean.follows_store (h : s.Clean) (key reply : String) :
    Follows s { s with caches.reply :=
      ⟨(Table.retain (youngerThan (s.now - (replyCacheTtl : Int))) s.caches.reply.value).insert key
        ⟨s.now, reply⟩, false⟩ } where
  clean := ⟨h.now, rfl, h.nonce⟩
  later := Int.le_refl _
  replies key' e he := by
    obtain ⟨_, rfl⟩ | ⟨_, old⟩ := Table.lookup_insert_eq_some.mp he
    · exact .inr rfl
    · exact .inl (lookup_younger.mp old).1
  nonces _ _ ht := .inl ht
  kept key' e he young := by
    by_cases same : key' = key
    · exact ⟨⟨s.now, reply⟩, Table.lookup_insert_eq_some.mpr (.inl ⟨same, rfl⟩), .inr rfl⟩
    · exact ⟨e, Table.lookup_insert_eq_some.mpr
        (.inr ⟨same, lookup_younger.mpr ⟨he, young⟩⟩), .inl rfl⟩

theorem Clean.sweepReplies (h : s.Clean) : ∃ evicted,
    sweepCache s.caches.reply s.now replyCacheTtl CacheEntry.insertedAt =
      (.returned evicted, ⟨Table.retain (fun _ e => decide (e.insertedAt >
        s.now - (replyCacheTtl : Int))) s.caches.reply.value, false⟩) :=
  sweepCache_of_sub h.reply h.subReply

theorem Clean.sweepNonces (h : s.Clean) : ∃ evicted,
    sweepCache s.caches.nonce s.now (Duration.fromSecs replayWindowSecs.toNat) id =
      (.returned evicted, ⟨Table.retain (fun _ t => decide (id t >
        s.now - (Duration.fromSecs 300 : Int))) s.caches.nonce.value, false⟩) :=
  sweepCache_of_sub h.nonce h.subNonce

theorem Clean.follows_gc (h : s.Clean) :
    Follows s { s with caches := (s.caches.gc s.now s.now).2 } := by
  obtain ⟨_, replies⟩ := h.sweepReplies
  obtain ⟨_, nonces⟩ := h.sweepNonces
  rw [Caches.gc, replies]
  dsimp only
  rw [nonces]
  have swept := h.follows_retain
  refine ⟨⟨h.now, rfl, rfl⟩, Int.le_refl _, swept.replies, fun nonce t ht => .inl ?_, swept.kept⟩
  exact (Table.lookup_retain_eq_some.mp ht).1

theorem Clean.follows (h : s.Clean) (hs : s.step a = some s') : Follows s s' := by
  cases a with
  | tick d =>
      cases hs
      have later : s.now ≤ s.now + (d : Int) := by omega
      exact ⟨⟨Int.le_trans h.now later, h.reply, h.nonce⟩, later, fun _ _ he => .inl he,
        fun _ _ ht => .inl ht, fun _ e he _ => ⟨e, he, .inl rfl⟩⟩
  | checkReplay ts nonce =>
      cases hs
      obtain same | ⟨kept, old, same⟩ :=
        checkReplay_leaves h.nonce h.subNonce s.wall s.now ts nonce
      · have caches : (s.checked ts nonce).2 = s.caches.nonce := same
        simp only [caches]
        exact ⟨h, Int.le_refl _, fun _ _ he => .inl he, fun _ _ ht => .inl ht,
          fun _ e he _ => ⟨e, he, .inl rfl⟩⟩
      · have caches : (s.checked ts nonce).2 = ⟨kept, false⟩ := same
        simp only [caches]
        exact ⟨⟨h.now, h.reply, rfl⟩, Int.le_refl _, fun _ _ he => .inl he, old,
          fun _ e he _ => ⟨e, he, .inl rfl⟩⟩
  | lookupCachedReply key =>
      cases hs
      rw [lookupCachedReply_of_sub h.reply h.subReply]
      exact h.follows_retain
  | storeReply key reply =>
      cases hs
      rw [storeReply_of_sub h.reply h.subReply]
      exact h.follows_store key reply
  | gcCaches =>
      cases hs
      exact h.follows_gc

/-- All replies were stored after this, less the time they are kept. -/
def YoungReplies (b : Int) (s : CacheRun) : Prop :=
  ∀ key e, s.caches.reply.value.lookup key = some e → b - (replyCacheTtl : Int) < e.insertedAt

def YoungNonces (b : Int) (s : CacheRun) : Prop :=
  ∀ nonce t, s.caches.nonce.value.lookup nonce = some t → b - (Duration.fromSecs 300 : Int) < t

theorem Follows.youngReplies (h : Follows s s') (later : b ≤ s.now) (young : s.YoungReplies b) :
    s'.YoungReplies b := by
  intro key e he
  obtain old | new := h.replies key e he
  · exact young key e old
  · have span : 0 < (replyCacheTtl : Int) := by decide
    omega

theorem Follows.youngNonces (h : Follows s s') (later : b ≤ s.now) (young : s.YoungNonces b) :
    s'.YoungNonces b := by
  intro nonce t ht
  obtain old | new := h.nonces nonce t ht
  · exact young nonce t old
  · have span : 0 < (Duration.fromSecs 300 : Int) := by decide
    omega

/-- There is a text under the key that is kept beyond this instant. -/
def StillCached (s : CacheRun) (key : String) (t : Int) : Prop :=
  ∃ e, s.caches.reply.value.lookup key = some e ∧ t < e.insertedAt + (replyCacheTtl : Int)

theorem StillCached.sooner {t' : Int} (h : s.StillCached key t) (sooner : t' ≤ t) :
    s.StillCached key t' := by
  obtain ⟨e, he, young⟩ := h
  exact ⟨e, he, Int.lt_of_le_of_lt sooner young⟩

/-- No reply was stored in the future. -/
structure Timely (s : CacheRun) : Prop extends Clean s where
  past : ∀ key e, s.caches.reply.value.lookup key = some e → e.insertedAt ≤ s.now

theorem timely_new (fresh : s.caches = .new) (clock : 0 ≤ s.now) : s.Timely where
  now := clock
  reply := by rw [fresh]; rfl
  nonce := by rw [fresh]; rfl
  past _ _ he := by rw [fresh] at he; cases he

theorem Timely.follows (h : s.Timely) (follows : Follows s s') : s'.Timely where
  toClean := follows.clean
  past key e he := by
    obtain old | new := follows.replies key e he
    · exact Int.le_trans (h.past key e old) follows.later
    · exact new ▸ follows.later

theorem Timely.stillCached (h : s.Timely) (follows : Follows s s') (now : s.now ≤ t)
    (cached : s.StillCached key t) : s'.StillCached key t := by
  obtain ⟨e, he, young⟩ := cached
  obtain ⟨e', he', rfl | new⟩ := follows.kept key e he (Int.lt_of_le_of_lt now young)
  · exact ⟨e', he', young⟩
  · have past := h.past key e he
    exact ⟨e', he', by omega⟩

theorem Timely.run (h : s.Timely) (run : Run step anyStep s as s') :
    s'.Timely ∧ s.now ≤ s'.now := by
  refine run.invariant (P := fun m => m.Timely ∧ s.now ≤ m.now) ?_ ⟨h, Int.le_refl _⟩
  intro m _ m' ⟨hm, later⟩ _ hstep
  have follows := hm.toClean.follows hstep
  exact ⟨hm.follows follows, Int.le_trans later follows.later⟩

theorem Timely.run_stillCached (h : s.Timely) (run : Run step anyStep s as s')
    (now : s'.now ≤ t) (cached : s.StillCached key t) : s'.StillCached key t := by
  have kept := run.invariant (P := fun m => m.Timely ∧ (m.now ≤ t → m.StillCached key t)) ?_
    ⟨h, fun _ => cached⟩
  · exact kept.2 now
  · intro m _ m' ⟨hm, before⟩ _ hstep
    have follows := hm.toClean.follows hstep
    refine ⟨hm.follows follows, fun now => ?_⟩
    have earlier := Int.le_trans follows.later now
    exact hm.stillCached follows earlier (before earlier)

end CacheRun
end EvoclawPluginWechat
