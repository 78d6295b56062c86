import EvoclawPluginWechat.Core.Std
import EvoclawPluginWechat.Library.Table

/-!
The two caches of `handler.rs`: the nonces of recent requests and the text
replies of recent messages. A panic under a cache's lock is a result of its own
and leaves the mutex poisoned.
-/
namespace EvoclawPluginWechat

def replyCacheTtl : Nat := Duration.fromSecs 60

def replayWindowSecs : Int := 300

structure CacheEntry where
  insertedAt : Int
  replyText : String
  deriving DecidableEq

abbrev ReplyCache := StdMutex (Table String CacheEntry)
abbrev NonceCache := StdMutex (Table String Int)

/-- What a call that may panic comes back with. -/
inductive Outcome (α : Type)
  | returned (value : α)
  | panicked
  deriving DecidableEq

/-- The test `(now - ts_num).abs() > REPLAY_WINDOW_SECS` in `i64` arithmetic. -/
def outsideWindow (now tsNum : Int) : Bool :=
  decide (absI64 (wrapI64 (now - tsNum)) > replayWindowSecs)

/-- The same test in a build with overflow checks. -/
def outsideWindowChecked (now tsNum : Int) : Option Bool :=
  (checkedI64 (now - tsNum)).bind fun diff =>
    (checkedI64 diff.natAbs).map fun age => decide (age > replayWindowSecs)

/-- `check_replay`, with its reading of the wall clock and its two readings of the
monotonic clock, for the cutoff and for the insertion. -/
def checkReplay (cache : NonceCache) (wall : Int) (cutoffNow insertNow : Int)
    (ts nonce : String) : Outcome (Except String Unit) × NonceCache :=
  match parseI64 ts with
  | none => (.returned (.error "non-numeric timestamp"), cache)
  | some tsNum =>
      if outsideWindow (currentUnixSecs wall) tsNum then
        (.returned (.error "timestamp outside ±300s window"), cache)
      else if cache.poisoned then (.returned (.error "nonce cache poisoned"), cache)
      else match Instant.sub cutoffNow (Duration.fromSecs replayWindowSecs.toNat) with
        | none => (.panicked, ⟨cache.value, true⟩)
        | some cutoff =>
            let kept := Table.retain (fun _ seenAt => decide (seenAt > cutoff)) cache.value
            if (kept.lookup nonce).isSome then
              (.returned (.error "nonce already seen within replay window"), ⟨kept, false⟩)
            else (.returned (.ok ()), ⟨kept.insert nonce insertNow, false⟩)

def youngerThan (cutoff : Int) (_ : String) (e : CacheEntry) : Bool :=
  decide (e.insertedAt > cutoff)

/-- The key of a message in `compute_text_payload`, which one without an id has not. -/
def cacheKey (fromUser : String) (msgId : Option String) : Option String :=
  (msgId.filter (· ≠ "")).map fun m => fromUser ++ ":" ++ m

/-- `lookup_cached_reply`. -/
def lookupCachedReply (cache : ReplyCache) (now : Int) (key : String) :
    Outcome (Option String) × ReplyCache :=
  if cache.poisoned then (.returned none, cache)
  else match Instant.sub now replyCacheTtl with
    | none => (.panicked, ⟨cache.value, true⟩)
    | some cutoff =>
        let kept := Table.retain (youngerThan cutoff) cache.value
        (.returned ((kept.lookup key).map CacheEntry.replyText), ⟨kept, false⟩)

/-- `store_reply`, with its two readings of the monotonic clock. -/
def storeReply (cache : ReplyCache) (cutoffNow insertNow : Int) (key reply : String) :
    Outcome Unit × ReplyCache :=
  if cache.poisoned then (.returned (), cache)
  else match Instant.sub cutoffNow replyCacheTtl with
    | none => (.panicked, ⟨cache.value, true⟩)
    | some cutoff =>
        let kept := Table.retain (youngerThan cutoff) cache.value
        (.returned (), ⟨kept.insert key ⟨insertNow, reply⟩, false⟩)

/-- One half of `gc_caches`: the entries evicted from one cache. -/
def sweepCache {ν : Type} (cache : StdMutex (Table String ν)) (now : Int) (ttl : Nat)
    (seenAt : ν → Int) : Outcome Nat × StdMutex (Table String ν) :=
  if cache.poisoned then (.returned 0, cache)
  else match Instant.sub now ttl with
    | none => (.panicked, ⟨cache.value, true⟩)
    | some cutoff =>
        let kept := Table.retain (fun _ e => decide (seenAt e > cutoff)) cache.value
        (.returned (cache.value.len - kept.len), ⟨kept, false⟩)

section
variable {now cutoff : Int}

theorem lookupCachedReply_of_sub {cache : ReplyCache} (clean : cache.poisoned = false)
    (h : Instant.sub now replyCacheTtl = some cutoff) (key : String) :
    lookupCachedReply cache now key =
      (.returned (((Table.retain (youngerThan cutoff) cache.value).lookup key).map
        CacheEntry.replyText), ⟨Table.retain (youngerThan cutoff) cache.value, false⟩) := by
  rw [lookupCachedReply, if_neg (by simp [clean]), h]

theorem storeReply_of_sub {cache : ReplyCache} (clean : cache.poisoned = false)
    (h : Instant.sub now replyCacheTtl = some cutoff) (insertNow : Int) (key reply : String) :
    storeReply cache now insertNow key reply = (.returned (),
      ⟨(Table.retain (youngerThan cutoff) cache.value).insert key ⟨insertNow, reply⟩, false⟩) := by
  rw [storeReply, if_neg (by simp [clean]), h]

theorem sweepCache_of_sub {ν : Type} {cache : StdMutex (Table String ν)} {ttl : Nat}
    {seenAt : ν → Int} (clean : cache.poisoned = false)
    (h : Instant.sub now ttl = some cutoff) :
    ∃ evicted, sweepCache cache now ttl seenAt = (.returned evicted,
      ⟨Table.retain (fun _ e => decide (seenAt e > cutoff)) cache.value, false⟩) := by
  rw [sweepCache, if_neg (by simp [clean]), h]
  exact ⟨_, rfl⟩

theorem checkReplay_leaves {cache : NonceCache} (clean : cache.poisoned = false)
    (h : Instant.sub now (Duration.fromSecs replayWindowSecs.toNat) = some cutoff)
    (wall insertNow : Int) (ts nonce : String) :
    (checkReplay cache wall now insertNow ts nonce).2 = cache ∨
      ∃ kept : Table String Int, (∀ key t, kept.lookup key = some t →
          cache.value.lookup key = some t ∨ t = insertNow) ∧
        (checkReplay cache wall now insertNow ts nonce).2 = ⟨kept, false⟩ := by
  have older : ∀ key t, (Table.retain (fun _ seenAt => decide (seenAt > cutoff))
      cache.value).lookup key = some t → cache.value.lookup key = some t :=
    fun _ _ h => (Table.lookup_retain_eq_some.mp h).1
  rw [checkReplay]
  split
  · exact .inl rfl
  · split
    · exact .inl rfl
    · rw [if_neg (by simp [clean]), h]
      dsimp only
      split
      · exact .inr ⟨_, fun key t h => .inl (older key t h), rfl⟩
      · refine .inr ⟨_, fun key t h => ?_, rfl⟩
        obtain ⟨_, rfl⟩ | ⟨_, old⟩ := Table.lookup_insert_eq_some.mp h
        · exact .inr rfl
        · exact .inl (older key t old)

end

/-- The two caches of `HandlerState`. -/
structure Caches where
  reply : ReplyCache
  nonce : NonceCache

def Caches.new : Caches := ⟨StdMutex.new ∅, StdMutex.new ∅⟩

/-- `gc_caches`, with the monotonic clock read once for each half. A panic in the
first half ends the call. -/
def Caches.gc (c : Caches) (replyNow nonceNow : Int) : Outcome (Nat × Nat) × Caches :=
  match sweepCache c.reply replyNow replyCacheTtl CacheEntry.insertedAt with
  | (.panicked, reply) => (.panicked, { c with reply })
  | (.returned replyEvicted, reply) =>
      match sweepCache c.nonce nonceNow (Duration.fromSecs replayWindowSecs.toNat) id with
      | (.panicked, nonce) => (.panicked, ⟨reply, nonce⟩)
      | (.returned nonceEvicted, nonce) =>
          (.returned (replyEvicted, nonceEvicted), ⟨reply, nonce⟩)

/-- The caches in time: both clocks advance together, and every operation runs at
one instant. -/
structure CacheRun where
  caches : Caches
  wall : Int
  now : Int

namespace CacheRun

inductive Act
  | tick (d : Nat)
  | checkReplay (ts nonce : String)
  | lookupCachedReply (key : String)
  | storeReply (key reply : String)
  | gcCaches

/-- What `check_replay` comes back with, now. -/
def checked (s : CacheRun) (ts nonce : String) : Outcome (Except String Unit) × NonceCache :=
  EvoclawPluginWechat.checkReplay s.caches.nonce s.wall s.now s.now ts nonce

def step (s : CacheRun) : Act → Option CacheRun
  | .tick d => some { s with wall := s.wall + d, now := s.now + d }
  | .checkReplay ts nonce => some { s with caches.nonce := (s.checked ts nonce).2 }
  | .lookupCachedReply key =>
      some { s with
        caches.reply := (EvoclawPluginWechat.lookupCachedReply s.caches.reply s.now key).2 }
  | .storeReply key reply =>
      some { s with
        caches.reply := (EvoclawPluginWechat.storeReply s.caches.reply s.now s.now key reply).2 }
  | .gcCaches => some { s with caches := (s.caches.gc s.now s.now).2 }

/-- `check_replay` returns `Ok(())`, now. -/
def Accepts (s : CacheRun) (ts nonce : String) : Prop :=
  (s.checked ts nonce).1 = .returned (.ok ())

end CacheRun
end EvoclawPluginWechat
