import EvoclawPluginWechat.Core.CacheOps
import EvoclawPluginWechat.Library.Expiry
import EvoclawPluginWechat.Properties.ReplayGuard
import Mathlib.Data.List.Induction

/-!
The two caches as a journal of what was ever stored and accepted. Every call prunes a whole
table, and still each answers as the journal does: a reply counts for 60 s from the latest
store under its key, a nonce for 300 s from an acceptance.
-/
namespace EvoclawPluginWechat
namespace CacheCall
open Expiry

/-- The calls are made one after the other. -/
def Ordered (es : List CacheCall) : Prop := es.Pairwise fun e e' => e.instant ≤ e'.instant

def replyCutoff (e : CacheCall) : Int := e.instant - (replyCacheTtl : Int)

def nonceCutoff (e : CacheCall) : Int := e.instant - (Duration.fromSecs 300 : Int)

/-- The timestamp is a number inside the window. -/
def Fresh (wall : Int) (ts : String) : Prop :=
  ∃ tsNum, parseI64 ts = some tsNum ∧ outsideWindow (currentUnixSecs wall) tsNum = false

def seen : Answer := .checked (.returned (.error "nonce already seen within replay window"))

def accepts : Answer := .checked (.returned (.ok ()))

/-- All replies stored and all nonces accepted, the newest first. -/
structure Journal where
  replies : List (String × CacheEntry) := []
  accepted : List (String × Int) := []

/-- A call as the journal answers it. -/
def record (e : CacheCall) (j : Journal) : Option Answer × Journal :=
  match e.op with
  | .storeReply key reply => (none, { j with replies := (key, ⟨e.instant, reply⟩) :: j.replies })
  | .lookupCachedReply key =>
      (some (.found (.returned ((latest CacheEntry.insertedAt e.replyCutoff j.replies key).map
        CacheEntry.replyText))), j)
  | .checkReplay ts nonce =>
      match parseI64 ts with
      | none => (some (.checked (.returned (.error "non-numeric timestamp"))), j)
      | some tsNum =>
          if outsideWindow (currentUnixSecs e.wall) tsNum then
            (some (.checked (.returned (.error "timestamp outside ±300s window"))), j)
          else if (latest id e.nonceCutoff j.accepted nonce).isSome then (some seen, j)
          else (some accepts, { j with accepted := (nonce, e.instant) :: j.accepted })
  | .gcCaches => (none, j)

def journal (es : List CacheCall) : Journal := es.foldl (fun j e => (e.record j).2) {}

def recorded (j : Journal) : List CacheCall → List Answer
  | [] => []
  | e :: es => (e.record j).1.toList ++ recorded (e.record j).2 es

/-- No panic has poisoned the caches, and from this instant on they answer as the journal. -/
structure Mirrors (j : Journal) (c : Caches) (t : Nat) : Prop where
  reply : c.reply.poisoned = false
  nonce : c.nonce.poisoned = false
  replies : Represents CacheEntry.insertedAt (t - (replyCacheTtl : Int)) j.replies c.reply.value
  accepted : Represents id (t - (Duration.fromSecs 300 : Int)) j.accepted c.nonce.value

variable {j : Journal} {c : Caches} {e : CacheCall} {es : List CacheCall} {t s : Nat}

theorem mirrors_new (t : Nat) : Mirrors {} .new t :=
  ⟨rfl, rfl, represents_empty _ _, represents_empty _ _⟩

theorem Mirrors.later (h : Mirrors j c t) (le : t ≤ s) : Mirrors j c s :=
  ⟨h.reply, h.nonce, h.replies.mono (by omega), h.accepted.mono (by omega)⟩

section Perform

theorem sub_replyCacheTtl (e : CacheCall) :
    Instant.sub e.instant replyCacheTtl = some e.replyCutoff :=
  Instant.sub_of_nonneg (Int.natCast_nonneg _) (by decide)

theorem sub_replayWindow (e : CacheCall) :
    Instant.sub e.instant (Duration.fromSecs replayWindowSecs.toNat) = some e.nonceCutoff :=
  Instant.sub_of_nonneg (Int.natCast_nonneg _) (by decide)

theorem beforeLookup_clean (ts : String) : beforeLookup false e.wall e.instant ts =
    match parseI64 ts with
    | none => .returned (.error "non-numeric timestamp")
    | some tsNum =>
        if outsideWindow (currentUnixSecs e.wall) tsNum then
          .returned (.error "timestamp outside ±300s window")
        else .returned (.ok e.nonceCutoff) := by
  have window : Instant.sub e.instant (Duration.fromSecs 300) = some e.nonceCutoff :=
    sub_replayWindow e
  rw [beforeLookup, window]
  rfl

theorem gc_eq (h : Mirrors j c e.instant) : (c.gc e.instant e.instant).2 =
    ⟨⟨Expiry.prune CacheEntry.insertedAt e.replyCutoff c.reply.value, false⟩,
      ⟨Expiry.prune id e.nonceCutoff c.nonce.value, false⟩⟩ := by
  obtain ⟨_, replies⟩ : ∃ evicted, sweepCache c.reply e.instant replyCacheTtl
      CacheEntry.insertedAt = (.returned evicted,
        ⟨Expiry.prune CacheEntry.insertedAt e.replyCutoff c.reply.value, false⟩) :=
    sweepCache_of_sub h.reply (sub_replyCacheTtl e)
  obtain ⟨_, nonces⟩ : ∃ evicted, sweepCache c.nonce e.instant
      (Duration.fromSecs replayWindowSecs.toNat) id = (.returned evicted,
        ⟨Expiry.prune id e.nonceCutoff c.nonce.value, false⟩) :=
    sweepCache_of_sub h.nonce (sub_replayWindow e)
  rw [Caches.gc, replies]
  dsimp only
  rw [nonces]

/-- A call is answered as the journal answers it, and leaves what the journal goes on with. -/
theorem mirrors_perform (h : Mirrors j c e.instant) :
    (e.perform c).1 = (e.record j).1 ∧ Mirrors (e.record j).2 (e.perform c).2 e.instant := by
  obtain ⟨reply, nonce, replies, accepted⟩ := h
  cases op : e.op with
  | storeReply key reply' =>
      rw [perform, record, op]
      dsimp only
      rw [storeReply_of_sub reply (sub_replyCacheTtl e)]
      exact ⟨rfl, rfl, nonce, replies.prune.insert key _, accepted⟩
  | lookupCachedReply key =>
      rw [perform, record, op]
      dsimp only
      rw [lookupCachedReply_of_sub reply (sub_replyCacheTtl e)]
      have looked := replies.lookup key
      refine ⟨?_, rfl, nonce, replies.prune, accepted⟩
      exact congrArg (fun found => some (Answer.found (.returned
        (Option.map CacheEntry.replyText found)))) looked
  | checkReplay ts nonce' =>
      rw [perform, record, op]
      dsimp only
      rw [checkReplay_eq, nonce, beforeLookup_clean]
      have looked : (Table.retain (fun _ seenAt => decide (seenAt > e.nonceCutoff))
          c.nonce.value).lookup nonce' = latest id e.nonceCutoff j.accepted nonce' :=
        accepted.lookup nonce'
      cases parseI64 ts with
      | none => exact ⟨rfl, reply, nonce, replies, accepted⟩
      | some tsNum =>
          dsimp only
          by_cases outside : outsideWindow (currentUnixSecs e.wall) tsNum = true
          · rw [if_pos outside, if_pos outside]
            exact ⟨rfl, reply, nonce, replies, accepted⟩
          · rw [if_neg outside, if_neg outside]
            dsimp only [NonceCache.look]
            rw [looked]
            split_ifs
            · exact ⟨rfl, reply, rfl, replies, accepted.prune⟩
            · exact ⟨rfl, reply, rfl, replies, accepted.prune.insert nonce' _⟩
  | gcCaches =>
      rw [perform, record, op]
      dsimp only
      rw [gc_eq ⟨reply, nonce, replies, accepted⟩]
      exact ⟨rfl, rfl, rfl, replies.prune, accepted.prune⟩

end Perform

theorem Ordered.cons (h : Ordered (e :: es)) : Ordered es ∧ ∀ e' ∈ es, e.instant ≤ e'.instant :=
  (List.pairwise_cons.mp h).symm

theorem Mirrors.answers (h : Mirrors j c t) (ordered : Ordered es)
    (start : ∀ e ∈ es, t ≤ e.instant) : answers c es = recorded j es := by
  induction es generalizing j c t with
  | nil => rfl
  | cons e es ih =>
      obtain ⟨rest, since⟩ := ordered.cons
      have now := h.later (start e List.mem_cons_self)
      obtain ⟨same, after⟩ := mirrors_perform now
      rw [CacheCall.answers, recorded, same, ih after rest since]

theorem Mirrors.run (h : Mirrors j c t) (ordered : Ordered es) (start : ∀ e ∈ es, t ≤ e.instant)
    (stop : ∀ e ∈ es, e.instant ≤ s) (le : t ≤ s) :
    Mirrors (es.foldl (fun j e => (e.record j).2) j) (after c es) s := by
  induction es generalizing j c t with
  | nil => exact h.later le
  | cons e es ih =>
      obtain ⟨rest, since⟩ := ordered.cons
      have now := h.later (start e List.mem_cons_self)
      obtain ⟨_, after⟩ := mirrors_perform now
      exact ih after rest since (fun e' he => stop e' (List.mem_cons_of_mem _ he))
        (stop e List.mem_cons_self)

theorem Ordered.perform_eq {pre post : List CacheCall} (h : Ordered (pre ++ e :: post)) :
    (e.perform (after .new pre)).1 = (e.record (journal pre)).1 := by
  have split := List.pairwise_append.mp h
  have before : Ordered pre := split.1
  have stop : ∀ e' ∈ pre, e'.instant ≤ e.instant :=
    fun e' he => split.2.2 e' he e List.mem_cons_self
  cases pre with
  | nil => exact (mirrors_perform (mirrors_new _)).1
  | cons first pre =>
      have start : ∀ e' ∈ first :: pre, first.instant ≤ e'.instant := by
        intro e' he
        obtain rfl | later := List.mem_cons.mp he
        · exact Nat.le_refl _
        · exact before.cons.2 e' later
      have mirrors := (mirrors_new first.instant).run before start stop
        (stop first List.mem_cons_self)
      exact (mirrors_perform mirrors).1

section Sweeps

theorem recorded_filter (j : Journal) (es : List CacheCall) :
    recorded j (es.filter fun e => !e.isSweep) = recorded j es := by
  induction es generalizing j with
  | nil => rfl
  | cons e es ih =>
      by_cases sweep : e.op = .gcCaches
      · have dropped : (!e.isSweep) = false := by simp [isSweep, sweep]
        have idle : e.record j = (none, j) := by rw [record, sweep]
        rw [List.filter_cons_of_neg (by simp [dropped]), recorded, idle]
        exact ih j
      · have kept : (e :: es).filter (fun e => !e.isSweep) =
            e :: es.filter fun e => !e.isSweep :=
          List.filter_cons_of_pos (by simp [isSweep, sweep])
        rw [kept, recorded, recorded, ih]

theorem Ordered.filter (h : Ordered es) (p : CacheCall → Bool) : Ordered (es.filter p) :=
  h.sublist List.filter_sublist

theorem Ordered.answers_eq (h : Ordered es) : answers .new es = recorded {} es := by
  cases es with
  | nil => rfl
  | cons first es =>
      refine (mirrors_new first.instant).answers h fun e he => ?_
      obtain rfl | later := List.mem_cons.mp he
      · exact Nat.le_refl _
      · exact h.cons.2 e later

/-- The sweeps can be left out. -/
theorem Ordered.answers_filter (h : Ordered es) :
    answers .new (es.filter fun e => !e.isSweep) = answers .new es := by
  rw [(h.filter _).answers_eq, h.answers_eq, recorded_filter]

end Sweeps

section Replies
variable {key reply : String} {entry : CacheEntry}

def Stores (key : String) (e : CacheCall) : Prop := ∃ reply, e.op = .storeReply key reply

theorem journal_concat (es : List CacheCall) (e : CacheCall) :
    journal (es ++ [e]) = (e.record (journal es)).2 := by
  rw [journal, List.foldl_append]
  rfl

theorem record_replies (j : Journal) (e : CacheCall) :
    (∃ key reply, e.op = .storeReply key reply ∧
      (e.record j).2.replies = (key, ⟨e.instant, reply⟩) :: j.replies) ∨
    ((∀ key, ¬ Stores key e) ∧ (e.record j).2.replies = j.replies) := by
  unfold record Stores
  cases op : e.op with
  | storeReply key reply => exact .inl ⟨key, reply, rfl, rfl⟩
  | lookupCachedReply key => exact .inr ⟨nofun, rfl⟩
  | gcCaches => exact .inr ⟨nofun, rfl⟩
  | checkReplay ts nonce =>
      refine .inr ⟨nofun, ?_⟩
      dsimp only
      split
      · rfl
      · split_ifs
        · rfl
        · rfl
        · rfl

theorem lookup_replies_iff : (journal es).replies.lookup key = some entry ↔
    ∃ e, Last (Stores key) e es ∧ e.op = .storeReply key entry.replyText ∧
      e.instant = entry.insertedAt := by
  induction es using List.reverseRecOn with
  | nil => exact iff_of_false nofun fun ⟨e, last, _⟩ => not_last_nil last
  | append_singleton es new ih =>
      simp only [last_concat_iff]
      rw [journal_concat]
      obtain ⟨key', reply, op, replies⟩ | ⟨silent, replies⟩ := record_replies (journal es) new
      · rw [replies, List.lookup_cons]
        by_cases same : key = key'
        · subst same
          have stores : Stores key new := ⟨reply, op⟩
          simp only [beq_self_eq_true, Option.some.injEq]
          constructor
          · rintro rfl
            exact ⟨new, .inl ⟨stores, rfl⟩, op, rfl⟩
          · rintro ⟨e, ⟨_, rfl⟩ | ⟨other, _⟩, op', time⟩
            · rw [op] at op'
              obtain ⟨_, rfl⟩ := CacheOp.storeReply.inj op'
              rw [time]
            · exact absurd stores other
        · have other : ¬ Stores key new := fun ⟨_, op'⟩ =>
            same (CacheOp.storeReply.inj (op'.symm.trans op)).1
          rw [beq_eq_false_iff_ne.mpr same, ih]
          simp [other]
      · have other := silent key
        rw [replies, ih]
        simp [other]

theorem record_lookup_iff (op : e.op = .lookupCachedReply key) :
    (e.record (journal es)).1 = some (.found (.returned (some reply))) ↔
      ∃ s, Last (Stores key) s es ∧ s.op = .storeReply key reply ∧
        e.instant < s.instant + replyCacheTtl := by
  rw [record, op]
  simp only [Option.some.injEq, Answer.found.injEq, Outcome.returned.injEq, Option.map_eq_some_iff,
    latest_eq_some, lookup_replies_iff]
  constructor
  · rintro ⟨entry, ⟨⟨s, last, stored, time⟩, young⟩, rfl⟩
    refine ⟨s, last, stored, ?_⟩
    unfold replyCutoff at young
    omega
  · rintro ⟨s, last, stored, young⟩
    refine ⟨⟨s.instant, reply⟩, ⟨⟨s, last, stored, rfl⟩, ?_⟩, rfl⟩
    change (s.instant : Int) > e.replyCutoff
    unfold replyCutoff
    omega

end Replies

section Nonces
variable {nonce : String} {u : Int}

/-- The call accepts the nonce, after these. -/
def Accepting (pre : List CacheCall) (nonce : String) (a : CacheCall) : Prop :=
  ∃ ts, a.op = .checkReplay ts nonce ∧ (a.perform (after .new pre)).1 = some accepts

theorem record_accepted (j : Journal) (e : CacheCall) :
    (∃ ts nonce, e.op = .checkReplay ts nonce ∧ (e.record j).1 = some accepts ∧
      (e.record j).2.accepted = (nonce, (e.instant : Int)) :: j.accepted) ∨
    ((e.record j).1 ≠ some accepts ∧ (e.record j).2.accepted = j.accepted) := by
  unfold record
  cases op : e.op with
  | storeReply key reply => exact .inr ⟨nofun, rfl⟩
  | lookupCachedReply key => exact .inr ⟨nofun, rfl⟩
  | gcCaches => exact .inr ⟨nofun, rfl⟩
  | checkReplay ts nonce =>
      dsimp only
      split
      · exact .inr ⟨nofun, rfl⟩
      · split_ifs
        · exact .inr ⟨nofun, rfl⟩
        · exact .inr ⟨nofun, rfl⟩
        · exact .inl ⟨ts, nonce, rfl, rfl, rfl⟩

theorem Ordered.init (h : Ordered (es ++ [e])) : Ordered es :=
  (List.pairwise_append.mp h).1

theorem accepting_of_lookup (h : Ordered es) (found : (journal es).accepted.lookup nonce = some u) :
    ∃ pre a post, es = pre ++ a :: post ∧ Accepting pre nonce a ∧ a.instant = u := by
  induction es using List.reverseRecOn with
  | nil => cases found
  | append_singleton es new ih =>
      have earlier : (journal es).accepted.lookup nonce = some u →
          ∃ pre a post, es ++ [new] = pre ++ a :: post ∧ Accepting pre nonce a ∧ a.instant = u := by
        intro old
        obtain ⟨pre, a, post, rfl, accepting, time⟩ := ih h.init old
        exact ⟨pre, a, post ++ [new], by simp, accepting, time⟩
      rw [journal_concat] at found
      obtain ⟨ts, nonce', op, answer, accepted⟩ | ⟨_, accepted⟩ := record_accepted (journal es) new
      · rw [accepted, List.lookup_cons] at found
        by_cases same : nonce = nonce'
        · subst same
          simp only [beq_self_eq_true, Option.some.injEq] at found
          have accepted : (new.perform (after .new es)).1 = some accepts :=
            h.perform_eq.trans answer
          exact ⟨es, new, [], rfl, ⟨ts, op, accepted⟩, found⟩
        · rw [beq_eq_false_iff_ne.mpr same] at found
          exact earlier found
      · rw [accepted] at found
        exact earlier found

theorem lookup_of_accepting {pre post : List CacheCall} {a : CacheCall}
    (h : Ordered (pre ++ a :: post)) (accepting : Accepting pre nonce a) :
    ∃ u, (journal (pre ++ a :: post)).accepted.lookup nonce = some u ∧ a.instant ≤ u := by
  induction post using List.reverseRecOn with
  | nil =>
      obtain ⟨ts, op, answer⟩ := accepting
      rw [h.perform_eq] at answer
      rw [journal_concat]
      obtain ⟨ts', nonce', op', _, accepted⟩ | ⟨other, _⟩ := record_accepted (journal pre) a
      · obtain ⟨_, rfl⟩ := CacheOp.checkReplay.inj (op.symm.trans op')
        refine ⟨a.instant, ?_, Int.le_refl _⟩
        rw [accepted, List.lookup_cons, beq_self_eq_true]
      · exact absurd answer other
  | append_singleton post new ih =>
      have split : pre ++ a :: (post ++ [new]) = (pre ++ a :: post) ++ [new] := by simp
      rw [split] at h ⊢
      obtain ⟨u, old, later⟩ := ih h.init
      have last : a.instant ≤ new.instant :=
        (List.pairwise_append.mp h).2.2 a (by simp) new (by simp)
      rw [journal_concat]
      obtain ⟨ts', nonce', _, _, accepted⟩ | ⟨_, accepted⟩ :=
        record_accepted (journal (pre ++ a :: post)) new
      · rw [accepted, List.lookup_cons]
        by_cases same : nonce = nonce'
        · exact ⟨new.instant, by rw [same, beq_self_eq_true], Int.ofNat_le.mpr last⟩
        · exact ⟨u, by rw [beq_eq_false_iff_ne.mpr same]; exact old, later⟩
      · exact ⟨u, accepted ▸ old, later⟩

theorem record_seen_iff {ts : String} (op : e.op = .checkReplay ts nonce)
    (fresh : Fresh e.wall ts) :
    (e.record j).1 = some seen ↔
      ∃ u, j.accepted.lookup nonce = some u ∧ e.instant < u + (Duration.fromSecs 300 : Int) := by
  obtain ⟨tsNum, parsed, inside⟩ := fresh
  have counts : (latest id e.nonceCutoff j.accepted nonce).isSome = true ↔
      ∃ u, j.accepted.lookup nonce = some u ∧ e.instant < u + (Duration.fromSecs 300 : Int) := by
    rw [Option.isSome_iff_exists]
    refine exists_congr fun u => ?_
    rw [latest_eq_some, nonceCutoff, id]
    exact and_congr_right fun _ => by omega
  rw [← counts, record, op]
  dsimp only
  rw [parsed]
  dsimp only
  rw [if_neg (by simp [inside])]
  split_ifs with found
  · exact iff_of_true rfl found
  · exact iff_of_false nofun found

end Nonces

/-- Sweeps change no answer; a lookup finds the latest reply for less than 60 s; a nonce is
rejected for less than 300 s after an acceptance. -/
theorem caches_forget_in_time (ordered : Ordered es) :
    answers .new (es.filter fun e => !e.isSweep) = answers .new es ∧
    (∀ pre e post key reply, es = pre ++ e :: post → e.op = .lookupCachedReply key →
      ((e.perform (after .new pre)).1 = some (.found (.returned (some reply))) ↔
        ∃ s, Last (Stores key) s pre ∧ s.op = .storeReply key reply ∧
          e.instant < s.instant + Duration.fromSecs 60)) ∧
    (∀ pre e post ts nonce, es = pre ++ e :: post → e.op = .checkReplay ts nonce →
      Fresh e.wall ts →
      ((e.perform (after .new pre)).1 = some seen ↔
        ∃ before a later, pre = before ++ a :: later ∧ Accepting before nonce a ∧
          e.instant < a.instant + Duration.fromSecs 300)) := by
  refine ⟨ordered.answers_filter, ?_, ?_⟩
  · rintro pre e post key reply rfl op
    rw [ordered.perform_eq]
    exact record_lookup_iff op
  · rintro pre e post ts nonce rfl op fresh
    have before : Ordered pre := (List.pairwise_append.mp ordered).1
    rw [ordered.perform_eq, record_seen_iff op fresh]
    constructor
    · rintro ⟨u, found, young⟩
      obtain ⟨pre', a, post', split, accepting, rfl⟩ := accepting_of_lookup before found
      exact ⟨pre', a, post', split, accepting, by omega⟩
    · rintro ⟨pre', a, post', rfl, accepting, young⟩
      obtain ⟨u, found, later⟩ := lookup_of_accepting before accepting
      exact ⟨u, found, by omega⟩

/-- A reply stored at 0 s is found at 59 s, after a sweep. -/
theorem caches_forget_in_time_sweep :
    ((CacheCall.mk 59000000000 0 (.lookupCachedReply "fan:7")).perform (after .new
        [⟨0, 0, .storeReply "fan:7" "hi"⟩, ⟨58000000000, 0, .gcCaches⟩])).1 =
      some (.found (.returned (some "hi"))) := by
  have ordered : Ordered [⟨0, 0, .storeReply "fan:7" "hi"⟩, ⟨58000000000, 0, .gcCaches⟩,
      ⟨59000000000, 0, .lookupCachedReply "fan:7"⟩] := by
    simp [Ordered]
  refine ((caches_forget_in_time ordered).2.1 [_, _] _ [] "fan:7" "hi" rfl rfl).mpr
    ⟨⟨0, 0, .storeReply "fan:7" "hi"⟩, ⟨[], [⟨58000000000, 0, .gcCaches⟩], rfl, ⟨_, rfl⟩, ?_⟩,
      rfl, by decide⟩
  simp [Stores]

end CacheCall
end EvoclawPluginWechat
