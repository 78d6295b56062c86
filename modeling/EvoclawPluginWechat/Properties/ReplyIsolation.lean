import EvoclawPluginWechat.Properties.RetryAgreement

/-!
Whose reply the cache hands out. An entry was stored for a message with the same cache key,
which is that of the same sender and id as long as no two messages spell one key in
different ways.
-/
namespace EvoclawPluginWechat
namespace Plugin
variable {n : Nat} {W : Wire} {cfg : HandlerCfg} {s s' : Plugin n} {t : TaskId} {r : Request}
open Transition

theorem lookup_of_sweepCache {ν : Type} {cache : StdMutex (Table String ν)} {now : Int} {ttl : Nat}
    {seenAt : ν → Int} {key : String} {e : ν}
    (h : (sweepCache cache now ttl seenAt).2.value.lookup key = some e) :
    cache.value.lookup key = some e := by
  unfold sweepCache at h
  split at h
  · exact h
  · split at h
    · exact h
    · exact (Table.lookup_retain_eq_some.mp h).1

theorem lookup_of_lookupCachedReply {cache : ReplyCache} {now : Int} {key key' : String}
    {e : CacheEntry}
    (h : (lookupCachedReply cache now key').2.value.lookup key = some e) :
    cache.value.lookup key = some e := by
  unfold lookupCachedReply at h
  split at h
  · exact h
  · split at h
    · exact h
    · exact (Table.lookup_retain_eq_some.mp h).1

theorem lookupCachedReply_found {cache : ReplyCache} {now : Int} {key text : String}
    (h : (lookupCachedReply cache now key).1 = .returned (some text)) :
    ∃ e, cache.value.lookup key = some e ∧ e.replyText = text := by
  unfold lookupCachedReply at h
  split at h
  · cases h
  · split at h
    · cases h
    · obtain ⟨e, he, rfl⟩ := Option.map_eq_some_iff.mp (Outcome.returned.inj h)
      exact ⟨e, (Table.lookup_retain_eq_some.mp he).1, rfl⟩

theorem lookup_of_lookupReply {key : String} {e : CacheEntry}
    (h : (s.lookupReply t r).replies.value.lookup key = some e) :
    s.replies.value.lookup key = some e := by
  unfold lookupReply at h
  split at h
  · exact h
  · next key' _ =>
      have kept : (lookupCachedReply s.replies s.now key').2.value.lookup key = some e →
        s.replies.value.lookup key = some e := lookup_of_lookupCachedReply
      split at h <;> next looked =>
        rw [looked] at kept
        exact kept h

theorem lookup_of_storeReply {cache : ReplyCache} {cutoffNow insertNow : Int}
    {key key' reply : String} {e : CacheEntry}
    (h : (storeReply cache cutoffNow insertNow key' reply).2.value.lookup key = some e) :
    cache.value.lookup key = some e ∨
      (storeReply cache cutoffNow insertNow key' reply).1 = .returned () ∧ key' = key ∧
        reply = e.replyText := by
  unfold storeReply at h ⊢
  split at h
  · exact .inl h
  · next clean =>
      rw [if_neg clean]
      split at h
      · exact .inl h
      · next cutoff hc =>
          obtain ⟨rfl, rfl⟩ | ⟨_, old⟩ := Table.lookup_insert_eq_some.mp h
          · exact .inr ⟨rfl, rfl, rfl⟩
          · exact .inl (Table.lookup_retain_eq_some.mp old).1

theorem lookup_of_storePayload {key : String} {e : CacheEntry} {payload : ReplyPayload}
    (hr : s.requests t = some r)
    (h : (s.storePayload t r payload).replies.value.lookup key = some e) :
    s.replies.value.lookup key = some e ∨ r.cacheKey = some key ∧ payload = .text e.replyText ∧
      (s.storePayload t r payload).requests t =
        some { r with phase := .leaving (some payload) } := by
  unfold storePayload at h ⊢
  split at h
  · next key' text hkey =>
      have stored : (EvoclawPluginWechat.storeReply s.replies s.now s.now key' text).2.value.lookup
          key = some e → _ := lookup_of_storeReply
      split at h
      · next outcome =>
          rw [outcome] at stored
          obtain old | ⟨_, rfl, rfl⟩ := stored h
          · exact .inl old
          · exact .inr ⟨hkey, rfl, setPhase_requests_self _ hr⟩
      · next outcome =>
          rw [outcome] at stored
          obtain old | ⟨panic, _⟩ := stored h
          · exact .inl old
          · cases panic
  · exact .inl h

/-- The run stored this text for a message of the sender with the id. -/
def StoredFor [NeZero n] (W : Wire) (cfg : HandlerCfg) (start : Plugin n) (as : List Act)
    (fromUser : String) (msgId : Option String) (text : String) : Prop :=
  ∃ pre post t m r, as = pre ++ .storeReply t :: post ∧
    Run (step W cfg) anyStep start pre m ∧ m.requests t = some r ∧
    r.phase = .computed (.text text) ∧ r.fromUser = fromUser ∧ r.msgId = msgId

/-- The entries of the cache are replies that the run stored, each for a message that went
away with it. -/
def Accounted [NeZero n] (W : Wire) (cfg : HandlerCfg) (start : Plugin n) (as : List Act)
    (s : Plugin n) : Prop :=
  ∀ key e, s.replies.value.lookup key = some e → ∃ t r, s.requests t = some r ∧
    r.cacheKey = some key ∧ r.phase.settled = some (.text e.replyText) ∧
    StoredFor W cfg start as r.fromUser r.msgId e.replyText

section
variable [NeZero n] {start : Plugin n} {as : List Act}

theorem StoredFor.append {fromUser text : String} {msgId : Option String} (bs : List Act)
    (h : StoredFor W cfg start as fromUser msgId text) :
    StoredFor W cfg start (as ++ bs) fromUser msgId text := by
  obtain ⟨pre, post, t, m, r, rfl, rest⟩ := h
  refine ⟨pre, post ++ bs, t, m, r, ?_, rest⟩
  rw [List.append_assoc, List.cons_append]

theorem StoredFor.request {fromUser text : String} {msgId : Option String}
    (h : StoredFor W cfg start as fromUser msgId text)
    (run : Run (step W cfg) anyStep start as s) :
    ∃ t r, .storeReply t ∈ as ∧ s.requests t = some r ∧ r.fromUser = fromUser ∧
      r.msgId = msgId := by
  obtain ⟨pre, post, t, m, r, rfl, before, hr, _, sender, id⟩ := h
  obtain ⟨m', before', after⟩ := run.split
  obtain rfl := before.deterministic before'
  obtain ⟨r', hr', sender', id'⟩ := after.invariant
    (P := fun s => ∃ q, s.requests t = some q ∧ q.fromUser = fromUser ∧ q.msgId = msgId)
    (fun _ _ _ ⟨q, hq, known⟩ _ hstep => by
      obtain ⟨phase, hq', _⟩ := (turn_of_step hstep).request_after hq
      exact ⟨_, hq', known⟩)
    ⟨r, hr, sender, id⟩
  exact ⟨t, r', List.mem_append_right _ List.mem_cons_self, hr', sender', id'⟩

theorem Accounted.entry {a : Act} {key : String} {e : CacheEntry} (hs : Accounted W cfg start as s)
    (turn : Turn s a s') (he : s.replies.value.lookup key = some e) :
    ∃ t r, s'.requests t = some r ∧ r.cacheKey = some key ∧
      r.phase.settled = some (.text e.replyText) ∧
      StoredFor W cfg start (as ++ [a]) r.fromUser r.msgId e.replyText := by
  obtain ⟨t, r, hr, hkey, settled, stored⟩ := hs key e he
  obtain ⟨phase, hr', next⟩ := turn.request_after hr
  refine ⟨t, _, hr', hkey, ?_, stored.append [a]⟩
  obtain same | next := next
  · exact (congrArg RequestPhase.settled same).trans settled
  · exact next.settled_after settled

theorem accounted_step {a : Act} (hs : Accounted W cfg start as s)
    (run : Run (step W cfg) anyStep start as s) (h : s.step W cfg a = some s') :
    Accounted W cfg start (as ++ [a]) s' := by
  intro key e he
  have turn := turn_of_step h
  have before : s.replies.value.lookup key = some e → _ := hs.entry turn
  cases turn with
  | others _ replies _ => exact before (replies ▸ he)
  | sweep => exact before (lookup_of_sweepCache he)
  | received _ => exact before he
  | lookup _ _ => exact before (lookup_of_lookupReply he)
  | @store t r payload hr computed =>
      obtain old | ⟨hkey, rfl, hr'⟩ := lookup_of_storePayload hr he
      · exact before old
      · exact ⟨t, _, hr', hkey, rfl, as, [], t, s, r, rfl, run, hr, computed, rfl, rfl⟩
  | moves _ _ _ _ replies _ => exact before (replies ▸ he)

end

/-- A message is not looked up under a cache key under which an earlier message with another
sender or id went away with a text. -/
def keysApart (s : Plugin n) (a : Act) : Prop :=
  ∀ t r t' r' key text, a = .lookupReply t → s.requests t = some r → s.requests t' = some r' →
    r.cacheKey = some key → r'.cacheKey = some key → r'.phase.settled = some (.text text) →
    r'.fromUser = r.fromUser ∧ r'.msgId = r.msgId

theorem lookupReply_answered {text : String} (hr : s.requests t = some r)
    (h : ((s.lookupReply t r).requests t).map Request.phase = some (.leaving (some (.text text)))) :
    ∃ key e, r.cacheKey = some key ∧ s.replies.value.lookup key = some e ∧ e.replyText = text := by
  have phase : ∀ p, ((s.setPhase t p).requests t).map Request.phase = some p := by
    intro p
    rw [setPhase_requests_self p hr]
    rfl
  unfold lookupReply at h
  split at h
  · rw [phase] at h
    cases h
  · next key hkey =>
      split at h
      · next text' replies outcome =>
          have h := (phase _).symm.trans h
          cases h
          obtain ⟨e, he, same⟩ := lookupCachedReply_found (congrArg Prod.fst outcome)
          exact ⟨key, e, hkey, he, same⟩
      · have h := (phase _).symm.trans h
        cases h
      · have h := (phase _).symm.trans h
        cases h

theorem cached_reply_own [NeZero n] {as : List Act} {text : String}
    (run : Run (step W cfg) keysApart (new : Plugin n) as s) (hr : s.requests t = some r)
    (apart : keysApart s (.lookupReply t)) (looks : s.step W cfg (.lookupReply t) = some s')
    (answered : (s'.requests t).map Request.phase = some (.leaving (some (.text text)))) :
    StoredFor W cfg (new : Plugin n) as r.fromUser r.msgId text := by
  have accounted : Accounted W cfg new as s := by
    refine (run.mono fun _ _ _ => trivial).history (P := Accounted W cfg (new : Plugin n)) ?_ ?_
    · intro bs m a m' hm before _ h
      exact accounted_step hm before h
    · intro key e he
      cases he
  have entered : s' = s.lookupReply t r := by
    simp only [step, hr] at looks
    split at looks
    · next same =>
        cases Option.some.inj same
        exact (Option.some.inj looks).symm
    · cases looks
  subst entered
  obtain ⟨key, e, hkey, he, rfl⟩ := lookupReply_answered hr answered
  obtain ⟨t', r', hr', hkey', settled, stored⟩ := accounted key e he
  obtain ⟨sender, id⟩ := apart t r t' r' key _ rfl hr hr' hkey hkey' settled
  rwa [sender, id] at stored

end Plugin

theorem append_separator_inj {α : Type} {c : α} {xs xs' ys ys' : List α} (hx : c ∉ xs)
    (hx' : c ∉ xs') (h : xs ++ c :: ys = xs' ++ c :: ys') : xs = xs' ∧ ys = ys' := by
  induction xs generalizing xs' with
  | nil =>
      cases xs' with
      | nil => exact ⟨rfl, (List.cons.inj h).2⟩
      | cons x xs' => exact absurd (List.cons.inj h).1 fun same => hx' (same ▸ List.mem_cons_self)
  | cons x xs ih =>
      cases xs' with
      | nil => exact absurd (List.cons.inj h).1 fun same => hx (same ▸ List.mem_cons_self)
      | cons x' xs' =>
          obtain ⟨first, rest⟩ := List.cons.inj h
          obtain ⟨same, after⟩ := ih (fun mem => hx (List.mem_cons_of_mem _ mem))
            (fun mem => hx' (List.mem_cons_of_mem _ mem)) rest
          exact ⟨by rw [first, same], after⟩

def NoColon (fromUser : String) : Prop := ':' ∉ fromUser.toList

instance (fromUser : String) : Decidable (NoColon fromUser) :=
  inferInstanceAs (Decidable (':' ∉ fromUser.toList))

theorem Request.cacheKey_inj {r r' : Request} {key : String} (hr : NoColon r.fromUser)
    (hr' : NoColon r'.fromUser) (h : r.cacheKey = some key) (h' : r'.cacheKey = some key) :
    r'.fromUser = r.fromUser ∧ r'.msgId = r.msgId := by
  obtain ⟨id, hid, rfl⟩ := Option.map_eq_some_iff.mp h
  obtain ⟨id', hid', same⟩ := Option.map_eq_some_iff.mp h'
  have same : r'.fromUser.toList ++ ':' :: id'.toList = r.fromUser.toList ++ ':' :: id.toList := by
    have lists := congrArg String.toList same
    rw [String.toList_append, String.toList_append, String.toList_append, String.toList_append,
      List.append_assoc, List.append_assoc] at lists
    exact lists
  obtain ⟨sender, msgId⟩ := append_separator_inj hr' hr same
  refine ⟨String.toList_inj.mp sender, ?_⟩
  rw [(Option.filter_eq_some_iff.mp hid).1, (Option.filter_eq_some_iff.mp hid').1,
    String.toList_inj.mp msgId]

namespace Plugin
variable {n : Nat} [NeZero n] {W : Wire} {cfg : HandlerCfg} {s s' : Plugin n}
open Transition

/-- The sender of the message that comes in, if one does, has no colon. -/
def senderUsual (_s : Plugin n) (a : Act) : Prop :=
  ∀ x ∈ a.message, NoColon x.1

def SendersUsual (s : Plugin n) : Prop := ∀ t r, s.requests t = some r → NoColon r.fromUser

omit [NeZero n] in
theorem SendersUsual.keysApart {a : Act} (hs : s.SendersUsual) : keysApart s a := by
  intro t r t' r' key _ _ hr hr' hkey hkey' _
  exact Request.cacheKey_inj (hs t r hr) (hs t' r' hr') hkey hkey'

theorem sendersUsual_step {a : Act} (hs : s.SendersUsual) (sender : senderUsual s a)
    (h : s.step W cfg a = some s') : s'.SendersUsual := by
  intro t r hr
  obtain ⟨_, u, msg, id, rfl, rfl⟩ | ⟨q, hq, same, _⟩ := (turn_of_step h).request_before hr
  · exact sender (u, id) rfl
  · rw [same]
    exact hs t q hq

/-- Senders without a colon never share a cache key. -/
theorem run_keysApart {as : List Act} (run : Run (step W cfg) senderUsual (new : Plugin n) as s) :
    Run (step W cfg) keysApart (new : Plugin n) as s ∧ s.SendersUsual := by
  have none : (new : Plugin n).SendersUsual := fun _ _ h => by cases h
  constructor
  · exact run.strengthen (fun _ _ _ hs => sendersUsual_step hs) (fun _ _ hs _ => hs.keysApart) none
  · exact run.invariant (fun _ _ _ hs => sendersUsual_step hs) none

def deliveredTwice : List Act :=
  [.receive 0 "fan" "hi" (some "77"), .acquire 0, .lockOwned 0, .grant 0, .lookupReply 0,
    .route 0 (.text "pong"), .storeReply 0, .release 0,
    .receive 1 "fan" "hello" (some "77"), .acquire 1, .lockOwned 1, .grant 1]

theorem cached_reply_own_second_delivery :
    StoredFor serdeJson plainCfg (new : Plugin 1) deliveredTwice "fan" (some "77") "pong" := by
  obtain ⟨s, s', r, run, hr, sender, id, looks, answered⟩ : ∃ (s s' : Plugin 1) (r : Request),
      exec (step serdeJson plainCfg) new deliveredTwice = some s ∧ s.requests 1 = some r ∧
      r.fromUser = "fan" ∧ r.msgId = some "77" ∧
      step serdeJson plainCfg s (.lookupReply 1) = some s' ∧
      (s'.requests 1).map Request.phase = some (.leaving (some (.text "pong"))) :=
    ⟨_, _, _, rfl, rfl, rfl, rfl, rfl, rfl⟩
  have usual : ∀ a ∈ deliveredTwice, ∀ x ∈ a.message, NoColon x.1 := by decide
  have guarded : Run (step serdeJson plainCfg) senderUsual new deliveredTwice s :=
    (run_iff_exec.mpr run).guard fun a ha _ => usual a ha
  obtain ⟨apart, senders⟩ := run_keysApart guarded
  have own := cached_reply_own apart hr senders.keysApart looks answered
  rwa [sender, id] at own

/-- The two messages spell the same cache key. -/
def crossedFans : List Act :=
  [.receive 0 "a:b" "hi" (some "c"), .acquire 0, .lockOwned 0, .grant 0, .lookupReply 0,
    .route 0 (.text "pong"), .storeReply 0, .release 0,
    .receive 1 "a" "hello" (some "b:c"), .acquire 1, .lockOwned 1, .grant 1]

/-- The second fan gets what was stored for the first. -/
theorem cached_reply_crosses_fans : ∃ (s s' : Plugin 1) (r : Request),
    Run (step serdeJson plainCfg) anyStep new crossedFans s ∧ s.requests 1 = some r ∧
      r.fromUser = "a" ∧ r.msgId = some "b:c" ∧
      step serdeJson plainCfg s (.lookupReply 1) = some s' ∧
      (s'.requests 1).map Request.phase = some (.leaving (some (.text "pong"))) ∧
      ¬ StoredFor serdeJson plainCfg (new : Plugin 1) crossedFans r.fromUser r.msgId "pong" := by
  obtain ⟨s, s', r, first, run, hr, sender, id, looks, answered, hfirst, other⟩ :
      ∃ (s s' : Plugin 1) (r first : Request),
        exec (step serdeJson plainCfg) new crossedFans = some s ∧ s.requests 1 = some r ∧
        r.fromUser = "a" ∧ r.msgId = some "b:c" ∧
        step serdeJson plainCfg s (.lookupReply 1) = some s' ∧
        (s'.requests 1).map Request.phase = some (.leaving (some (.text "pong"))) ∧
        s.requests 0 = some first ∧ first.fromUser = "a:b" :=
    ⟨_, _, _, _, rfl, rfl, rfl, rfl, rfl, rfl, rfl, rfl⟩
  refine ⟨s, s', r, run_iff_exec.mpr run, hr, sender, id, looks, answered, fun stored => ?_⟩
  obtain ⟨t, q, stores, hq, sender', _⟩ := stored.request (run_iff_exec.mpr run)
  have only : t = 0 := by simpa [crossedFans] using stores
  subst only
  obtain rfl := Option.some.inj (hfirst.symm.trans hq)
  have same := other.symm.trans (sender'.trans sender)
  exact absurd same (by decide)

end Plugin
end EvoclawPluginWechat
