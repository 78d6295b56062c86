import EvoclawPluginWechat.Core.WebhookRun
import EvoclawPluginWechat.Properties.ReplayGuard

/-!
What requests without a valid signature do to the others. They pass through the replay
check first, so they can use up a nonce, and nothing else: a request is decided as if they
had not been there unless one of them spent its nonce less than 300 s before.
-/
namespace EvoclawPluginWechat
namespace NonceCache

/-- The instant at which the nonce was seen, as long as it counts. -/
def live (cache : NonceCache) (now : Int) (nonce : String) : Option Int :=
  (cache.value.lookup nonce).filter fun seenAt => decide (seenAt > now - 300 * 1000000000)

theorem live_later (cache : NonceCache) {now later : Int} (h : now ≤ later) (nonce : String) :
    cache.live later nonce =
      (cache.live now nonce).filter fun seenAt => decide (seenAt > later - 300 * 1000000000) := by
  simp only [live, Option.filter_filter]
  congr 1
  funext seenAt
  rw [← Bool.decide_and, decide_eq_decide]
  omega

section Look
variable (cache : NonceCache) (now insertNow : Int) (nonce : String)

abbrev lookNow : Outcome (Except String Unit) × NonceCache :=
  cache.look (now - 300 * 1000000000) insertNow nonce

theorem lookup_kept_eq_live (nonce : String) :
    (Table.retain (fun _ seenAt => decide (seenAt > now - 300 * 1000000000))
      cache.value).lookup nonce = cache.live now nonce :=
  Table.lookup_retain _ _ _

theorem live_kept (bad : Bool) (nonce : String) :
    live ⟨Table.retain (fun _ seenAt => decide (seenAt > now - 300 * 1000000000)) cache.value, bad⟩
      now nonce = cache.live now nonce := by
  rw [live, lookup_kept_eq_live, ← live_later _ (Int.le_refl now)]

theorem look_seen (seen : (cache.live now nonce).isSome) (n : String) :
    (cache.lookNow now insertNow nonce).2.live now n = cache.live now n := by
  rw [lookNow, look, lookup_kept_eq_live, if_pos seen]
  exact cache.live_kept now false n

theorem look_fresh (fresh : cache.live now nonce = none) :
    (cache.lookNow now insertNow nonce).2.value.lookup nonce = some insertNow := by
  rw [lookNow, look, lookup_kept_eq_live, fresh, if_neg (by simp)]
  exact AList.lookup_insert _

theorem look_fst : (cache.lookNow now insertNow nonce).1 =
    if (cache.live now nonce).isSome then
      .returned (.error "nonce already seen within replay window")
    else .returned (.ok ()) := by
  rw [lookNow, look, lookup_kept_eq_live]
  split_ifs
  · rfl
  · rfl

theorem look_other {n : String} (other : n ≠ nonce) :
    (cache.lookNow now insertNow nonce).2.live now n = cache.live now n := by
  cases found : cache.live now nonce with
  | none =>
      rw [lookNow, look, lookup_kept_eq_live, found, if_neg (by simp), live,
        AList.lookup_insert_ne other, lookup_kept_eq_live, ← live_later _ (Int.le_refl now)]
  | some seenAt => exact cache.look_seen now insertNow nonce (by rw [found]; rfl) n

variable {cache now nonce} in
theorem look_same {cache' : NonceCache} (same : cache'.live now nonce = cache.live now nonce) :
    (cache'.lookNow now insertNow nonce).2.live now nonce =
      (cache.lookNow now insertNow nonce).2.live now nonce := by
  cases found : cache.live now nonce with
  | none =>
      rw [live, live, cache.look_fresh now insertNow nonce found,
        cache'.look_fresh now insertNow nonce (same.trans found)]
  | some seenAt =>
      rw [cache.look_seen now insertNow nonce (by rw [found]; rfl),
        cache'.look_seen now insertNow nonce (by rw [same, found]; rfl), same]

theorem look_poisoned : (cache.lookNow now insertNow nonce).2.poisoned = false := by
  rw [lookNow, look]
  split_ifs
  · rfl
  · rfl

end Look
end NonceCache

/-- The timestamp is in the window of `check_replay`. -/
def Post.InWindow (p : Post) : Prop :=
  ∃ ts tsNum, p.query.timestamp = some ts ∧ parseI64 ts = some tsNum ∧
    outsideWindow (currentUnixSecs p.wall) tsNum = false

namespace WebhookRun
variable {crates : CryptoCrates} {cfg : Config} {aesKey : Option AesKey}

def live (s : WebhookRun) (nonce : String) : Option Int := s.nonceCache.live s.now nonce

/-- `check_replay` is decided without the table, or by what it holds under the nonce. -/
theorem screen_cases (crates : CryptoCrates) (cfg : Config) (aesKey : Option AesKey)
    (s : WebhookRun) (p : Post) :
    (∃ d bad, (d = .panicked ∨ d = .returned (.rejected ⟨403, none, "replay rejected"⟩) ∨
        d = .returned (.rejected ⟨400, none, "missing timestamp/nonce"⟩)) ∧
      ∀ t : WebhookRun, t.now = s.now → t.nonceCache.poisoned = s.nonceCache.poisoned →
        t.screen crates cfg aesKey p = (d, ⟨t.nonceCache.value, bad⟩)) ∨
    (∃ nonce d, p.query.nonce = some nonce ∧ p.InWindow ∧ s.nonceCache.poisoned = false ∧
      ∀ t : WebhookRun, t.now = s.now → t.nonceCache.poisoned = false →
        t.screen crates cfg aesKey p =
          (if (t.live nonce).isSome then .returned (.rejected ⟨403, none, "replay rejected"⟩)
            else d,
            (t.nonceCache.lookNow t.now (t.now + p.lag) nonce).2)) := by
  cases timestamp : p.query.timestamp with
  | none =>
      refine .inl ⟨_, s.nonceCache.poisoned, .inr (.inr rfl), fun t _ same => ?_⟩
      rw [screen, Webhook.screen, timestamp, ← same]
  | some ts =>
      cases drawn : p.query.nonce with
      | none =>
          refine .inl ⟨_, s.nonceCache.poisoned, .inr (.inr rfl), fun t _ same => ?_⟩
          rw [screen, Webhook.screen, timestamp, drawn, ← same]
      | some nonce =>
          cases before : beforeLookup s.nonceCache.poisoned p.wall s.now ts with
          | panicked =>
              refine .inl ⟨_, true, .inl rfl, fun t now same => ?_⟩
              simp only [screen, Webhook.screen, timestamp, drawn, checkReplay_eq, same, now,
                before]
          | returned result =>
              cases result with
              | error e =>
                  refine .inl ⟨_, s.nonceCache.poisoned, .inr (.inl rfl), fun t now same => ?_⟩
                  simp only [screen, Webhook.screen, timestamp, drawn, checkReplay_eq, same, now,
                    before]
                  rw [← same]
              | ok cutoff =>
                  obtain ⟨tsNum, parsed, inside, unpoisoned, hc⟩ := beforeLookup_ok_iff.mp before
                  obtain rfl : s.now - 300 * 1000000000 = cutoff := (Instant.sub_eq_some.mp hc).2
                  let d := Webhook.decodeBody crates ⟨cfg, aesKey, s.nonceCache⟩ p.query ts nonce
                    p.body
                  refine .inr ⟨nonce, .returned d, rfl, ⟨ts, tsNum, timestamp, parsed, inside⟩,
                    unpoisoned, fun t now same => ?_⟩
                  rw [unpoisoned] at before
                  simp only [screen, Webhook.screen, timestamp, drawn, checkReplay_eq, same, now,
                    before]
                  have looked : t.nonceCache.look (s.now - 300 * 1000000000) (s.now + p.lag) nonce =
                      (if (t.live nonce).isSome then _ else _, _) :=
                    Prod.ext (by rw [live, now]; exact NonceCache.look_fst ..) rfl
                  rw [looked]
                  split_ifs
                  · rfl
                  · rfl

/-- Two runs side by side: they hold the same under the nonce, unless only the first saw it,
at `burnt` and less than 300 s ago. -/
structure Agree (nonce : Option String) (burnt : Option Int) (s s' : WebhookRun) : Prop where
  now : s'.now = s.now
  poisoned : s'.nonceCache.poisoned = s.nonceCache.poisoned
  live : ∀ n, nonce = some n → s'.live n = s.live n ∨
    ∃ u, burnt = some u ∧ s.now < u + 300 * 1000000000 ∧ s'.live n = none ∧
      ∀ seenAt, s.live n = some seenAt → seenAt ≤ u

section Steps
variable {nonce : Option String} {burnt : Option Int} {s s' : WebhookRun}

theorem Agree.refl (s : WebhookRun) : Agree nonce burnt s s := ⟨rfl, rfl, fun _ _ => .inl rfl⟩

theorem Agree.tick (h : Agree nonce burnt s s') (d : Nat) :
    Agree nonce burnt { s with now := s.now + d } { s' with now := s'.now + d } := by
  have now := h.now
  have later : s.now ≤ s.now + d := by omega
  refine ⟨by change s'.now + d = s.now + d; rw [now], h.poisoned, fun n hn => ?_⟩
  simp only [WebhookRun.live, now, NonceCache.live_later _ later]
  obtain same | ⟨u, hu, young, unseen, old⟩ := h.live n hn
  · rw [WebhookRun.live, now, WebhookRun.live] at same
    exact .inl (by rw [same])
  · rw [WebhookRun.live, now] at unseen
    rw [unseen]
    by_cases still : s.now + d < u + 300 * 1000000000
    · refine .inr ⟨u, hu, still, rfl, fun seenAt seen => ?_⟩
      exact old seenAt (Option.filter_eq_some_iff.mp seen).1
    · -- by now the nonce has lapsed in the first run, too
      left
      symm
      rw [Option.filter_none, Option.filter_eq_none_iff]
      intro seenAt seen
      have := old seenAt seen
      simp only [decide_eq_true_eq]
      omega

theorem Agree.keep (h : Agree nonce burnt s s') {c c' : NonceCache}
    (poisoned : c'.poisoned = c.poisoned)
    (kept : ∀ n, nonce = some n → c.live s.now n = s.live n)
    (kept' : ∀ n, nonce = some n → c'.live s'.now n = s'.live n) :
    Agree nonce burnt { s with nonceCache := c } { s' with nonceCache := c' } := by
  refine ⟨h.now, poisoned, fun n hn => ?_⟩
  rw [WebhookRun.live, WebhookRun.live, kept n hn, kept' n hn]
  exact h.live n hn

theorem live_swept (s : WebhookRun) (n : String) : s.swept.live s.now n = s.live n := by
  rw [swept, sweepCache]
  split
  · rfl
  · split
    · rfl
    · next cutoff hc =>
        obtain rfl := (Instant.sub_eq_some.mp hc).2
        exact s.nonceCache.live_kept s.now false n

theorem Agree.sweep (h : Agree nonce burnt s s') :
    Agree nonce burnt { s with nonceCache := s.swept } { s' with nonceCache := s'.swept } := by
  refine h.keep ?_ (fun n _ => live_swept s n) (fun n _ => live_swept s' n)
  simp only [swept, sweepCache, h.poisoned, h.now]
  split
  · exact h.poisoned
  · split
    · rfl
    · rfl

variable (crates cfg aesKey) in
theorem Agree.post (h : Agree nonce burnt s s') (p : Post)
    (cooled : p.query.nonce = nonce → p.InWindow → ∀ u, burnt = some u →
      u + 300 * 1000000000 ≤ s.now) :
    Agree nonce burnt { s with nonceCache := (s.screen crates cfg aesKey p).2 }
        { s' with nonceCache := (s'.screen crates cfg aesKey p).2 } ∧
      (p.query.nonce = nonce →
        (s'.screen crates cfg aesKey p).1 = (s.screen crates cfg aesKey p).1) := by
  obtain ⟨d, bad, _, settled⟩ | ⟨n, d, drawn, inWindow, unpoisoned, looks⟩ :=
    screen_cases crates cfg aesKey s p
  · rw [settled s rfl rfl, settled s' h.now h.poisoned]
    exact ⟨h.keep rfl (fun _ _ => rfl) (fun _ _ => rfl), fun _ => rfl⟩
  · rw [looks s rfl unpoisoned, looks s' h.now (h.poisoned.trans unpoisoned)]
    have poisoned : (s'.nonceCache.lookNow s'.now (s'.now + p.lag) n).2.poisoned =
        (s.nonceCache.lookNow s.now (s.now + p.lag) n).2.poisoned := by
      rw [NonceCache.look_poisoned, NonceCache.look_poisoned]
    by_cases same : nonce = some n
    · have agree : s'.live n = s.live n := by
        obtain agree | ⟨u, hu, young, _⟩ := h.live n same
        · exact agree
        · have := cooled (drawn.trans same.symm) inWindow u hu
          omega
      refine ⟨⟨h.now, poisoned, fun m hm => .inl ?_⟩, fun _ => by rw [agree]⟩
      obtain rfl := Option.some.inj (same.symm.trans hm)
      simp only [WebhookRun.live, h.now] at agree ⊢
      exact NonceCache.look_same _ agree
    · have other : ∀ m, nonce = some m → m ≠ n := fun m hm eq => same (eq ▸ hm)
      refine ⟨h.keep poisoned ?_ ?_, fun used => absurd (used.symm.trans drawn) same⟩
      · exact fun m hm => NonceCache.look_other _ _ _ _ (other m hm)
      · exact fun m hm => NonceCache.look_other _ _ _ _ (other m hm)

theorem Agree.burn (h : Agree nonce burnt s s') {n : String} (hn : nonce = some n)
    (fresh : s.live n = none) (unpoisoned : s.nonceCache.poisoned = false) (lag : Nat) :
    Agree nonce (some (s.now + lag))
      ⟨s.now + lag, (s.nonceCache.lookNow s.now (s.now + lag) n).2⟩
      { s' with now := s'.now + lag } := by
  have now := h.now
  have later : s.now ≤ s.now + lag := by omega
  have unseen : s'.nonceCache.live s.now n = none := by
    rw [← now]
    obtain same | ⟨_, _, _, unseen, _⟩ := h.live n hn
    · exact same.trans fresh
    · exact unseen
  refine ⟨by change s'.now + lag = s.now + lag; rw [now], ?_, fun m hm => ?_⟩
  · rw [NonceCache.look_poisoned]
    exact h.poisoned.trans unpoisoned
  · obtain rfl := Option.some.inj (hn.symm.trans hm)
    refine .inr ⟨_, rfl, by change s.now + lag < _; omega, ?_, fun seenAt seen => ?_⟩
    · change s'.nonceCache.live (s'.now + lag) n = none
      rw [now, NonceCache.live_later _ later, unseen]
      rfl
    · have inserted := s.nonceCache.look_fresh s.now (s.now + lag) n fresh
      rw [WebhookRun.live, NonceCache.live, inserted] at seen
      exact Int.le_of_eq (Option.some.inj (Option.filter_eq_some_iff.mp seen).1).symm

/-- A request that is taken out has passed the replay check, and spent its nonce. -/
theorem Agree.skip {removed : Response → Bool}
    (replayed : removed ⟨403, none, "replay rejected"⟩ = false)
    (missing : removed ⟨400, none, "missing timestamp/nonce"⟩ = false)
    (h : Agree nonce burnt s s') {p : Post}
    (out : isRemoved removed (s.screen crates cfg aesKey p).1 = true) :
    Agree nonce (if p.query.nonce = nonce then some (s.now + p.lag) else burnt)
      (s.step crates cfg aesKey (.post p)) (s'.step crates cfg aesKey (.tick p.lag)) := by
  obtain ⟨d, bad, early, settled⟩ | ⟨n, d, drawn, inWindow, unpoisoned, looks⟩ :=
    screen_cases crates cfg aesKey s p
  · exfalso
    rw [settled s rfl rfl] at out
    obtain rfl | rfl | rfl := early
    · cases out
    · exact Bool.eq_false_iff.mp replayed out
    · exact Bool.eq_false_iff.mp missing out
  · have screened := looks s rfl unpoisoned
    have stepped : s.step crates cfg aesKey (.post p) =
        ⟨s.now + p.lag, (s.nonceCache.lookNow s.now (s.now + p.lag) n).2⟩ := by
      rw [step, screened]
    have fresh : s.live n = none := by
      cases found : s.live n with
      | none => rfl
      | some seenAt =>
          rw [screened, found] at out
          exact absurd out (Bool.eq_false_iff.mp replayed)
    rw [stepped]
    by_cases used : p.query.nonce = nonce
    · rw [if_pos used]
      exact h.burn (used.symm.trans drawn) fresh unpoisoned p.lag
    · rw [if_neg used]
      have other : ∀ m, nonce = some m → m ≠ n := fun m hm eq => used (drawn.trans (eq ▸ hm.symm))
      have poisoned : s'.nonceCache.poisoned =
          (s.nonceCache.lookNow s.now (s.now + p.lag) n).2.poisoned := by
        rw [NonceCache.look_poisoned, h.poisoned, unpoisoned]
      have kept := h.keep poisoned
        (fun m hm => NonceCache.look_other _ _ (s.now + p.lag) _ (other m hm)) (fun _ _ => rfl)
      exact kept.tick p.lag

end Steps

section Runs
variable (crates cfg aesKey) (removed : Response → Bool)

/-- No request that stays and has the nonce comes within 300 s from `u`. -/
def Cooled (s : WebhookRun) (as : List Act) (nonce : Option String) (u : Int) : Prop :=
  ∀ pre q post, as = pre ++ .post q :: post → q.query.nonce = nonce → q.InWindow →
    isRemoved removed ((s.run crates cfg aesKey pre).screen crates cfg aesKey q).1 = false →
    u + 300 * 1000000000 ≤ (s.run crates cfg aesKey pre).now

/-- No request that stays comes within 300 s from one that is taken out and has its nonce. -/
def Undisturbed (s : WebhookRun) (as : List Act) (nonce : Option String) : Prop :=
  ∀ pre p post, as = pre ++ .post p :: post → p.query.nonce = nonce →
    isRemoved removed ((s.run crates cfg aesKey pre).screen crates cfg aesKey p).1 = true →
    Cooled crates cfg aesKey removed (s.run crates cfg aesKey (pre ++ [.post p])) post nonce
      ((s.run crates cfg aesKey pre).now + p.lag)

variable {crates cfg aesKey removed} {s s' : WebhookRun} {a : Act} {as : List Act}
  {nonce : Option String}

theorem Cooled.tail {u : Int} (h : Cooled crates cfg aesKey removed s (a :: as) nonce u) :
    Cooled crates cfg aesKey removed (s.step crates cfg aesKey a) as nonce u :=
  fun pre q post split => h (a :: pre) q post (by rw [split, List.cons_append])

theorem Undisturbed.tail (h : Undisturbed crates cfg aesKey removed s (a :: as) nonce) :
    Undisturbed crates cfg aesKey removed (s.step crates cfg aesKey a) as nonce :=
  fun pre p post split => h (a :: pre) p post (by rw [split, List.cons_append])

theorem Agree.decisions (replayed : removed ⟨403, none, "replay rejected"⟩ = false)
    (missing : removed ⟨400, none, "missing timestamp/nonce"⟩ = false) {burnt : Option Int}
    (h : Agree nonce burnt s s')
    (undisturbed : Undisturbed crates cfg aesKey removed s as nonce)
    (cooled : ∀ u, burnt = some u → Cooled crates cfg aesKey removed s as nonce u) :
    (s'.decisions crates cfg aesKey (s.without crates cfg aesKey removed as)).filter
        (fun d => d.1.query.nonce = nonce) =
      (s.remaining crates cfg aesKey removed as).filter fun d => d.1.query.nonce = nonce := by
  induction as generalizing s s' burnt with
  | nil => rfl
  | cons a as ih =>
      cases a with
      | tick d => exact ih (h.tick d) undisturbed.tail fun u hu => (cooled u hu).tail
      | gcCaches => exact ih h.sweep undisturbed.tail fun u hu => (cooled u hu).tail
      | post p =>
          cases out : isRemoved removed (s.screen crates cfg aesKey p).1 with
          | true =>
              have rest := ih (h.skip replayed missing out) undisturbed.tail fun u hu => by
                split_ifs at hu with used
                · cases hu
                  exact undisturbed [] p as rfl used out
                · exact (cooled u hu).tail
              simpa [without, remaining, WebhookRun.decisions, out] using rest
          | false =>
              obtain ⟨agree, decided⟩ := h.post crates cfg aesKey p
                fun used inWindow u hu => cooled u hu [] p as rfl used inWindow out
              have next : Agree nonce burnt (s.step crates cfg aesKey (.post p))
                  (s'.step crates cfg aesKey (.post p)) := agree.tick p.lag
              have rest := ih next undisturbed.tail fun u hu => (cooled u hu).tail
              by_cases used : p.query.nonce = nonce
              · simpa [without, remaining, WebhookRun.decisions, out, used, decided used] using rest
              · simpa [without, remaining, WebhookRun.decisions, out, used] using rest

end Runs

theorem unsigned_replayed (mode : EncryptMode) :
    unsigned mode ⟨403, none, "replay rejected"⟩ = false := by
  cases mode
  · rfl
  · rfl
  · rfl

theorem unsigned_missing (mode : EncryptMode) :
    unsigned mode ⟨400, none, "missing timestamp/nonce"⟩ = false := by
  cases mode
  · rfl
  · rfl
  · rfl

/-- Taking out the requests without a valid signature changes no decision about a request
whose nonce none of them spent less than 300 s before. -/
theorem decisions_undisturbed (crates : CryptoCrates) (cfg : Config) (aesKey : Option AesKey)
    (s : WebhookRun) (as : List Act) (nonce : Option String)
    (undisturbed : Undisturbed crates cfg aesKey (unsigned cfg.wechat.encryptMode) s as nonce) :
    (s.decisions crates cfg aesKey
        (s.without crates cfg aesKey (unsigned cfg.wechat.encryptMode) as)).filter
        (fun d => d.1.query.nonce = nonce) =
      (s.remaining crates cfg aesKey (unsigned cfg.wechat.encryptMode) as).filter
        fun d => d.1.query.nonce = nonce := by
  have agree : Agree nonce none s s := .refl s
  exact agree.decisions (unsigned_replayed _) (unsigned_missing _) undisturbed nofun

section Forged

def plainCfg : Config where
  server := { bind := "127.0.0.1:8080" }
  wechat := { token := "tok", appId := "wx1" }

def start : WebhookRun := .new 5000000000

def request (signature : Option String) (nonce : String) : Act :=
  .post ⟨1700000000000000000, 0, ⟨signature, some "1700000000", some nonce, none, none⟩,
    "<xml></xml>"⟩

def forgedFirst (crates : CryptoCrates) (forged genuine : String) : List Act :=
  [request none forged,
    request (some (Signature.plainSignature crates "tok" "1700000000" genuine)) genuine]

def accepted : Outcome Webhook.Decision → Bool
  | .returned (.dispatched _ _) => true
  | _ => false

/-- The forged request is rejected, and so is the genuine one, which gets through alone. -/
theorem forged_spends_nonce : Config.validate (fun _ => .ok ()) plainCfg = .ok () ∧
    ∀ crates,
      ((start.remaining crates plainCfg none (unsigned .plain)
        (forgedFirst crates "n-1" "n-1")).map fun d => accepted d.2) = [false] ∧
      ((start.decisions crates plainCfg none (start.without crates plainCfg none (unsigned .plain)
        (forgedFirst crates "n-1" "n-1"))).map fun d => accepted d.2) = [true] := by
  refine ⟨rfl, fun crates => ⟨rfl, ?_⟩⟩
  have fresh : (checkReplay (.new ∅) 1700000000000000000 5000000000 5000000000 "1700000000"
      "n-1").1 = .returned (.ok ()) := by decide
  have looked : checkReplay (.new ∅) 1700000000000000000 5000000000 5000000000 "1700000000"
      "n-1" = (.returned (.ok ()), _) := Prod.ext fresh rfl
  let q : WebhookQuery :=
    ⟨some (Signature.plainSignature crates "tok" "1700000000" "n-1"), some "1700000000",
      some "n-1", none, none⟩
  have admitted : (Webhook.screen crates ⟨plainCfg, none, .new ∅⟩
      ⟨1700000000000000000, 5000000000, 5000000000⟩ q "<xml></xml>").1 =
      .returned (.dispatched "<xml></xml>" false) := by
    simp only [Webhook.screen, q, looked, Webhook.decodeBody, plainCfg, Signature.verify_self,
      if_true]
  exact congrArg (fun d => [accepted d]) admitted

/-- The genuine request comes 300 s after one that spent its nonce, and right after one with
another nonce. -/
def forgedBefore (crates : CryptoCrates) : List Act :=
  [request none "n-1", .tick 300000000000, request none "n-2",
    .post ⟨1700000300000000000, 0, ⟨some (Signature.plainSignature crates "tok" "1700000000" "n-1"),
      some "1700000000", some "n-1", none, none⟩, "<xml></xml>"⟩]

/-- The forged requests do no harm then. -/
theorem decisions_undisturbed_cooled : Config.validate (fun _ => .ok ()) plainCfg = .ok () ∧
    ∀ crates,
      (start.decisions crates plainCfg none (start.without crates plainCfg none (unsigned .plain)
          (forgedBefore crates))).filter (fun d => d.1.query.nonce = some "n-1") =
        (start.remaining crates plainCfg none (unsigned .plain)
          (forgedBefore crates)).filter fun d => d.1.query.nonce = some "n-1" := by
  refine ⟨rfl, fun crates => decisions_undisturbed crates plainCfg none start _ _ ?_⟩
  intro pre p post split used _
  match pre with
  | [] =>
      obtain ⟨first, rest⟩ := List.cons.inj split
      obtain rfl := Act.post.inj first
      subst rest
      intro pre' q post' split' used' _ _
      match pre' with
      | [] => cases (List.cons.inj split').1
      | [a] =>
          obtain rfl := Act.post.inj (List.cons.inj (List.cons.inj split').2).1
          exact absurd used' (by decide)
      | [a, b] =>
          obtain ⟨rfl, later⟩ := List.cons.inj split'
          obtain ⟨rfl, _⟩ := List.cons.inj later
          exact Int.le_refl _
      | a :: b :: c :: pre' =>
          have none_left := (List.cons.inj (List.cons.inj (List.cons.inj split').2).2).2
          simp at none_left
  | [a] => cases (List.cons.inj (List.cons.inj split).2).1
  | [a, b] =>
      obtain rfl := Act.post.inj (List.cons.inj (List.cons.inj (List.cons.inj split).2).2).1
      exact absurd used (by decide)
  | [a, b, c] =>
      obtain rfl := (List.cons.inj (List.cons.inj (List.cons.inj (List.cons.inj
        split).2).2).2).2
      intro pre' q post' none_left
      simp at none_left
  | a :: b :: c :: d :: pre =>
      have none_left := (List.cons.inj (List.cons.inj (List.cons.inj (List.cons.inj
        split).2).2).2).2
      simp at none_left

end Forged

end WebhookRun
end EvoclawPluginWechat
