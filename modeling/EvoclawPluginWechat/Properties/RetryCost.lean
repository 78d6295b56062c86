import EvoclawPluginWechat.Properties.CacheSteps
import EvoclawPluginWechat.Properties.CanonicalTags

/-!
What the retry of a message costs. A text is in the cache when its delivery ends, a news card
is not, and neither is a cached text that was old already; without the text a retry is
classified and answered anew.
-/
namespace EvoclawPluginWechat
open Transition Webhook

section
variable (crates : TextCrates) (cfg : Config)

/-- A message that is not answered from the cache goes to a bridge, to be classified or
answered. -/
def NeedsModel (userMsg : String) : Prop :=
  cfg.intent.enabled = true →
    Dict.classify crates userMsg cfg.intent.dict = none ∧ cfg.intent.aiFallback = true

/-- By the dictionary or, where it says nothing, by the classifier's answer. -/
def Recognised (userMsg : String) (w : Surroundings) (i : Intent) : Prop :=
  Dict.classify crates userMsg cfg.intent.dict = some i ∨
    Dict.classify crates userMsg cfg.intent.dict = none ∧ cfg.intent.aiFallback = true ∧
      ∃ raw r, w.classifier = .asked (some (.ok raw)) ∧ Ai.Reads crates raw r ∧
        Ai.rawToIntent r = i

/-- The message asks for events, the digest has some, and the card has its links. -/
def GetsCard (userMsg : String) (w : Surroundings) : Prop :=
  cfg.intent.enabled = true ∧ cfg.router.newsCard.picUrl ≠ "" ∧ cfg.router.newsCard.url ≠ "" ∧
    ∃ i snap events, Recognised crates cfg userMsg w i ∧ i.kind = .events ∧
      w.snapshot = some snap ∧ events ≠ [] ∧
      snap.query crates.parseDate (WechatRouter.eventsFilter i.filter cfg.router) w.today =
        .returned events

end

variable {crates : TextCrates} {cfg : Config} {cid fromUser userMsg : String}
  {msgId : Option String} {w : Surroundings}

theorem classifyIntent_eq_iff {i : Intent} (on : cfg.intent.enabled = true)
    (known : i.kind ≠ .unknown) :
    (classifyIntent crates cfg userMsg w).1 = .returned i ↔ Recognised crates cfg userMsg w i := by
  have other : Intent.unknown ≠ i := fun same => known (same ▸ rfl)
  constructor
  · intro h
    unfold classifyIntent at h
    split at h
    · next found => exact .inl (Outcome.returned.inj h ▸ found)
    · next missed =>
        split at h
        · next fallback =>
            rw [aiClassifier, on, fallback] at h
            simp only [Bool.and_self, if_true, AiClassifier.classify] at h
            split at h
            · next raw answer =>
                split at h
                · cases h
                · next parsed =>
                    cases h
                    obtain ⟨r, read, same⟩ := Ai.parseIntent_ok_iff.mp parsed
                    exact .inr ⟨missed, fallback, raw, r, answer, read, same⟩
                · exact absurd (Outcome.returned.inj h) other
            · exact absurd (Outcome.returned.inj h) other
        · exact absurd (Outcome.returned.inj h) other
  · rintro (found | ⟨missed, fallback, raw, r, answer, read, rfl⟩)
    · rw [classifyIntent, found]
    · exact classifyIntent_of_answer on fallback missed answer read

theorem classifyIntent_asks (known : (Dict.classify crates userMsg cfg.intent.dict).isSome = true ∨
    cfg.intent.aiFallback = false) : (classifyIntent crates cfg userMsg w).2 = [] := by
  rw [classifyIntent]
  split
  · rfl
  · next missed =>
      obtain found | off := known
      · rw [missed] at found
        cases found
      · rw [if_neg (by simp [off])]

theorem replyWith_card {filter : EventFilter} {snap : DigestSnapshot} {events : List Event} :
    (∃ article, WechatRouter.replyWith cfg.router filter snap events = .news article) ↔
      events ≠ [] ∧ cfg.router.newsCard.picUrl ≠ "" ∧ cfg.router.newsCard.url ≠ "" := by
  rw [WechatRouter.replyWith]
  split
  · next empty => exact iff_of_false (fun ⟨_, h⟩ => by cases h) (fun ⟨found, _⟩ => found empty)
  · next found =>
      split
      · next missing =>
          refine iff_of_false (fun ⟨_, h⟩ => by cases h) ?_
          rintro ⟨_, picUrl, url⟩
          exact missing.elim picUrl url
      · next linked =>
          rw [not_or] at linked
          exact iff_of_true ⟨_, rfl⟩ ⟨found, linked⟩

theorem route_card {i : Intent} {article : NewsArticle} :
    WechatRouter.route crates.parseDate i w.snapshot cfg.router w.today =
        .returned (.news article) ↔
      i.kind = .events ∧ ∃ snap events, w.snapshot = some snap ∧
        snap.query crates.parseDate (WechatRouter.eventsFilter i.filter cfg.router) w.today =
          .returned events ∧
        WechatRouter.replyWith cfg.router i.filter snap events = .news article := by
  unfold WechatRouter.route
  cases kind : i.kind with
  | help | unknown | generalQa => simp
  | events =>
      cases stored : w.snapshot with
      | none => simp
      | some snap =>
          dsimp only
          rw [WechatRouter.buildEventsReply]
          cases query : snap.query crates.parseDate
              (WechatRouter.eventsFilter i.filter cfg.router) w.today with
          | panicked => simp [query]
          | returned events => simp [query]

theorem computeReply_returned_iff {reply : WechatRouter.Reply} (on : cfg.intent.enabled = true) :
    (computeReply crates cfg userMsg w).1 = .returned reply ↔
      ∃ i, (classifyIntent crates cfg userMsg w).1 = .returned i ∧
        WechatRouter.route crates.parseDate i w.snapshot cfg.router w.today = .returned reply := by
  rw [computeReply, if_pos on]
  split
  · next panic => simp [panic]
  · next i asks classified =>
      rw [classified]
      constructor
      · exact fun h => ⟨i, rfl, h⟩
      · rintro ⟨_, ⟨⟩, h⟩
        exact h

theorem computeReply_card :
    (∃ article, (computeReply crates cfg userMsg w).1 = .returned (.news article)) ↔
      GetsCard crates cfg userMsg w := by
  by_cases on : cfg.intent.enabled = true
  · constructor
    · rintro ⟨article, h⟩
      obtain ⟨i, intent, h⟩ := (computeReply_returned_iff on).mp h
      obtain ⟨events, snap, matched, stored, query, card⟩ := route_card.mp h
      obtain ⟨found, picUrl, url⟩ := replyWith_card.mp ⟨article, card⟩
      have known : i.kind ≠ .unknown := fun h => by cases events.symm.trans h
      exact ⟨on, picUrl, url, i, snap, matched, (classifyIntent_eq_iff on known).mp intent, events,
        stored, found, query⟩
    · rintro ⟨_, picUrl, url, i, snap, matched, recognised, events, stored, found, query⟩
      obtain ⟨article, card⟩ := replyWith_card.mpr ⟨found, picUrl, url⟩
      have known : i.kind ≠ .unknown := fun h => by cases events.symm.trans h
      refine ⟨article, (computeReply_returned_iff on).mpr ⟨i, ?_, ?_⟩⟩
      · exact (classifyIntent_eq_iff on known).mpr recognised
      · exact route_card.mpr ⟨events, snap, matched, stored, query, card⟩
  · refine iff_of_false ?_ fun h => on h.1
    rintro ⟨article, h⟩
    rw [computeReply, if_neg on] at h
    cases h

theorem computePayload_card :
    (∃ article, (computePayload crates cfg cid fromUser userMsg w).1 = .returned (.news article)) ↔
      GetsCard crates cfg userMsg w := by
  rw [← computeReply_card, computePayload]
  split <;> next h => simp [h]

theorem route_fallback {i : Intent}
    (h : WechatRouter.route crates.parseDate i w.snapshot cfg.router w.today =
      .returned .fallbackToLlm) : i.kind = .generalQa := by
  have carries : ∀ filter snap events,
      WechatRouter.replyWith cfg.router filter snap events ≠ .fallbackToLlm := by
    intro filter snap events
    rw [WechatRouter.replyWith]
    split
    · exact nofun
    · split <;> exact nofun
  unfold WechatRouter.route at h
  split at h
  · cases h
  · cases h
  · assumption
  · split at h
    · cases h
    · unfold WechatRouter.buildEventsReply at h
      split at h
      · cases h
      · exact absurd (Outcome.returned.inj h) (carries _ _ _)

theorem classify_not_generalQa {dict : IntentDictCfg} {i : Intent}
    (found : Dict.classify crates userMsg dict = some i) : i.kind ≠ .generalQa := by
  unfold Dict.classify at found
  dsimp only at found
  split at found
  · cases found
    exact nofun
  · split at found
    · cases found
    · cases found
      exact nofun

/-- Only the classifier leaves a message to the bridge. -/
theorem classifyIntent_not_generalQa {i : Intent}
    (known : (Dict.classify crates userMsg cfg.intent.dict).isSome = true ∨
      cfg.intent.aiFallback = false)
    (h : (classifyIntent crates cfg userMsg w).1 = .returned i) : i.kind ≠ .generalQa := by
  unfold classifyIntent at h
  split at h
  · next found => exact Outcome.returned.inj h ▸ classify_not_generalQa found
  · next missed =>
      obtain found | off := known
      · rw [missed] at found
        cases found
      · rw [if_neg (by simp [off])] at h
        cases h
        exact nofun

theorem not_needsModel_iff : ¬ NeedsModel crates cfg userMsg ↔
    cfg.intent.enabled = true ∧ ((Dict.classify crates userMsg cfg.intent.dict).isSome = true ∨
      cfg.intent.aiFallback = false) := by
  rw [NeedsModel, Classical.not_imp, not_and_or, ← ne_eq, Option.ne_none_iff_isSome,
    Bool.not_eq_true]

/-- A message that the dictionary knows, or that nobody is to classify, costs no question. -/
theorem computePayload_asks (h : ¬ NeedsModel crates cfg userMsg) :
    (computePayload crates cfg cid fromUser userMsg w).2 = [] := by
  obtain ⟨on, known⟩ := not_needsModel_iff.mp h
  have asks : (computeReply crates cfg userMsg w).2 = [] := by
    have classified := classifyIntent_asks (w := w) known
    rw [computeReply, if_pos on]
    split <;> next h => rwa [h] at classified
  rw [computePayload]
  split
  · next reply => rwa [reply] at asks
  · next reply => rwa [reply] at asks
  · next reply => rwa [reply] at asks
  · next reply =>
      obtain ⟨i, intent, routed⟩ := (computeReply_returned_iff on).mp (congrArg Prod.fst reply)
      exact absurd (route_fallback routed) (classifyIntent_not_generalQa known intent)

/-- Nothing but time-outs. -/
def unanswered : Surroundings where
  wall := 0
  classifier := .asked none
  snapshot := none
  today := ⟨0, by decide⟩
  bridge := .asked none

theorem computePayload_unanswered (h : NeedsModel crates cfg userMsg) :
    (computePayload crates cfg cid fromUser userMsg unanswered).2 ≠ [] := by
  by_cases on : cfg.intent.enabled = true
  · obtain ⟨missed, fallback⟩ := h on
    have classified : ∃ call,
        classifyIntent crates cfg userMsg unanswered = (.returned .unknown, [call]) := by
      rw [classifyIntent, missed]
      dsimp only
      rw [if_pos fallback, aiClassifier, on, fallback]
      exact ⟨_, rfl⟩
    obtain ⟨call, classified⟩ := classified
    rw [computePayload, computeReply, if_pos on, classified]
    exact List.cons_ne_nil _ _
  · rw [computePayload, computeReply, if_neg on]
    exact List.cons_ne_nil _ _

variable {s m : CacheRun} {key : String} {t : Int} {others : List CacheRun.Act}
  {delivery : Delivery}

theorem lookupPayload_step :
    s.step (.lookupCachedReply key) = some (lookupPayload s (some key)).2 := rfl

theorem lookupPayload_found (clean : s.Clean) (key : Option String) :
    ∃ found, (lookupPayload s key).1 = .returned found ∧
      (found.isSome = true ↔ ∃ k, key = some k ∧ s.StillCached k s.now) := by
  cases key with
  | none => exact ⟨none, rfl, by simp⟩
  | some key =>
      rw [lookupPayload, lookupCachedReply_of_sub clean.reply clean.subReply]
      refine ⟨_, rfl, ?_⟩
      simp only [Option.isSome_map, Option.isSome_iff_exists, Option.some.injEq,
        exists_eq_left']
      exact exists_congr fun e => CacheRun.lookup_younger

theorem storePayload_of_clean (clean : s.Clean) (key : Option String)
    (payload : Webhook.ReplyPayload) (asks : List AskCall) :
    (storePayload s key payload asks).payload = .returned payload ∧
      (storePayload s key payload asks).asks = asks ∧
      (storePayload s key payload asks).after.now = s.now := by
  rw [storePayload.eq_def]
  split
  · rw [storeReply_of_sub clean.reply clean.subReply]
    exact ⟨rfl, rfl, rfl⟩
  · exact ⟨rfl, rfl, rfl⟩

theorem lookupPayload_stillCached (clean : s.Clean) (later : s.now ≤ t) :
    (lookupPayload s (some key)).2.StillCached key t ↔ s.StillCached key t := by
  rw [lookupPayload, lookupCachedReply_of_sub clean.reply clean.subReply]
  refine exists_congr fun e => ?_
  change (Table.retain _ _).lookup key = some e ∧ _ ↔ _
  rw [CacheRun.lookup_younger]
  exact ⟨fun h => ⟨h.1.1, h.2⟩, fun h => ⟨⟨h.1, Int.lt_of_le_of_lt later h.2⟩, h.2⟩⟩

theorem lookupPayload_now (key : Option String) : (lookupPayload s key).2.now = s.now := by
  cases key <;> rfl

theorem lookupPayload_clean (clean : s.Clean) (key : Option String) :
    (lookupPayload s key).2.Clean := by
  cases key with
  | none => exact clean
  | some key => exact (clean.follows lookupPayload_step).clean

theorem lookupPayload_timely (timely : s.Timely) (key : Option String) :
    (lookupPayload s key).2.Timely := by
  cases key with
  | none => exact timely
  | some key => exact timely.follows (timely.toClean.follows lookupPayload_step)

theorem storePayload_timely (timely : m.Timely) (key : Option String)
    (payload : Webhook.ReplyPayload) (asks : List AskCall) :
    (storePayload m key payload asks).after.Timely := by
  rw [storePayload.eq_def]
  split
  · next key text =>
      rw [storeReply_of_sub timely.reply timely.toClean.subReply]
      exact timely.follows (timely.toClean.follows_store key text)
  · exact timely

/-- A delivery is answered from the cache, or computed and stored. -/
inductive Delivers (crates : TextCrates) (cfg : Config) (s : CacheRun)
    (cid fromUser userMsg : String) (msgId : Option String) (w : Surroundings)
    (others : List CacheRun.Act) : Delivery → Prop
  | cached {key text : String} : cacheKey fromUser msgId = some key → s.StillCached key s.now →
      Delivers crates cfg s cid fromUser userMsg msgId w others
        ⟨.returned (.text text), [], (lookupPayload s (some key)).2⟩
  | panicked {m : CacheRun} {asks : List AskCall} :
      (∀ key, cacheKey fromUser msgId = some key → ¬ s.StillCached key s.now) →
      computePayload crates cfg cid fromUser userMsg w = (.panicked, asks) →
      Delivers crates cfg s cid fromUser userMsg msgId w others ⟨.panicked, asks, m⟩
  | computed {m : CacheRun} {payload : Webhook.ReplyPayload} {asks : List AskCall} :
      (∀ key, cacheKey fromUser msgId = some key → ¬ s.StillCached key s.now) →
      exec CacheRun.step (lookupPayload s (cacheKey fromUser msgId)).2 others = some m →
      computePayload crates cfg cid fromUser userMsg w = (.returned payload, asks) →
      Delivers crates cfg s cid fromUser userMsg msgId w others
        (storePayload m (cacheKey fromUser msgId) payload asks)

theorem delivers_of_computeTextPayload (clean : s.Clean)
    (h : computeTextPayload crates cfg s cid fromUser userMsg msgId w others = some delivery) :
    Delivers crates cfg s cid fromUser userMsg msgId w others delivery := by
  obtain ⟨found, same, isSome⟩ := lookupPayload_found clean (cacheKey fromUser msgId)
  unfold computeTextPayload at h
  dsimp only at h
  split at h
  · next looked =>
      rw [looked] at same
      cases same
  · next text s' looked =>
      rw [looked] at same
      cases same
      cases h
      obtain ⟨key, hkey, cached⟩ := isSome.mp rfl
      have after : s' = (lookupPayload s (some key)).2 := by rw [← hkey, looked]
      rw [after]
      exact .cached hkey cached
  · next s' looked =>
      rw [looked] at same
      cases same
      obtain ⟨m, run, rfl⟩ := Option.map_eq_some_iff.mp h
      have missed : ∀ key, cacheKey fromUser msgId = some key → ¬ s.StillCached key s.now :=
        fun key hkey cached => by cases isSome.mpr ⟨key, hkey, cached⟩
      split
      · next computed => exact .panicked missed computed
      · next computed =>
          refine .computed missed ?_ computed
          rwa [looked]

theorem computeTextPayload_missed (clean : s.Clean)
    (missed : ∀ key, cacheKey fromUser msgId = some key → ¬ s.StillCached key s.now) :
    ∃ delivery, computeTextPayload crates cfg s cid fromUser userMsg msgId w [] = some delivery ∧
      delivery.asks = (computePayload crates cfg cid fromUser userMsg w).2 := by
  obtain ⟨found, same, isSome⟩ := lookupPayload_found clean (cacheKey fromUser msgId)
  have nothing : found = none := by
    refine Option.not_isSome_iff_eq_none.mp fun something => ?_
    obtain ⟨key, hkey, cached⟩ := isSome.mp something
    exact missed key hkey cached
  subst nothing
  have looked : lookupPayload s (cacheKey fromUser msgId) =
      (.returned none, (lookupPayload s (cacheKey fromUser msgId)).2) := Prod.ext same rfl
  have clean' := lookupPayload_clean clean (cacheKey fromUser msgId)
  rw [computeTextPayload, looked]
  refine ⟨_, rfl, ?_⟩
  split
  · next computed => rw [computed]
  · next computed =>
      rw [computed]
      exact (storePayload_of_clean clean' _ _ _).2.1

theorem storePayload_text (clean : m.Clean) (key text : String) (asks : List AskCall)
    (soon : t < m.now + (replyCacheTtl : Int)) :
    (storePayload m (some key) (.text text) asks).after.StillCached key t := by
  rw [storePayload, storeReply_of_sub clean.reply clean.subReply]
  exact ⟨⟨m.now, text⟩, Table.lookup_insert_eq_some.mpr (.inl ⟨rfl, rfl⟩), soon⟩

/-- A computed reply leaves a text, except that a card leaves what is there. -/
theorem storePayload_stillCached (clean : m.Clean) {payload : Webhook.ReplyPayload}
    {asks : List AskCall}
    (computed : computePayload crates cfg cid fromUser userMsg w = (.returned payload, asks))
    (soon : t < m.now + (replyCacheTtl : Int)) :
    (storePayload m (some key) payload asks).after.StillCached key t ↔
      ¬ GetsCard crates cfg userMsg w ∨ m.StillCached key t := by
  have card : (∃ article, (computePayload crates cfg cid fromUser userMsg w).1 =
      .returned (.news article)) ↔ _ := computePayload_card
  rw [computed] at card
  cases payload with
  | text text =>
      have no_card : ¬ GetsCard crates cfg userMsg w := fun got => by
        obtain ⟨_, h⟩ := card.mpr got
        cases h
      exact iff_of_true (storePayload_text clean key text asks soon) (.inl no_card)
  | news article =>
      have got := card.mp ⟨article, rfl⟩
      exact ⟨.inr, fun h => h.resolve_left (not_not_intro got)⟩

/-- From the state before a delivery, whether the cache has a text at a later instant: one that
is there already and young enough or, where there is none, the delivery's own or one that is
stored while it waits. -/
def LeavesText (crates : TextCrates) (cfg : Config) (s : CacheRun) (fromUser userMsg : String)
    (msgId : Option String) (w : Surroundings) (others : List CacheRun.Act) (t : Int) : Prop :=
  ∃ key, cacheKey fromUser msgId = some key ∧
    (s.StillCached key t ∨ ¬ s.StillCached key s.now ∧
      (¬ GetsCard crates cfg userMsg w ∨
        ∃ m, exec CacheRun.step s (.lookupCachedReply key :: others) = some m ∧
          m.StillCached key t))

theorem Delivers.leavesText (timely : s.Timely)
    (h : Delivers crates cfg s cid fromUser userMsg msgId w others delivery)
    {payload : Webhook.ReplyPayload} (returned : delivery.payload = .returned payload)
    (later : delivery.after.now ≤ t) (soon : t < delivery.after.now + (replyCacheTtl : Int)) :
    (∃ key, cacheKey fromUser msgId = some key ∧ delivery.after.StillCached key t) ↔
      LeavesText crates cfg s fromUser userMsg msgId w others t := by
  refine exists_congr fun key => and_congr_right fun hkey => ?_
  cases h with
  | panicked _ => cases returned
  | cached hkey' cached =>
      cases hkey.symm.trans hkey'
      rw [lookupPayload_stillCached timely.toClean later]
      exact ⟨.inl, fun h => h.resolve_right fun missed => missed.1 cached⟩
  | @computed m payload' asks missed run computed =>
      have missed := missed key hkey
      rw [hkey] at run later soon returned ⊢
      obtain ⟨timely', after⟩ :=
        (lookupPayload_timely timely (some key)).run (run_iff_exec.mpr run)
      have now := (storePayload_of_clean timely'.toClean (some key) payload' asks).2.2
      rw [now] at later soon
      have gone : ¬ s.StillCached key t := fun cached =>
        missed (cached.sooner (lookupPayload_now (some key) ▸ Int.le_trans after later))
      have meanwhile : (∃ m', exec CacheRun.step s (.lookupCachedReply key :: others) = some m' ∧
          m'.StillCached key t) ↔ m.StillCached key t := by
        have whole : exec CacheRun.step s (.lookupCachedReply key :: others) = some m := run
        rw [whole]
        simp
      rw [storePayload_stillCached timely'.toClean computed soon, meanwhile]
      exact ⟨fun h => .inr ⟨missed, h⟩, fun h => (h.resolve_left gone).2⟩

theorem Delivers.after_timely (timely : s.Timely)
    (h : Delivers crates cfg s cid fromUser userMsg msgId w others delivery)
    {payload : Webhook.ReplyPayload} (returned : delivery.payload = .returned payload) :
    delivery.after.Timely := by
  cases h with
  | panicked => cases returned
  | cached => exact lookupPayload_timely timely _
  | computed _ run _ =>
      have timely' := ((lookupPayload_timely timely _).run (run_iff_exec.mpr run)).1
      exact storePayload_timely timely' _ _ _

theorem Delivers.asks_cached
    (h : Delivers crates cfg s cid fromUser userMsg msgId w others delivery)
    (hkey : cacheKey fromUser msgId = some key) (cached : s.StillCached key s.now) :
    delivery.asks = [] := by
  cases h with
  | panicked missed | computed missed => exact absurd cached (missed key hkey)
  | cached => rfl

theorem Delivers.asks_no_model (timely : s.Timely)
    (h : Delivers crates cfg s cid fromUser userMsg msgId w others delivery)
    (spared : ¬ NeedsModel crates cfg userMsg) : delivery.asks = [] := by
  have none : (computePayload crates cfg cid fromUser userMsg w).2 = [] :=
    computePayload_asks spared
  cases h with
  | cached => rfl
  | panicked _ computed =>
      rw [computed] at none
      exact none
  | computed _ run computed =>
      have timely' := ((lookupPayload_timely timely _).run (run_iff_exec.mpr run)).1
      rw [computed] at none
      exact (storePayload_of_clean timely'.toClean _ _ _).2.1.trans none

/-- Nothing happens but that time passes. -/
def wait (s : CacheRun) (t : Int) : CacheRun :=
  { s with wall := s.wall + (t - s.now).toNat, now := s.now + (t - s.now).toNat }

theorem run_wait (s : CacheRun) (t : Int) :
    Run CacheRun.step anyStep s [.tick (t - s.now).toNat] (wait s t) :=
  .cons trivial rfl (.nil _)

theorem wait_now (later : s.now ≤ t) : (wait s t).now = t := by
  change s.now + ((t - s.now).toNat : Int) = t
  omega

theorem retry_asks_nothing_iff {start : CacheRun} {as : List CacheRun.Act} {first : Delivery}
    {payload : Webhook.ReplyPayload} (fresh : start.caches = .new) (clock : 0 ≤ start.now)
    (run : Run CacheRun.step anyStep start as s)
    (delivered : computeTextPayload crates cfg s cid fromUser userMsg msgId w others = some first)
    (completed : first.payload = .returned payload) (later : first.after.now ≤ t)
    (soon : t < first.after.now + (replyCacheTtl : Int)) (retryMsg : String) :
    (∀ bs s' w' others' second, Run CacheRun.step anyStep first.after bs s' → s'.now = t →
        computeTextPayload crates cfg s' cid fromUser retryMsg msgId w' others' = some second →
        second.asks = []) ↔
      ¬ NeedsModel crates cfg retryMsg ∨
        LeavesText crates cfg s fromUser userMsg msgId w others t := by
  have timely : s.Timely := ((CacheRun.timely_new fresh clock).run run).1
  have delivers := delivers_of_computeTextPayload timely.toClean delivered
  have after := delivers.after_timely timely completed
  rw [← delivers.leavesText timely completed later soon]
  constructor
  · intro quiet
    by_contra open_case
    rw [not_or, not_not] at open_case
    obtain ⟨needs, gone⟩ := open_case
    have now := wait_now later
    have clean : (wait first.after t).Clean := (after.run (run_wait first.after t)).1.toClean
    have retry : ∃ second, computeTextPayload crates cfg (wait first.after t) cid fromUser retryMsg
        msgId unanswered [] = some second ∧
        second.asks = (computePayload crates cfg cid fromUser retryMsg unanswered).2 :=
      computeTextPayload_missed clean fun key hkey cached => gone ⟨key, hkey, now ▸ cached⟩
    obtain ⟨second, retried, asks⟩ := retry
    have none := quiet _ _ unanswered [] second (run_wait first.after t) now retried
    exact computePayload_unanswered needs (asks.symm.trans none)
  · rintro (spared | ⟨key, hkey, cached⟩) bs s' w' others' second run' now retried
    all_goals
      have timely' := (after.run run').1
      have retries := delivers_of_computeTextPayload timely'.toClean retried
    · exact retries.asks_no_model timely' spared
    · have still := after.run_stillCached run' (Int.le_of_eq now) cached
      exact retries.asks_cached hkey (now ▸ still)

/-- Without the intent layer. -/
def chatCfg : Config where
  server := { bind := "127.0.0.1:8080" }
  wechat := { token := "token", appId := "wx1" }

def startRun : CacheRun := ⟨.new, 1700000000000000000, 0⟩

def answersPong : Surroundings := { unanswered with bridge := .asked (some (.ok "pong")) }

theorem retry_asks_nothing_iff_text : ∃ first,
    computeTextPayload cityCrates chatCfg startRun "wx-wx1-fan" "fan" "hi" (some "77") answersPong
      [.tick 2000000000] = some first ∧
    ∀ bs s' w' others' second, Run CacheRun.step anyStep first.after bs s' →
      s'.now = 7000000000 →
      computeTextPayload cityCrates chatCfg s' "wx-wx1-fan" "fan" "hi" (some "77") w' others' =
        some second → second.asks = [] := by
  obtain ⟨first, delivered, completed, now⟩ : ∃ first,
      computeTextPayload cityCrates chatCfg startRun "wx-wx1-fan" "fan" "hi" (some "77") answersPong
        [.tick 2000000000] = some first ∧ first.payload = .returned (.text "pong") ∧
      first.after.now = 2000000000 := ⟨_, rfl, rfl, rfl⟩
  refine ⟨first, delivered, (retry_asks_nothing_iff rfl (by decide) (.nil startRun) delivered
    completed ?_ ?_ "hi").mpr (.inr ⟨"fan:77", rfl, .inr ⟨?_, .inl fun card => ?_⟩⟩)⟩
  · rw [now]
    decide
  · rw [now]
    decide
  · rintro ⟨e, he, _⟩
    cases he
  · cases card.1

/-- A news card for one event. -/
def cardCfg : Config :=
  { oneCityCfg with router := { newsCard :=
    { picUrl := "https://example.com/cover.jpg", url := "https://example.com/digest" } } }

def artWeek : Event where
  id := "a"
  title := "Art Week"
  description := ""
  country := none
  city := some "Dubai"
  category := none
  dateStart := none
  dateEnd := none
  timeOfDay := none
  venue := none
  url := none
  imageUrl := none

def asksForDubai : Surroundings :=
  { answeredBy (answerOf "Dubai") with
    snapshot := some ⟨⟨1, "2026-05-16", []⟩, ⟨1, [artWeek]⟩⟩ }

/-- The card is not cached, and the message is classified once more. -/
theorem card_retry_asks_again :
    cardCfg.validate (fun _ => .ok ()) = .ok () ∧ ∃ first s' second article,
      computeTextPayload cityCrates cardCfg startRun "wx-wx1-fan" "fan" cityQuestion (some "77")
        asksForDubai [] = some first ∧
      first.payload = .returned (.news article) ∧
      Run CacheRun.step anyStep first.after [.tick 5000000000] s' ∧
      computeTextPayload cityCrates cardCfg s' "wx-wx1-fan" "fan" cityQuestion (some "77")
        asksForDubai [] = some second ∧ second.asks.length = 1 := by
  have read : Ai.Reads cityCrates (answerOf "Dubai") ⟨"events", { city := some "Dubai" }⟩ :=
    ⟨_, rfl, rfl⟩
  obtain ⟨call, classified⟩ : ∃ call, classifyIntent cityCrates cardCfg cityQuestion asksForDubai =
      (.returned ⟨.events, { city := some "Dubai" }⟩, [call]) :=
    ⟨_, Prod.ext (classifyIntent_of_answer rfl rfl rfl rfl read) rfl⟩
  have on : cardCfg.intent.enabled = true := rfl
  obtain ⟨article, computed⟩ : ∃ article,
      computePayload cityCrates cardCfg "wx-wx1-fan" "fan" cityQuestion asksForDubai =
        (.returned (.news article), [call]) := by
    rw [computePayload, computeReply, if_pos on, classified]
    exact ⟨_, rfl⟩
  have delivery : ∀ s, lookupPayload s (some "fan:77") = (.returned none, s) →
      computeTextPayload cityCrates cardCfg s "wx-wx1-fan" "fan" cityQuestion (some "77")
        asksForDubai [] = some ⟨.returned (.news article), [call], s⟩ := by
    intro s looked
    have key : cacheKey "fan" (some "77") = some "fan:77" := rfl
    rw [computeTextPayload, key, looked, computed]
    rfl
  refine ⟨rfl, _, _, _, article, delivery startRun rfl, rfl, run_iff_exec.mpr rfl, delivery _ rfl,
    rfl⟩

end EvoclawPluginWechat
