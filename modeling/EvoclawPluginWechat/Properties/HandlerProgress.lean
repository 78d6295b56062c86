import EvoclawPluginWechat.Properties.CacheViews
import EvoclawPluginWechat.Properties.HandlerRuns
import EvoclawPluginWechat.Properties.RequestProgress
import EvoclawPluginWechat.Properties.WebhookAnswers

/-!
The handler answers. Whatever it does next, it can go on only so far, and then every request has
its response, but for those whose client had gone away before.
-/
namespace EvoclawPluginWechat
open Transition

/-- The request ends without a payload. -/
def RequestPhase.gone : RequestPhase → Bool
  | .abandoned _ _ | .leaving none | .finished none => true
  | _ => false

namespace Plugin
variable {n : Nat} {W : Wire} {cfg : HandlerCfg} {s s' : Plugin n} {t : TaskId} {r : Request}

/-- No request goes away, and the serializer stays usable. -/
structure NobodyLeaves (s s' : Plugin n) : Prop where
  poisoned : s'.serializer.poisoned = s.serializer.poisoned
  gone : ∀ t r', s'.requests t = some r' → r'.phase.gone = true →
    ∃ r, s.requests t = some r ∧ r.phase.gone = true

theorem NobodyLeaves.of_same (poisoned : s'.serializer.poisoned = s.serializer.poisoned)
    (requests : s'.requests = s.requests) : NobodyLeaves s s' :=
  ⟨poisoned, fun _ r' hr gone => ⟨r', requests ▸ hr, gone⟩⟩

theorem NobodyLeaves.of_setPhase {phase : RequestPhase}
    (poisoned : s'.serializer.poisoned = s.serializer.poisoned)
    (requests : s'.requests = (s.setPhase t phase).requests) (hr : s.requests t = some r)
    (stays : phase.gone = true → r.phase.gone = true) : NobodyLeaves s s' := by
  refine ⟨poisoned, fun t' r' hr' gone => ?_⟩
  rw [requests, setPhase_requests] at hr'
  split at hr'
  · next same =>
      subst same
      rw [hr] at hr'
      obtain rfl := Option.some.inj hr'
      exact ⟨r, hr, stays gone⟩
  · exact ⟨r', hr', gone⟩

theorem poisoned_of_serializer {op : ConvSerializer.Act} {ser ser' : ConvSerializer}
    (quiet : ∀ idle now, op ≠ .gcBegin idle now) (h : ser.step op = some ser') :
    ser'.poisoned = ser.poisoned := by
  cases op with
  | acquire t cid now =>
      simp only [ConvSerializer.step, ConvSerializer.acquire] at h
      split at h
      · split at h
        · cases h
          rfl
        · cases h
          rfl
      · cases h
  | lockOwned t | release t =>
      simp only [ConvSerializer.step, ConvSerializer.lockOwned, ConvSerializer.release] at h
      split at h
      · cases h
        rfl
      · cases h
  | grant t =>
      simp only [ConvSerializer.step, ConvSerializer.grant] at h
      split at h
      · split at h
        · cases h
          rfl
        · cases h
      · cases h
  | gcBegin idle now => exact absurd rfl (quiet idle now)
  | gcVisit cid =>
      simp only [ConvSerializer.step, ConvSerializer.gcVisit] at h
      split at h
      · split at h
        · split at h
          · cases h
            rfl
          · cases h
            rfl
        · cases h
      · cases h
  | gcEnd =>
      simp only [ConvSerializer.step, ConvSerializer.gcEnd] at h
      split at h
      · split at h
        · cases h
          rfl
        · cases h
      · cases h

theorem nobodyLeaves_serializer {op : ConvSerializer.Act} {phase : RequestPhase}
    (quiet : ∀ idle now, op ≠ .gcBegin idle now) (hr : s.requests t = some r)
    (stays : phase.gone = true → r.phase.gone = true)
    (h : ((s.runSerializer op).map fun s => s.setPhase t phase) = some s') : NobodyLeaves s s' := by
  obtain ⟨s₁, h₁, rfl⟩ := Option.map_eq_some_iff.mp h
  obtain ⟨ser, hser, rfl⟩ := runSerializer_eq_some.mp h₁
  exact .of_setPhase (poisoned_of_serializer quiet hser) rfl hr stays

theorem gone_afterAsk {result : Option (Except PluginError String)} {stage : Stage} :
    (afterAsk cfg result stage).gone = false := by
  cases stage <;> rfl

theorem Calm.lookupReply_phase (hs : Calm s) : ∃ phase, phase.gone = false ∧
    (s.lookupReply t r).requests = (s.setPhase t phase).requests ∧
    (s.lookupReply t r).serializer = s.serializer := by
  unfold lookupReply
  split
  · exact ⟨_, rfl, rfl, rfl⟩
  · next key _ =>
      rw [hs.lookupCachedReply key]
      cases s.freshReplies.lookup key with
      | none => exact ⟨_, rfl, rfl, rfl⟩
      | some e => exact ⟨_, rfl, rfl, rfl⟩

theorem Calm.storePayload_phase (hs : Calm s) (payload : ReplyPayload) :
    (s.storePayload t r payload).requests = (s.setPhase t (.leaving (some payload))).requests ∧
    (s.storePayload t r payload).serializer = s.serializer := by
  unfold storePayload
  split
  · next key text _ =>
      rw [hs.storeReply]
      exact ⟨rfl, rfl⟩
  · exact ⟨rfl, rfl⟩

variable [NeZero n]

theorem nobodyLeaves_pool {op : BridgePool.Act AskId} {phase : RequestPhase}
    (hr : s.requests t = some r) (stays : phase.gone = true → r.phase.gone = true)
    (h : ((s.runPool op).map fun s => s.setPhase t phase) = some s') : NobodyLeaves s s' := by
  obtain ⟨s₁, h₁, rfl⟩ := Option.map_eq_some_iff.mp h
  obtain ⟨p, _, rfl⟩ := runPool_eq_some.mp h₁
  exact .of_setPhase rfl rfl hr stays

theorem nobodyLeaves_step {a : Act} (hs : Calm s) (h : s.step W cfg a = some s')
    (stays : ∀ t, a ≠ .disconnect t) (quiet : ∀ idle, a ≠ .gcBegin idle) : NobodyLeaves s s' := by
  have lives : ∀ {phase : RequestPhase} {r : Request}, phase.gone = false →
      phase.gone = true → r.phase.gone = true := fun live gone => by
    rw [live] at gone
    cases gone
  cases a with
  | tick _ | setClock _ | gcReplies =>
      cases h
      exact .of_same rfl rfl
  | receive t fromUser userMsg msgId =>
      simp only [step] at h
      split at h
      · cases h
        refine ⟨rfl, fun t' r' hr' gone => ?_⟩
        rw [setRequest_requests] at hr'
        split at hr'
        · cases hr'
          cases gone
        · exact ⟨r', hr', gone⟩
      · cases h
  | acquire t | lockOwned t | grant t =>
      simp only [step] at h
      split at h
      · next hr =>
          exact nobodyLeaves_serializer (fun _ _ => ConvSerializer.Act.noConfusion) hr (lives rfl) h
      · cases h
  | lookupReply t =>
      simp only [step] at h
      split at h
      · next fromUser userMsg msgId hr =>
          cases h
          obtain ⟨phase, live, requests, serializer⟩ :=
            hs.lookupReply_phase (t := t) (r := ⟨fromUser, userMsg, msgId, .entered⟩)
          exact .of_setPhase (by rw [serializer]) requests hr (lives live)
      · cases h
  | classifyByAi t =>
      simp only [step] at h
      split at h
      · next hr => exact nobodyLeaves_pool hr (lives rfl) h
      · cases h
  | route t reply =>
      simp only [step] at h
      split at h
      · next hr =>
          split at h
          · cases h
            exact .of_setPhase rfl rfl hr (lives rfl)
          · cases h
            exact .of_setPhase rfl rfl hr (lives rfl)
          · exact nobodyLeaves_pool hr (lives rfl) h
      · cases h
  | checkedOut t ms =>
      simp only [step] at h
      split at h
      · next hr =>
          unfold startAsk at h
          split at h
          · obtain ⟨s₁, h₁, rfl⟩ := Option.map_eq_some_iff.mp h
            obtain ⟨w, _, rfl⟩ := runWorker_eq_some.mp h₁
            exact .of_setPhase rfl rfl hr (lives rfl)
          · cases h
            exact .of_setPhase rfl rfl hr (lives gone_afterAsk)
          · cases h
      · cases h
  | finishAsk t =>
      simp only [step] at h
      split at h
      · next hr =>
          obtain ⟨_, _, rfl⟩ := Option.map_eq_some_iff.mp h
          exact .of_setPhase rfl rfl hr (lives gone_afterAsk)
      · cases h
  | storeReply t =>
      simp only [step] at h
      split at h
      · next fromUser userMsg msgId payload hr =>
          cases h
          obtain ⟨requests, serializer⟩ := hs.storePayload_phase (t := t)
            (r := ⟨fromUser, userMsg, msgId, .computed payload⟩) payload
          exact .of_setPhase (by rw [serializer]) requests hr (lives rfl)
      · cases h
  | release t =>
      simp only [step] at h
      split at h
      · next payload hr =>
          refine nobodyLeaves_serializer (fun _ _ => ConvSerializer.Act.noConfusion) hr ?_ h
          cases payload <;> exact id
      · cases h
  | disconnect t => exact absurd rfl (stays t)
  | unwind t =>
      simp only [step] at h
      split at h
      · next hr =>
          obtain ⟨_, _, rfl⟩ := Option.map_eq_some_iff.mp h
          exact .of_setPhase rfl rfl hr fun _ => rfl
      · cases h
  | pool op =>
      cases op with
      | call c | cancel c => cases h
      | fetchAdd c | readSlot c | testCooldown c | lockSlot c | recheck c | spawnOk c | spawnErr c
      | markRespawnFailed c | giveUp c =>
          obtain ⟨p, _, rfl⟩ := runPool_eq_some.mp h
          exact .of_same rfl rfl
  | worker b op =>
      have same : ∀ s', s.runWorker W b op = some s' → NobodyLeaves s s' := by
        intro s' h
        obtain ⟨w, _, rfl⟩ := runWorker_eq_some.mp h
        exact .of_same rfl rfl
      cases op with
      | bridge op =>
          cases op with
          | call i msg => cases h
          | _ => exact same s' h
      | _ => exact same s' h
  | gcBegin idle => exact absurd rfl (quiet idle)
  | gcVisit _ | gcEnd =>
      obtain ⟨ser, hser, rfl⟩ := runSerializer_eq_some.mp h
      exact .of_same (poisoned_of_serializer (fun _ _ => ConvSerializer.Act.noConfusion) hser) rfl

theorem disconnect_step (h : s.step W cfg (.disconnect t) = some s') :
    s'.serializer.poisoned = s.serializer.poisoned ∧ ∀ t', t' ≠ t →
      s'.requests t' = s.requests t' := by
  have elsewhere : ∀ (s : Plugin n) (phase : RequestPhase) t', t' ≠ t →
      (s.setPhase t phase).requests t' = s.requests t' := fun s phase t' other =>
    (setPhase_requests s t t' phase).trans (if_neg other)
  simp only [step, disconnect] at h
  split at h
  · split at h
    · obtain ⟨s₁, h₁, rfl⟩ := Option.map_eq_some_iff.mp h
      obtain ⟨ser, hser, rfl⟩ := runSerializer_eq_some.mp h₁
      exact ⟨poisoned_of_serializer (fun _ _ => ConvSerializer.Act.noConfusion) hser,
        elsewhere _ _⟩
    · obtain ⟨s₁, h₁, rfl⟩ := Option.map_eq_some_iff.mp h
      obtain ⟨p, _, rfl⟩ := runPool_eq_some.mp h₁
      exact ⟨rfl, elsewhere _ _⟩
    · obtain ⟨s₁, h₁, rfl⟩ := Option.map_eq_some_iff.mp h
      obtain ⟨w, _, rfl⟩ := runWorker_eq_some.mp h₁
      exact ⟨rfl, elsewhere _ _⟩
    · cases h
  · cases h

theorem poisoned_own {a : Act} (hs : Calm s) (own : a.isOwn = true)
    (h : s.step W cfg a = some s') : s'.serializer.poisoned = s.serializer.poisoned := by
  refine (nobodyLeaves_step hs h ?_ ?_).poisoned
  · rintro t rfl
    cases own
  · rintro idle rfl
    cases own

theorem gone_before {a : Act} (hs : Calm s) (h : s.step W cfg a = some s') {r' : Request}
    (hr' : s'.requests t = some r') (gone : r'.phase.gone = true) :
    a = .disconnect t ∨ ∃ r, s.requests t = some r ∧ r.phase.gone = true := by
  by_cases leaves : ∃ t', a = .disconnect t'
  · obtain ⟨t', rfl⟩ := leaves
    by_cases same : t = t'
    · exact .inl (same ▸ rfl)
    · exact .inr ⟨r', (disconnect_step h).2 t same ▸ hr', gone⟩
  · by_cases begins : ∃ idle, a = .gcBegin idle
    · obtain ⟨idle, rfl⟩ := begins
      obtain ⟨ser, _, rfl⟩ := runSerializer_eq_some.mp h
      exact .inr ⟨r', hr', gone⟩
    · have kept := nobodyLeaves_step hs h (not_exists.mp leaves) (not_exists.mp begins)
      exact .inr (kept.gone t r' hr' gone)

end Plugin

namespace Handler
open Webhook
variable {n : Nat}

/-- The requests as they pass the nonce cache. -/
def webhook (s : Handler n) : WebhookRun := ⟨s.plugin.now, s.nonceCache⟩

variable [NeZero n] {crates : CryptoCrates} {xmlReader : QuickXml} {W : Wire} {cfg : Config}
  {aesKey : Option AesKey} {allow : Handler n → Act → Prop} {as : List Act} {s s' : Handler n}
  {a : Act} {t : TaskId}

omit [NeZero n] in
theorem webhook_screen (s : Handler n) (p : Post) :
    s.webhook.screen crates cfg aesKey { p with lag := 0 } = s.screened crates cfg aesKey p := by
  rw [WebhookRun.screen, screened, readings, webhook, state]
  simp

theorem webhook_post {q : WebhookQuery} {body : String} {draws : ReplyDraws}
    (h : s.step crates xmlReader W cfg aesKey (.post t q body draws) = some s') :
    s'.webhook = s.webhook.step crates cfg aesKey (.post ⟨s.plugin.wall, 0, q, body⟩) := by
  have kept : s'.plugin.now = s.plugin.now ∧
      s'.nonceCache = (s.screened crates cfg aesKey ⟨s.plugin.wall, 0, q, body⟩).2 := by
    simp only [step] at h
    split at h
    · cases h
    · split at h
      · cases h
        exact ⟨rfl, rfl⟩
      · cases h
        exact ⟨rfl, rfl⟩
      · simp only [dispatch] at h
        split at h
        · cases h
          exact ⟨rfl, rfl⟩
        · split at h
          · obtain ⟨plugin, received, rfl⟩ := Option.map_eq_some_iff.mp h
            simp only [Plugin.step] at received
            split at received
            · cases received
              exact ⟨rfl, rfl⟩
            · cases received
          · cases h
            exact ⟨rfl, rfl⟩
  obtain ⟨now, nonceCache⟩ := kept
  rw [webhook, now, nonceCache, WebhookRun.step, ← webhook_screen]
  simp [webhook]

theorem webhook_of_step (h : s.step crates xmlReader W cfg aesKey a = some s') :
    ∃ b, s'.webhook = s.webhook.step crates cfg aesKey b := by
  cases a with
  | post t q body draws => exact ⟨_, webhook_post h⟩
  | gcNonces =>
      cases h
      exact ⟨.gcCaches, rfl⟩
  | respond t article draws =>
      simp only [step] at h
      split at h
      · cases h
        exact ⟨.tick 0, by simp [webhook, WebhookRun.step, respond]⟩
      · cases h
  | plugin b =>
      obtain ⟨_, plugin, hp, rfl⟩ := plugin_eq_some h
      have passed := (Plugin.turn_of_step hp).now_le
      obtain ⟨d, hd⟩ := Int.eq_ofNat_of_zero_le (Int.sub_nonneg.mpr passed)
      refine ⟨.tick d, ?_⟩
      have now : plugin.now = s.plugin.now + d := by omega
      simp only [webhook, WebhookRun.step, now]

theorem up_run (run : Run (step crates xmlReader W cfg aesKey) allow (new : Handler n) as s) :
    s.webhook.Up := by
  refine run.invariant (P := fun s => s.webhook.Up) (fun s a s' up _ h => ?_) ⟨rfl, le_rfl⟩
  obtain ⟨b, same⟩ := webhook_of_step h
  rw [same]
  exact up.step crates cfg aesKey b

theorem not_panicked
    (run : Run (step crates xmlReader W cfg aesKey) allow (new : Handler n) as s) (p : Post) :
    (s.screened crates cfg aesKey p).1 ≠ .panicked := by
  obtain ⟨decision, kept, screened, _⟩ :=
    (up_run run).screened crates cfg aesKey { p with lag := 0 }
  rw [← webhook_screen, screened]
  exact fun h => by cases h

/-- Who ends without a payload has been left by its client. -/
theorem gone_run (run : Run (step crates xmlReader W cfg aesKey) allow (new : Handler n) as s) :
    s.plugin.Calm ∧ ∀ t r, s.plugin.requests t = some r → r.phase.gone = true →
      .plugin (.disconnect t) ∈ as := by
  refine run.history (P := fun as s => s.plugin.Calm ∧ ∀ t r, s.plugin.requests t = some r →
    r.phase.gone = true → .plugin (.disconnect t) ∈ as) (fun as s a s' hs _ _ h => ?_)
    ⟨⟨le_rfl, rfl⟩, fun _ _ h => by cases h⟩
  obtain ⟨calm, left⟩ := hs
  have grows : ∀ {t r}, s.plugin.requests t = some r → r.phase.gone = true →
      .plugin (.disconnect t) ∈ as ++ [a] :=
    fun hr gone => List.mem_append_left _ (left _ _ hr gone)
  obtain ⟨_, same⟩ | ⟨b, _, hb, which⟩ := plugin_of_step h
  · rw [same]
    exact ⟨calm, fun t r hr gone => grows hr gone⟩
  · refine ⟨Plugin.calm_turn calm (Plugin.turn_of_step hb), fun t r hr gone => ?_⟩
    obtain rfl | ⟨r₀, hr₀, gone₀⟩ := Plugin.gone_before calm hb hr gone
    · obtain rfl | ⟨_, _, _, _, receives⟩ := which
      · exact List.mem_append_right _ List.mem_cons_self
      · cases receives
    · exact grows hr₀ gone₀

/-- The steps of the handler itself; the world sends requests, goes away before they are answered,
lets time pass and has the tables swept. -/
def Act.isOwn : Act → Bool
  | .plugin b => b.isOwn
  | .respond _ _ _ => true
  | .post _ _ _ _ | .gcNonces => false

def ownSteps (_s : Handler n) (a : Act) : Prop := a.isOwn = true

def totalLeft (tasks : Finset TaskId) (s : Handler n) : Nat :=
  s.plugin.totalLeft tasks + (tasks.filter fun t => (s.responses t).isNone).card

structure Covers (tasks : Finset TaskId) (s : Handler n) : Prop where
  plugin : s.plugin.Covers tasks
  others : ∀ t, t ∉ tasks → ∀ x, s.texts t = some x → s.responses t ≠ none

theorem covers_step {tasks : Finset TaskId} (hs : Covers tasks s) (own : a.isOwn = true)
    (h : s.step crates xmlReader W cfg aesKey a = some s') : Covers tasks s' := by
  cases a with
  | post _ _ _ _ | gcNonces => cases own
  | plugin b =>
      obtain ⟨_, plugin, hp, rfl⟩ := plugin_eq_some h
      exact ⟨Plugin.covers_step hs.plugin own hp, hs.others⟩
  | respond t article draws =>
      simp only [step] at h
      split at h
      · obtain rfl := Option.some.inj h
        refine ⟨hs.plugin, fun t' outside x texts => ?_⟩
        rw [respond_responses]
        split
        · exact Option.some_ne_none _
        · exact hs.others t' outside x texts
      · cases h

omit [NeZero n] in
theorem waiting_respond {tasks : Finset TaskId} (among : t ∈ tasks)
    (waits : s.responses t = none) (response : Response) :
    (tasks.filter fun t' => ((s.respond t response).responses t').isNone).card <
      (tasks.filter fun t' => (s.responses t').isNone).card := by
  have fewer : (tasks.filter fun t' => ((s.respond t response).responses t').isNone) ⊆
      tasks.filter fun t' => (s.responses t').isNone := fun t' h => by
    rw [Finset.mem_filter, respond_responses] at h
    split at h
    · cases h.2
    · exact Finset.mem_filter.mpr h
  refine Finset.card_lt_card ((Finset.ssubset_iff_of_subset fewer).mpr ⟨t, ?_, fun h => ?_⟩)
  · rw [Finset.mem_filter, waits]
    exact ⟨among, rfl⟩
  · rw [Finset.mem_filter, respond_responses, if_pos rfl] at h
    cases h.2

theorem totalLeft_pays {tasks : Finset TaskId} :
    Pays (step crates xmlReader W cfg aesKey) (ownSteps : Handler n → Act → Prop) (Covers tasks)
      (totalLeft tasks) fun _ => true := by
  intro s a s' hs own h
  rw [if_pos rfl, totalLeft, totalLeft]
  cases a with
  | post _ _ _ _ | gcNonces => cases own
  | plugin b =>
      obtain ⟨_, plugin, hp, rfl⟩ := plugin_eq_some h
      have paid := Plugin.totalLeft_pays s.plugin b plugin hs.plugin own hp
      rw [if_pos rfl] at paid
      dsimp only
      omega
  | respond t article draws =>
      simp only [step] at h
      split at h
      · next texts waits _ =>
          obtain rfl := Option.some.inj h
          have among : t ∈ tasks := by
            by_contra outside
            exact hs.others t outside _ texts waits
          have fewer := waiting_respond among waits
          exact Nat.add_lt_add_left (fewer _) _
      · cases h

theorem exists_covering
    (run : Run (step crates xmlReader W cfg aesKey) anyStep (new : Handler n) as s) :
    ∃ tasks : Finset TaskId, Covers tasks s ∧
      ∀ t, t ∈ tasks ↔ s.texts t ≠ none ∧ s.responses t = none := by
  have reached := plugin_reachable run
  obtain ⟨all, mem⟩ := Plugin.finitely_many reached
  let tasks := all.filter fun t => (s.texts t).isSome && (s.responses t).isNone
  have requested : ∀ t x, s.texts t = some x → ∃ r, s.plugin.requests t = some r := by
    intro t x texts
    cases course_run run t with
    | fresh _ none' _ _ | closed _ _ none' _ _ | answered _ none' _ _ _ =>
        cases none'.symm.trans texts
    | turn held _ | replied held _ _ => exact ⟨_, held.requests⟩
  have which : ∀ t, t ∈ tasks ↔ s.texts t ≠ none ∧ s.responses t = none := fun t => by
    rw [Finset.mem_filter, Bool.and_eq_true, Option.isSome_iff_ne_none, Option.isNone_iff_eq_none]
    refine ⟨And.right, fun there => ⟨?_, there⟩⟩
    obtain ⟨x, texts⟩ := Option.ne_none_iff_exists'.mp there.1
    obtain ⟨r, hr⟩ := requested t x texts
    exact mem t r hr
  refine ⟨tasks, ⟨⟨Plugin.owned_reachable reached, fun t outside r hr => ?_⟩,
    fun t outside x texts waits => ?_⟩, which⟩
  · cases course_run run t with
    | fresh _ _ none' _ | closed _ _ _ none' _ | answered _ _ none' _ _ => cases none'.symm.trans hr
    | turn held waits =>
        refine absurd ((which t).mpr ⟨?_, waits⟩) outside
        rw [held.texts]
        exact Option.some_ne_none _
    | replied held _ replied =>
        obtain rfl := Option.some.inj (held.requests.symm.trans hr)
        rw [replied.ended]
        rfl
  · refine outside ((which t).mpr ⟨?_, waits⟩)
    rw [texts]
    exact Option.some_ne_none _

/-- Where the handler can do nothing more, every request has its response or was left. -/
theorem answered_of_stuck
    (run : Run (step crates xmlReader W cfg aesKey) anyStep (new : Handler n) as s)
    (usable : s.plugin.serializer.poisoned = false)
    (stuck : Stuck (step crates xmlReader W cfg aesKey) (ownSteps : Handler n → Act → Prop) s)
    {p : Post} (posts : s.posts t = some p) :
    (∃ response, s.responses t = some response) ∨ .plugin (.disconnect t) ∈ as := by
  have reached := plugin_reachable run
  cases course_run run t with
  | fresh absent _ _ _ => cases absent.symm.trans posts
  | @closed m p came panicked _ _ _ =>
      obtain ⟨draws, pre, post, _, before, _⟩ := came.takes
      exact absurd panicked (not_panicked before p)
  | answered _ _ _ responses _ | replied _ responses _ => exact .inl ⟨_, responses⟩
  | @turn m p inbound isEncrypted r held waits =>
      have ended : r.phase.ended = true := by
        by_contra unfinished
        have admitted : ¬ s.plugin.LockedOut r := fun ⟨poisoned, _⟩ => by
          cases usable.symm.trans poisoned
        obtain ⟨b, own, enabled⟩ := Plugin.canStep_of_unfinished reached held.requests
          (Bool.eq_false_iff.mpr unfinished) admitted
        have receives : ∀ t u msg id, b ≠ .receive t u msg id := by
          rintro t u msg id rfl
          cases own
        have blocked := stuck (.plugin b) own
        rw [step_plugin receives, Option.map_eq_none_iff] at blocked
        rw [blocked] at enabled
        cases enabled
      obtain ⟨fromUser, userMsg, msgId, phase⟩ := r
      cases phase with
      | finished payload =>
          cases payload with
          | none => exact .inr ((gone_run run).2 t _ held.requests rfl)
          | some reply =>
              let draws : ReplyDraws := ⟨0, zeroBlock, 0, 0⟩
              have blocked := stuck (.respond t ⟨"", "", "", ""⟩ draws) rfl
              simp only [step, held.texts, waits, held.requests] at blocked
              cases blocked
      | _ => cases ended

theorem posts_run {bs : List Act}
    (run : Run (step crates xmlReader W cfg aesKey) ownSteps s bs s') : s'.posts = s.posts := by
  refine run.invariant (P := fun m => m.posts = s.posts) (fun m a m' same own h => ?_) rfl
  cases a with
  | post _ _ _ _ | gcNonces => cases own
  | plugin b =>
      obtain ⟨_, plugin, _, rfl⟩ := plugin_eq_some h
      exact same
  | respond t article draws =>
      simp only [step] at h
      split at h
      · obtain rfl := Option.some.inj h
        exact same
      · cases h

theorem usable_run {bs : List Act} (calm : s.plugin.Calm)
    (usable : s.plugin.serializer.poisoned = false)
    (run : Run (step crates xmlReader W cfg aesKey) ownSteps s bs s') :
    s'.plugin.serializer.poisoned = false := by
  refine (run.invariant (P := fun s => s.plugin.Calm ∧ s.plugin.serializer.poisoned = false)
    (fun s a s' hs own h => ?_) ⟨calm, usable⟩).2
  cases a with
  | post _ _ _ _ | gcNonces => cases own
  | plugin b =>
      obtain ⟨_, plugin, hp, rfl⟩ := plugin_eq_some h
      exact ⟨Plugin.calm_turn hs.1 (Plugin.turn_of_step hp),
        (Plugin.poisoned_own hs.1 own hp).trans hs.2⟩
  | respond t article draws =>
      simp only [step] at h
      split at h
      · obtain rfl := Option.some.inj h
        exact hs
      · cases h

/-- Left to itself, the handler answers every request whose client has not gone away. -/
theorem every_request_answered
    (run : Run (step crates xmlReader W cfg aesKey) anyStep (new : Handler n) as s)
    (usable : s.plugin.serializer.poisoned = false) :
    ∃ tasks : Finset TaskId,
      (∀ t, t ∈ tasks ↔ s.texts t ≠ none ∧ s.responses t = none) ∧
      (∀ bs s', Run (step crates xmlReader W cfg aesKey) ownSteps s bs s' →
        bs.length ≤ tasks.card * (28 * n + 29) + s.plugin.serializer.sweepLeft ∧
        (Stuck (step crates xmlReader W cfg aesKey) ownSteps s' → ∀ t p, s.posts t = some p →
          (∃ response, s'.responses t = some response) ∨ .plugin (.disconnect t) ∈ as)) ∧
      ∃ bs s', Run (step crates xmlReader W cfg aesKey) ownSteps s bs s' ∧
        Stuck (step crates xmlReader W cfg aesKey) ownSteps s' := by
  obtain ⟨tasks, covers, which⟩ := exists_covering run
  refine ⟨tasks, which, fun bs s' further => ⟨?_, fun stuck t p posts => ?_⟩,
    exists_stuck (fun _ _ _ hs own hm => covers_step hs own hm) totalLeft_pays covers⟩
  · have most := further.length_le (fun _ _ _ hs own hm => covers_step hs own hm) totalLeft_pays
      covers
    have inPlugin := Plugin.totalLeft_le (plugin_reachable run) tasks
    have waiting := Finset.card_filter_le tasks fun t => (s.responses t).isNone = true
    rw [totalLeft] at most
    rw [Nat.mul_add] at inPlugin ⊢
    omega
  · obtain response | left := answered_of_stuck (run.append (further.mono fun _ _ _ => trivial))
      (usable_run (gone_run run).1 usable further) stuck (posts_run further ▸ posts)
    · exact .inl response
    · obtain before | later := List.mem_append.mp left
      · exact .inr before
      · have own : (Act.plugin (.disconnect t)).isOwn = true :=
          further.forall_mem (P := fun b : Act => b.isOwn = true) (fun _ _ own => own) _ later
        cases own

/-- A text that has just come. -/
theorem every_request_answered_signed : Config.validate (fun _ => .ok ()) chatCfg = .ok () ∧
    ∀ crates xmlReader (_ : ReplyDraws),
    ∃ (s : Handler 1) (bs : List Act) (s' : Handler 1),
      s.posts 0 = some (signedText crates "hi") ∧
      Run (step crates xmlReader serdeJson chatCfg none) ownSteps s bs s' ∧
      ∃ response, s'.responses 0 = some response := by
  refine ⟨rfl, fun crates xmlReader draws => ?_⟩
  have whole : lastSection "hi" = "hi" := by decide
  obtain ⟨s, posted, came, _, _, posts⟩ :=
    step_signedText (n := 1) crates xmlReader serdeJson draws whole (by decide)
  have usable : s.plugin.serializer.poisoned = false := by
    rw [came]
    rfl
  obtain ⟨_, _, ends, bs, s', further, stuck⟩ :=
    every_request_answered (.cons trivial posted (.nil s)) usable
  refine ⟨s, bs, s', posts, further, ?_⟩
  obtain response | left := (ends bs s' further).2 stuck 0 _ posts
  · exact response
  · cases List.mem_singleton.mp left

end Handler
end EvoclawPluginWechat
