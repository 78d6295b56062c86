import EvoclawPluginWechat.Core.ConversationId
import EvoclawPluginWechat.Core.GcTask
import EvoclawPluginWechat.Properties.CacheSteps
import EvoclawPluginWechat.Properties.SerializerLinks

/-!
What a tick of the background task leaves in the tables: replies and nonces that were young
when their table was swept and, where the task sweeps them, mutexes in use or recently asked
for, up to those that were let go behind the sweep.
-/
namespace EvoclawPluginWechat
open Transition

namespace ConvSerializer
variable {s s' : ConvSerializer} {oldest : Int} {seen seen' lost lost' : String → Prop}

/-- A task holds a handle of the conversation. -/
def InUse (s : ConvSerializer) (cid : String) : Prop :=
  ∃ t k, s.handles.lookup t = some k ∧ k.cid = cid

theorem Linked.inUse (h : Linked s) {cid : String} {e : Entry} (he : s.locks.lookup cid = some e)
    (counted : s.strongCount e.lock > 1) : s.InUse cid := by
  have count := h.counted cid e he
  have pos : 0 < Table.count (ConvSerializer.uses e.lock) s.handles := by omega
  obtain ⟨t, k, hk, uses⟩ := (Table.count_pos_iff _).mp pos
  obtain ⟨e', he', hlock⟩ := h.current t k hk
  refine ⟨t, k, hk, h.separate _ _ e' e he' he ?_⟩
  exact hlock.trans (eq_of_beq uses)

/-- The sweep reaches back to `oldest` at most, and what is in the map and not before it any
more was looked at, and is in use, young or one of the lost. -/
def SweepLeaves (s : ConvSerializer) (oldest : Int) (seen lost : String → Prop) : Prop :=
  ∃ sw, s.sweep = some sw ∧ oldest ≤ sw.cutoff ∧ ∀ cid e, s.locks.lookup cid = some e →
    cid ∈ sw.todo ∨ seen cid ∧ (s.InUse cid ∨ oldest < e.lastSeen ∨ lost cid)

theorem SweepLeaves.handles (h : s.SweepLeaves oldest seen lost) (sweep : s'.sweep = s.sweep)
    (locks : s'.locks = s.locks)
    (uses : ∀ cid, seen cid → s.InUse cid → s'.InUse cid ∨ lost' cid)
    (more : ∀ cid, lost cid → lost' cid) : s'.SweepLeaves oldest seen lost' := by
  obtain ⟨sw, hsw, back, left⟩ := h
  refine ⟨sw, sweep.trans hsw, back, fun cid e he => ?_⟩
  rw [locks] at he
  obtain todo | ⟨looked, used | young | gone⟩ := left cid e he
  · exact .inl todo
  · refine .inr ⟨looked, ?_⟩
    obtain still | gone := uses cid looked used
    · exact .inl still
    · exact .inr (.inr gone)
  · exact .inr ⟨looked, .inr (.inl young)⟩
  · exact .inr ⟨looked, .inr (.inr (more cid gone))⟩

theorem SweepLeaves.mono (h : s.SweepLeaves oldest seen lost) (sees : ∀ cid, seen cid → seen' cid)
    (more : ∀ cid, lost cid → lost' cid) : s.SweepLeaves oldest seen' lost' := by
  obtain ⟨sw, hsw, back, left⟩ := h.handles rfl rfl (fun _ _ used => .inl used) more
  exact ⟨sw, hsw, back, fun cid e he => (left cid e he).imp id fun h => ⟨sees cid h.1, h.2⟩⟩

theorem inUse_rehold {t : TaskId} {c : String} {m : MutexId} {hold hold' : Hold}
    (hk : s.handles.lookup t = some ⟨c, m, hold⟩)
    (handles : s'.handles = s.handles.insert t ⟨c, m, hold'⟩) (cid : String) (h : s.InUse cid) :
    s'.InUse cid := by
  obtain ⟨t', k, hk', rfl⟩ := h
  by_cases same : t' = t
  · subst same
    cases hk.symm.trans hk'
    refine ⟨t', ⟨c, m, hold'⟩, ?_, rfl⟩
    rw [handles]
    exact Table.lookup_insert_eq_some.mpr (.inl ⟨rfl, rfl⟩)
  · refine ⟨t', k, ?_, rfl⟩
    rw [handles]
    exact Table.lookup_insert_eq_some.mpr (.inr ⟨same, hk'⟩)

theorem SweepLeaves.lockOwned (h : s.SweepLeaves oldest seen lost) {t : TaskId}
    (hs : s.lockOwned t = some s') : s'.SweepLeaves oldest seen lost := by
  unfold ConvSerializer.lockOwned at hs
  split at hs
  · next hk =>
      cases hs
      exact h.handles rfl rfl (fun cid _ used => .inl (inUse_rehold hk rfl cid used)) fun _ => id
  · cases hs

theorem SweepLeaves.grant (h : s.SweepLeaves oldest seen lost) {t : TaskId}
    (hs : s.grant t = some s') : s'.SweepLeaves oldest seen lost := by
  unfold ConvSerializer.grant at hs
  split at hs
  · next hk =>
      split at hs
      · cases hs
        exact h.handles rfl rfl (fun cid _ used => .inl (inUse_rehold hk rfl cid used)) fun _ => id
      · cases hs
  · cases hs

theorem SweepLeaves.release (h : s.SweepLeaves oldest seen lost) {t : TaskId}
    (hs : s.release t = some s') (more : ∀ cid, lost cid → lost' cid)
    (dropped : ∀ k, s.handles.lookup t = some k → seen k.cid → lost' k.cid) :
    s'.SweepLeaves oldest seen lost' := by
  unfold ConvSerializer.release at hs
  split at hs
  · next hk =>
      cases hs
      refine h.handles rfl rfl (fun cid looked used => ?_) more
      obtain ⟨t', k, hk', rfl⟩ := used
      by_cases same : t' = t
      · subst same
        exact .inr (dropped k hk' looked)
      · exact .inl ⟨t', k, Table.lookup_erase_eq_some.mpr ⟨same, hk'⟩, rfl⟩
  · cases hs

theorem sweepLeaves_gcBegin {idle : Nat} {now : Int} (hs : s.gcBegin idle now = some s')
    (clean : s'.poisoned = false) (back : oldest ≤ now - (idle : Int)) :
    s'.SweepLeaves oldest seen lost := by
  unfold gcBegin at hs
  split at hs
  · split at hs
    · next cutoff hc =>
        cases hs
        have cut := (Instant.sub_eq_some.mp hc).2
        refine ⟨_, rfl, Int.le_trans back (Int.le_of_eq cut), fun cid e he => .inl ?_⟩
        exact AList.mem_keys.mp (AList.lookup_isSome.mp (Option.isSome_of_eq_some he))
    · cases hs
      cases clean
  · cases hs

theorem SweepLeaves.gcVisit (h : s.SweepLeaves oldest seen lost) (linked : Linked s)
    {cid : String} (hs : s.gcVisit cid = some s') :
    s'.SweepLeaves oldest (fun c => seen c ∨ c = cid) lost := by
  obtain ⟨sw, hsw, back, left⟩ := h
  have others : ∀ {c e'}, c ≠ cid → s.locks.lookup c = some e' →
      c ∈ sw.todo.erase cid ∨ (seen c ∨ c = cid) ∧ (s.InUse c ∨ oldest < e'.lastSeen ∨ lost c) := by
    intro c e' other old
    obtain todo | ⟨looked, rest⟩ := left c e' old
    · exact .inl ((List.mem_erase_of_ne other).mpr todo)
    · exact .inr ⟨.inl looked, rest⟩
  obtain ⟨sw', e, hsw', he, looked⟩ := gcVisit_eq_some hs
  obtain rfl := Option.some.inj (hsw.symm.trans hsw')
  obtain ⟨keep, rfl⟩ | ⟨_, rfl⟩ := looked
  · refine ⟨_, rfl, back, fun c e' he' => ?_⟩
    by_cases same : c = cid
    · subst same
      obtain rfl := Option.some.inj (he.symm.trans he')
      simp only [keeps, Bool.or_eq_true, decide_eq_true_eq] at keep
      refine .inr ⟨.inr rfl, ?_⟩
      obtain counted | young := keep
      · exact .inl (linked.inUse he counted)
      · exact .inr (.inl (Int.lt_of_le_of_lt back young))
    · exact others same he'
  · refine ⟨_, rfl, back, fun c e' he' => ?_⟩
    obtain ⟨other, old⟩ := Table.lookup_erase_eq_some.mp he'
    exact others other old

theorem SweepLeaves.gcEnd (h : s.SweepLeaves oldest seen lost) (hs : s.gcEnd = some s')
    {cid : String} {e : Entry} (he : s'.locks.lookup cid = some e) :
    s'.InUse cid ∨ oldest < e.lastSeen ∨ lost cid := by
  obtain ⟨sw, hsw, _, left⟩ := h
  unfold ConvSerializer.gcEnd at hs
  rw [hsw] at hs
  dsimp only at hs
  split at hs
  · next done =>
      cases hs
      refine ((left cid e he).resolve_left ?_).2
      rw [done]
      exact List.not_mem_nil
  · cases hs

/-- Nobody gets a handle while the map is swept. -/
theorem SweepLeaves.no_acquire (h : s.SweepLeaves oldest seen lost) {t : TaskId} {cid : String}
    {now : Int} : s.acquire t cid now = none := by
  obtain ⟨sw, hsw, _⟩ := h
  simp [ConvSerializer.acquire, outerFree, hsw]

end ConvSerializer

/-- The replies have been swept in this tick. -/
def GcPhase.pastReplies : GcPhase → Bool
  | .nonces _ | .locks _ | .sweeping _ | .ending _ => true
  | _ => false

def GcPhase.pastNonces : GcPhase → Bool
  | .locks _ | .sweeping _ | .ending _ => true
  | _ => false

namespace GcRun
variable {cfg : Config} {wall b : Int} {s s' s₁ : GcRun} {a : Act} {as : List Act}

structure Sound (s : GcRun) : Prop where
  tables : s.tables.Clean
  linked : ConvSerializer.Linked s.serializer

theorem sound_new : (new cfg wall).Sound where
  tables := ⟨Int.le_refl _, rfl, rfl⟩
  linked := ConvSerializer.linked_new

theorem runSerializer_eq_some {op : ConvSerializer.Act} :
    s.runSerializer op = some s' ↔
      ∃ serializer, s.serializer.step op = some serializer ∧ { s with serializer } = s' :=
  Option.map_eq_some_iff

/-- The step, by the tables it touches. -/
inductive Move (cfg : Config) (s : GcRun) : Act → GcRun → Prop
  | caches {a : CacheRun.Act} {tables : CacheRun} : a ≠ .gcCaches → s.tables.step a = some tables →
      Move cfg s (.caches a) { s with tables }
  | acquire {t : TaskId} {cid : String} {serializer : ConvSerializer} :
      s.serializer.acquire t cid s.tables.now = some serializer →
      Move cfg s (.acquire t cid) { s with serializer }
  | lockOwned {t : TaskId} {serializer : ConvSerializer} :
      s.serializer.lockOwned t = some serializer → Move cfg s (.lockOwned t) { s with serializer }
  | grant {t : TaskId} {serializer : ConvSerializer} :
      s.serializer.grant t = some serializer → Move cfg s (.grant t) { s with serializer }
  | release {t : TaskId} {serializer : ConvSerializer} :
      s.serializer.release t = some serializer → Move cfg s (.release t) { s with serializer }
  | tickBegins : s.task = .sleeping → Move cfg s .tickBegins
      { s with task := .replies s.tables.now, due := s.due + cfg.gcInterval }
  | sweepReplies {began : Int} : s.task = .replies began → Move cfg s .sweepReplies { s with
      tables.caches.reply := ⟨Table.retain (fun _ e => decide (e.insertedAt >
        s.tables.now - (replyCacheTtl : Int))) s.tables.caches.reply.value, false⟩
      task := .nonces began }
  | sweepNonces {began : Int} : s.task = .nonces began → Move cfg s .sweepNonces { s with
      tables.caches.nonce := ⟨Table.retain (fun _ t => decide (id t >
        s.tables.now - (Duration.fromSecs 300 : Int))) s.tables.caches.nonce.value, false⟩
      task := if cfg.sweepConvSerializer then .locks began else .ending began }
  | sweepBegins {began : Int} {serializer : ConvSerializer} : s.task = .locks began →
      s.serializer.gcBegin cfg.gcIdle s.tables.now = some serializer →
      Move cfg s .sweepBegins
        { s with serializer, task := if serializer.poisoned then .dead else .sweeping began }
  | sweepVisits {cid : String} {began : Int} {serializer : ConvSerializer} :
      s.task = .sweeping began → s.serializer.gcVisit cid = some serializer →
      Move cfg s (.sweepVisits cid) { s with serializer }
  | sweepEnds {began : Int} {serializer : ConvSerializer} : s.task = .sweeping began →
      s.serializer.gcEnd = some serializer →
      Move cfg s .tickEnds { s with serializer, task := .sleeping }
  | skips {began : Int} : s.task = .ending began →
      Move cfg s .tickEnds { s with task := .sleeping }

theorem Sound.move_of_step (hs : s.Sound) (h : s.step cfg a = some s') : Move cfg s a s' := by
  cases a with
  | caches a =>
      cases a with
      | gcCaches => cases h
      | tick d =>
          cases h
          exact .caches nofun rfl
      | checkReplay ts nonce =>
          cases h
          exact .caches nofun rfl
      | lookupCachedReply key =>
          cases h
          exact .caches nofun rfl
      | storeReply key reply =>
          cases h
          exact .caches nofun rfl
  | acquire t cid =>
      obtain ⟨_, ht, rfl⟩ := runSerializer_eq_some.mp h
      exact .acquire ht
  | lockOwned t =>
      obtain ⟨_, ht, rfl⟩ := runSerializer_eq_some.mp h
      exact .lockOwned ht
  | grant t =>
      obtain ⟨_, ht, rfl⟩ := runSerializer_eq_some.mp h
      exact .grant ht
  | release t =>
      obtain ⟨_, ht, rfl⟩ := runSerializer_eq_some.mp h
      exact .release ht
  | tickBegins =>
      simp only [step] at h
      split at h
      · next sleeping =>
          split at h
          · cases h
            exact .tickBegins sleeping
          · cases h
      · cases h
  | sweepReplies =>
      obtain ⟨_, swept⟩ := hs.tables.sweepReplies
      simp only [step, swept] at h
      split at h
      · next phase =>
          cases h
          exact .sweepReplies phase
      · cases h
  | sweepNonces =>
      obtain ⟨_, swept⟩ := hs.tables.sweepNonces
      simp only [step, swept] at h
      split at h
      · next phase =>
          cases h
          exact .sweepNonces phase
      · cases h
  | sweepBegins =>
      simp only [step] at h
      split at h
      · next phase =>
          obtain ⟨_, ht, rfl⟩ := Option.map_eq_some_iff.mp h
          exact .sweepBegins phase ht
      · cases h
  | sweepVisits cid =>
      simp only [step] at h
      split at h
      · next phase =>
          obtain ⟨_, ht, rfl⟩ := runSerializer_eq_some.mp h
          exact .sweepVisits phase ht
      · cases h
  | tickEnds =>
      simp only [step] at h
      split at h
      · next phase =>
          obtain ⟨_, ends, rfl⟩ := Option.map_eq_some_iff.mp h
          obtain ⟨_, ht, rfl⟩ := runSerializer_eq_some.mp ends
          exact .sweepEnds phase ht
      · next phase =>
          cases h
          exact .skips phase
      · cases h

theorem sound_step (hs : s.Sound) (h : s.step cfg a = some s') : s'.Sound := by
  cases hs.move_of_step h with
  | caches _ ht =>
      exact ⟨(hs.tables.follows ht).clean, hs.linked⟩
  | acquire ht => exact ⟨hs.tables, ConvSerializer.linked_acquire hs.linked _ _ _ ht⟩
  | lockOwned ht => exact ⟨hs.tables, ConvSerializer.linked_lockOwned hs.linked _ ht⟩
  | grant ht => exact ⟨hs.tables, ConvSerializer.linked_grant hs.linked _ ht⟩
  | release ht => exact ⟨hs.tables, ConvSerializer.linked_release hs.linked _ ht⟩
  | tickBegins _ | skips _ => exact ⟨hs.tables, hs.linked⟩
  | sweepReplies _ => exact ⟨⟨hs.tables.now, rfl, hs.tables.nonce⟩, hs.linked⟩
  | sweepNonces _ => exact ⟨⟨hs.tables.now, hs.tables.reply, rfl⟩, hs.linked⟩
  | sweepBegins _ ht => exact ⟨hs.tables, ConvSerializer.linked_gcBegin hs.linked _ _ ht⟩
  | sweepVisits _ ht => exact ⟨hs.tables, ConvSerializer.linked_gcVisit hs.linked _ ht⟩
  | sweepEnds _ ht => exact ⟨hs.tables, ConvSerializer.linked_gcEnd hs.linked ht⟩

theorem sound_reachable (h : Reachable (step cfg) anyStep (· = new cfg wall) s) : s.Sound :=
  h.invariant (fun _ hs => hs ▸ sound_new) fun _ _ _ hs _ h => sound_step hs h

theorem Sound.gcCaches {began : Int} (hs : s.Sound) (phase : s.task = .replies began)
    (h : exec (step cfg) s [.sweepReplies, .sweepNonces] = some s') :
    ∃ evicted, s.tables.caches.gc s.tables.now s.tables.now =
      (.returned evicted, s'.tables.caches) := by
  obtain ⟨m, replies⟩ := hs.tables.sweepReplies
  obtain ⟨n, nonces⟩ := hs.tables.sweepNonces
  simp only [exec, step, phase, replies, nonces, Option.bind_some, Option.some.injEq] at h
  subst h
  exact ⟨(m, n), by simp only [Caches.gc, replies, nonces]⟩

/-- The steps of a tick, up to its end. -/
def inTick (_s : GcRun) (a : Act) : Prop := a ≠ .tickEnds

/-- A task dropped its handle of the conversation behind the sweep, which had looked at it. -/
def DroppedBehind (cfg : Config) (s₁ : GcRun) (as : List Act) (cid : String) : Prop :=
  ∃ before between after t m k, as = before ++ .sweepVisits cid :: between ++ .release t :: after ∧
    Run (step cfg) inTick s₁ (before ++ .sweepVisits cid :: between) m ∧
    m.serializer.handles.lookup t = some k ∧ k.cid = cid

theorem DroppedBehind.append {cid : String} (h : DroppedBehind cfg s₁ as cid) (bs : List Act) :
    DroppedBehind cfg s₁ (as ++ bs) cid := by
  obtain ⟨before, between, after, t, m, k, rfl, rest⟩ := h
  refine ⟨before, between, after ++ bs, t, m, k, ?_, rest⟩
  rw [List.append_assoc, List.cons_append]

theorem droppedBehind_release {cid : String} (looked : .sweepVisits cid ∈ as)
    (run : Run (step cfg) inTick s₁ as s) {t : TaskId} {k : Handle}
    (hk : s.serializer.handles.lookup t = some k) (own : k.cid = cid) :
    DroppedBehind cfg s₁ (as ++ [.release t]) cid := by
  obtain ⟨before, between, rfl⟩ := List.append_of_mem looked
  exact ⟨before, between, [], t, s, k, rfl, run, hk, own⟩

/-- What the steps of a tick have swept so far, and when. -/
structure During (cfg : Config) (s₁ : GcRun) (as : List Act) (s : GcRun) : Prop where
  sound : s.Sound
  awake : s.task ≠ .sleeping
  replies : s.task.pastReplies = true → ∃ m, TakesIn (step cfg) inTick s₁ as .sweepReplies m ∧
    m.tables.now ≤ s.tables.now ∧ s.tables.YoungReplies m.tables.now
  nonces : s.task.pastNonces = true → ∃ m, TakesIn (step cfg) inTick s₁ as .sweepNonces m ∧
    m.tables.now ≤ s.tables.now ∧ s.tables.YoungNonces m.tables.now
  sweeping : ∀ began, s.task = .sweeping began →
    ∃ m, TakesIn (step cfg) inTick s₁ as .sweepBegins m ∧
      s.serializer.SweepLeaves (m.tables.now - (cfg.gcIdle : Int))
        (fun cid => .sweepVisits cid ∈ as) (DroppedBehind cfg s₁ as)
  ending : ∀ began, s.task = .ending began → cfg.sweepConvSerializer = false

theorem During.begins (hs : s.Sound) (h : s.step cfg .tickBegins = some s') :
    During cfg s' [] s' := by
  have sound := sound_step hs h
  cases hs.move_of_step h with
  | tickBegins _ =>
      refine ⟨sound, ?_, ?_, ?_, ?_, ?_⟩
      · exact nofun
      · exact nofun
      · exact nofun
      · exact nofun
      · exact nofun

theorem During.keep (hd : During cfg s₁ as s) (sound : s'.Sound) (task : s'.task = s.task)
    (later : s.tables.now ≤ s'.tables.now)
    (replies : ∀ b, b ≤ s.tables.now → s.tables.YoungReplies b → s'.tables.YoungReplies b)
    (nonces : ∀ b, b ≤ s.tables.now → s.tables.YoungNonces b → s'.tables.YoungNonces b)
    (sweeping : ∀ began oldest, s.task = .sweeping began →
      s.serializer.SweepLeaves oldest (fun cid => .sweepVisits cid ∈ as)
        (DroppedBehind cfg s₁ as) →
      s'.serializer.SweepLeaves oldest (fun cid => .sweepVisits cid ∈ as ++ [a])
        (DroppedBehind cfg s₁ (as ++ [a]))) : During cfg s₁ (as ++ [a]) s' := by
  refine ⟨sound, task ▸ hd.awake, fun past => ?_, fun past => ?_, fun began phase => ?_,
    task ▸ hd.ending⟩
  · obtain ⟨m, took, before, young⟩ := hd.replies (task ▸ past)
    exact ⟨m, took.snoc, Int.le_trans before later, replies _ before young⟩
  · obtain ⟨m, took, before, young⟩ := hd.nonces (task ▸ past)
    exact ⟨m, took.snoc, Int.le_trans before later, nonces _ before young⟩
  · obtain ⟨m, took, leaves⟩ := hd.sweeping began (task ▸ phase)
    exact ⟨m, took.snoc, sweeping began _ (task ▸ phase) leaves⟩

theorem During.serializer (hd : During cfg s₁ as s) {serializer : ConvSerializer}
    (sound : Sound { s with serializer })
    (sweeping : ∀ began oldest, s.task = .sweeping began →
      s.serializer.SweepLeaves oldest (fun cid => .sweepVisits cid ∈ as)
        (DroppedBehind cfg s₁ as) →
      serializer.SweepLeaves oldest (fun cid => .sweepVisits cid ∈ as ++ [a])
        (DroppedBehind cfg s₁ (as ++ [a]))) : During cfg s₁ (as ++ [a]) { s with serializer } :=
  hd.keep sound rfl (Int.le_refl _) (fun _ _ young => young) (fun _ _ young => young) sweeping

theorem during_step (hd : During cfg s₁ as s) (run : Run (step cfg) inTick s₁ as s)
    (within : inTick s a) (h : s.step cfg a = some s') : During cfg s₁ (as ++ [a]) s' := by
  have sound := sound_step hd.sound h
  have sees : ∀ cid, Act.sweepVisits cid ∈ as → .sweepVisits cid ∈ as ++ [a] :=
    fun _ looked => List.mem_append_left _ looked
  have more : ∀ cid, DroppedBehind cfg s₁ as cid → DroppedBehind cfg s₁ (as ++ [a]) cid :=
    fun _ dropped => dropped.append [a]
  have takes := run.takesIn within
  cases hd.sound.move_of_step h with
  | caches _ ht =>
      have follows := hd.sound.tables.follows ht
      exact hd.keep sound rfl follows.later (fun _ => follows.youngReplies)
        (fun _ => follows.youngNonces) fun _ _ _ leaves => leaves.mono sees more
  | acquire ht =>
      refine hd.serializer sound fun began _ _ leaves => ?_
      cases ht.symm.trans leaves.no_acquire
  | lockOwned ht =>
      exact hd.serializer sound fun _ _ _ leaves => (leaves.lockOwned ht).mono sees more
  | grant ht => exact hd.serializer sound fun _ _ _ leaves => (leaves.grant ht).mono sees more
  | release ht =>
      refine hd.serializer sound fun _ _ _ leaves => ?_
      have released := leaves.release ht more fun k hk looked =>
        droppedBehind_release looked run hk rfl
      exact released.mono sees fun _ => id
  | tickBegins phase => exact absurd phase hd.awake
  | sweepReplies phase =>
      refine ⟨sound, nofun, fun _ => ⟨s, takes, Int.le_refl _, fun key e he => ?_⟩, nofun, nofun,
        nofun⟩
      exact of_decide_eq_true (Table.lookup_retain_eq_some.mp he).2
  | @sweepNonces began phase =>
      obtain ⟨m, took, before, replies⟩ := hd.replies (by rw [phase]; rfl)
      refine ⟨sound, ?_, fun _ => ⟨m, took.snoc, before, replies⟩,
        fun _ => ⟨s, takes, Int.le_refl _, fun nonce t ht => ?_⟩, ?_, ?_⟩
      · split <;> exact nofun
      · exact of_decide_eq_true (Table.lookup_retain_eq_some.mp ht).2
      · intro began' phase'
        split at phase' <;> cases phase'
      · intro began' phase'
        split at phase'
        · cases phase'
        · next off => exact Bool.eq_false_iff.mpr off
  | @sweepBegins began serializer phase ht =>
      obtain ⟨m, took, before, replies⟩ := hd.replies (by rw [phase]; rfl)
      obtain ⟨m', took', before', nonces⟩ := hd.nonces (by rw [phase]; rfl)
      refine ⟨sound, ?_, fun _ => ⟨m, took.snoc, before, replies⟩,
        fun _ => ⟨m', took'.snoc, before', nonces⟩, ?_, ?_⟩
      · split <;> exact nofun
      · intro began' phase'
        split at phase'
        · cases phase'
        · next clean =>
            exact ⟨s, takes, ConvSerializer.sweepLeaves_gcBegin ht (Bool.eq_false_iff.mpr clean)
              (Int.le_refl _)⟩
      · intro began' phase'
        split at phase' <;> cases phase'
  | @sweepVisits cid _ _ phase ht =>
      refine hd.serializer sound fun began _ _ leaves => ?_
      refine (leaves.gcVisit hd.sound.linked ht).mono (fun c looked => ?_) more
      obtain before | rfl := looked
      · exact sees c before
      · simp
  | sweepEnds _ _ | skips _ => exact absurd rfl within

theorem during_run (hd : During cfg s₁ [] s₁) (run : Run (step cfg) inTick s₁ as s) :
    During cfg s₁ as s :=
  run.history (fun _ _ _ _ hd before within h => during_step hd before within h) hd

/-- Right after a tick, with the instants at which its sweeps were made. -/
theorem tables_live_after_tick (cfg : Config) (wall : Int) {s₀ s₁ s₂ s₃ : GcRun} {as : List Act}
    (h : Reachable (step cfg) anyStep (· = new cfg wall) s₀)
    (begins : s₀.step cfg .tickBegins = some s₁) (run : Run (step cfg) inTick s₁ as s₂)
    (ends : s₂.step cfg .tickEnds = some s₃) :
    (∃ m, TakesIn (step cfg) inTick s₁ as .sweepReplies m ∧
      s₃.tables.YoungReplies m.tables.now) ∧
    (∃ m, TakesIn (step cfg) inTick s₁ as .sweepNonces m ∧
      s₃.tables.YoungNonces m.tables.now) ∧
    (cfg.session.dir.isSome = true → ∃ m, TakesIn (step cfg) inTick s₁ as .sweepBegins m ∧
      ∀ cid e, s₃.serializer.locks.lookup cid = some e → s₃.serializer.InUse cid ∨
        m.tables.now - (cfg.gcIdle : Int) < e.lastSeen ∨ DroppedBehind cfg s₁ as cid) := by
  have hd := during_run (During.begins (sound_reachable h) begins) run
  cases hd.sound.move_of_step ends with
  | sweepEnds phase ht =>
      obtain ⟨m, took, _, replies⟩ := hd.replies (by rw [phase]; rfl)
      obtain ⟨m', took', _, nonces⟩ := hd.nonces (by rw [phase]; rfl)
      obtain ⟨m'', took'', leaves⟩ := hd.sweeping _ phase
      exact ⟨⟨m, took, replies⟩, ⟨m', took', nonces⟩, fun _ => ⟨m'', took'', fun cid e he =>
        leaves.gcEnd ht he⟩⟩
  | skips phase =>
      obtain ⟨m, took, _, replies⟩ := hd.replies (by rw [phase]; rfl)
      obtain ⟨m', took', _, nonces⟩ := hd.nonces (by rw [phase]; rfl)
      refine ⟨⟨m, took, replies⟩, ⟨m', took', nonces⟩, fun on => ?_⟩
      cases on.symm.trans (hd.ending _ phase)

/-- With a session directory, where mutexes go after a second. -/
def sessionConfig : Config where
  server := { bind := "127.0.0.1:8080" }
  wechat := { token := "token", appId := "app" }
  session := { dir := some "/var/lib/evoclaw/sessions", cidLockIdleSecs := 1 }

def fanCid : String := buildConversationId "app" "fan"

def secondsPass (secs : Nat) : Act := .caches (.tick (Duration.fromSecs secs))

def entersTurn : List Act :=
  [.caches (.checkReplay "1700000000" "nonce-A"), .acquire 0 fanCid, .lockOwned 0, .grant 0,
    .caches (.lookupCachedReply "fan:77")]

def answersTurn : List Act := [.caches (.storeReply "fan:77" "pong"), .release 0]

def wallNow : Int := 1700000000 * 1000000000

/-- A tick that takes a second, in which a turn ends behind the sweep of its mutex. -/
def slowTick : List Act :=
  [.sweepReplies, secondsPass 1, .sweepNonces, .sweepBegins, .sweepVisits fanCid, .release 0]

/-- It begins an hour after the start, with a message that came three seconds before. -/
theorem tables_live_after_tick_session : ∃ s₁ s₃ : GcRun,
    (∃ m, TakesIn (step sessionConfig) inTick s₁ slowTick .sweepReplies m ∧
      s₃.tables.YoungReplies m.tables.now) ∧
    (∃ m, TakesIn (step sessionConfig) inTick s₁ slowTick .sweepNonces m ∧
      s₃.tables.YoungNonces m.tables.now) ∧
    ∃ m, TakesIn (step sessionConfig) inTick s₁ slowTick .sweepBegins m ∧
      ∀ cid e, s₃.serializer.locks.lookup cid = some e → s₃.serializer.InUse cid ∨
        m.tables.now - 1000000000 < e.lastSeen ∨ DroppedBehind sessionConfig s₁ slowTick cid := by
  obtain ⟨s₀, s₁, s₂, s₃, start, begins, tick, ends⟩ : ∃ s₀ s₁ s₂ s₃ : GcRun,
      exec (step sessionConfig) (new sessionConfig wallNow)
        (secondsPass 3597 :: entersTurn ++ [secondsPass 3]) = some s₀ ∧
      s₀.step sessionConfig .tickBegins = some s₁ ∧
      exec (step sessionConfig) s₁ slowTick = some s₂ ∧
      s₂.step sessionConfig .tickEnds = some s₃ :=
    ⟨_, _, _, _, rfl, rfl, rfl, rfl⟩
  have reached : Reachable (step sessionConfig) anyStep (· = new sessionConfig wallNow) s₀ :=
    ⟨_, _, rfl, run_iff_exec.mpr start⟩
  have within : Run (step sessionConfig) inTick s₁ slowTick s₂ := by
    refine (run_iff_exec.mpr tick).guard ?_
    simp [inTick, slowTick, secondsPass]
  obtain ⟨replies, nonces, locks⟩ :=
    tables_live_after_tick sessionConfig wallNow reached begins within ends
  exact ⟨s₁, s₃, replies, nonces, locks rfl⟩

/-- A handle may be dropped behind the sweep, and a reply may come of age between its sweep and
the end of the tick. -/
theorem tick_leaves_more :
    Config.validate (fun _ => .ok ()) sessionConfig = .ok () ∧
    (∃ s, exec (step sessionConfig) (new sessionConfig wallNow) (secondsPass 3597 :: entersTurn ++
        [secondsPass 3, .tickBegins, .sweepReplies, .sweepNonces, .sweepBegins, .sweepVisits fanCid,
          .release 0, .tickEnds]) = some s ∧
      s.serializer.locks.lookup fanCid = some ⟨0, 3597 * 1000000000⟩ ∧
      s.serializer.handles.keys = [] ∧ s.tables.now = 3600 * 1000000000) ∧
    (∃ s, exec (step sessionConfig) (new sessionConfig wallNow) (secondsPass 3541 :: entersTurn ++
        answersTurn ++ [secondsPass 59, .tickBegins, .sweepReplies, secondsPass 1, .sweepNonces,
          .sweepBegins, .sweepVisits fanCid, .tickEnds]) = some s ∧
      s.tables.caches.reply.value.lookup "fan:77" = some ⟨3541 * 1000000000, "pong"⟩ ∧
      s.tables.now = 3601 * 1000000000) :=
  ⟨rfl, ⟨_, rfl, rfl, rfl, rfl⟩, ⟨_, rfl, rfl, rfl⟩⟩

end GcRun
end EvoclawPluginWechat
