import EvoclawPluginWechat.Properties.DigestSteps

/-!
`last_mtime` and `inner` belong together, in every run in which no reload comes between the
two stores of one for another `mtime`, and no call that looks into the cache between the two
stores of one for its own.
-/
namespace EvoclawPluginWechat

/-- What the call has read so far is in these files. -/
def SnapshotCall.Reads (files : DigestFiles) : SnapshotCall → Prop
  | .metaRead _ digestMeta _ => files.metaFile.bind MetaFile.parsed = some digestMeta
  | .loaded _ snap | .admitted _ snap | .storing _ snap =>
      DigestCache.loadFromDisk files = some snap
  | _ => True

namespace DigestReload
open DigestCache Transition

variable {cfg : DigestCfg} {digests : DigestId → DigestFiles} {s s' : DigestReload}

/-- `latest` is only switched to a digest it has not pointed at before. -/
def newDigest (s : DigestReload) (a : Act) : Prop :=
  ∀ d, a = .publish d → d ∉ s.published

theorem newDigest_publish {d : DigestId} (h : d ∉ s.published) : newDigest s (.publish d) := by
  rintro e ⟨rfl⟩
  exact h

theorem newDigest_caller {a : Act} {c : CallId} (h : a.caller = some c) : newDigest s a := by
  rintro e ⟨rfl⟩
  cases h

/-- No reload begins to store while one for another `mtime` is between its two stores. -/
def storesApart (s : DigestReload) (a : Act) : Prop :=
  ∀ c c' mtime mtime' snap snap', a = .storeMtime c → s.calls c = some (.admitted mtime snap) →
    s.calls c' = some (.storing mtime' snap') → mtime' = mtime

/-- No call looks into the cache while a reload for its `mtime` is between its two stores. -/
def testsApart (s : DigestReload) (a : Act) : Prop :=
  ∀ c c' mtime snap, a = .testCache c → s.calls c = some (.statted mtime) →
    s.calls c' ≠ some (.storing mtime snap)

def inOrder (s : DigestReload) (a : Act) : Prop :=
  newDigest s a ∧ storesApart s a ∧ testsApart s a

/-- Every digest has an `mtime` of its own. -/
def DistinctMtimes (digests : DigestId → DigestFiles) : Prop :=
  ∀ d e mtime, stat (digests d) = some mtime → stat (digests e) = some mtime → d = e

/-- Some call has stored this `mtime` and not yet its snapshot. -/
def Storing (s : DigestReload) (mtime : Int) : Prop :=
  ∃ c snap, s.calls c = some (.storing mtime snap)

def Paired (s : DigestReload) : Prop :=
  ∀ mtime, s.cache.lastMtime = some mtime → s.loadedFor = some mtime ∨ s.Storing mtime

theorem storing_setCall {c : CallId} {call : SnapshotCall} {mtime : Int}
    (old : ∀ snap, s.calls c ≠ some (.storing mtime snap)) (h : s.Storing mtime) :
    (s.setCall c call).Storing mtime := by
  obtain ⟨c', snap, hc⟩ := h
  refine ⟨c', snap, ?_⟩
  rw [setCall_calls, if_neg, hc]
  rintro rfl
  exact old snap hc

theorem Paired.setCall (hs : s.Paired) {c : CallId} {call : SnapshotCall}
    (old : ∀ mtime snap, s.calls c ≠ some (.storing mtime snap)) : (s.setCall c call).Paired := by
  intro mtime last
  exact (hs mtime last).imp id (storing_setCall (old mtime))

/-- A call between its two stores has stored the `mtime` that is there. -/
def StoringLast (s : DigestReload) : Prop :=
  ∀ c mtime snap, s.calls c = some (.storing mtime snap) → s.cache.lastMtime = some mtime

theorem StoringLast.setCall (hs : s.StoringLast) {c : CallId} {call : SnapshotCall}
    (other : ∀ mtime snap, call ≠ .storing mtime snap) : (s.setCall c call).StoringLast := by
  intro c' mtime snap hc
  rw [setCall_calls] at hc
  split at hc
  · exact absurd (Option.some.inj hc) (other mtime snap)
  · exact hs c' mtime snap hc

theorem storingLast_move {a : Act} (hs : s.StoringLast) (apart : storesApart s a)
    (m : Move cfg digests s a s') : s'.StoringLast := by
  cases m with
  | publish d | tick d => exact hs
  | call _ begins =>
      obtain rfl | rfl := begins
      · exact hs.setCall (by simp)
      · exact hs.setCall (by simp)
  | quit _ _ _ _ | stat _ _ | hit _ _ _ | miss _ _ | readMeta _ _ _ | readData _ _ _ | pass _ _ =>
      exact hs.setCall (by simp)
  | @storeMtime c mtime snap hc =>
      intro c' mtime' snap' hc'
      change (s.setCall c _).calls c' = _ at hc'
      rw [setCall_calls] at hc'
      split at hc'
      · obtain ⟨rfl, rfl⟩ := SnapshotCall.storing.inj (Option.some.inj hc')
        rfl
      · exact congrArg some (apart c c' mtime mtime' snap snap' rfl hc hc').symm
  | @storeInner c mtime snap hc =>
      have kept : (s.setCall c (.returned (some snap))).StoringLast := hs.setCall (by simp)
      exact kept

theorem paired_move {a : Act} (hs : s.Paired) (last : s.StoringLast)
    (m : Move cfg digests s a s') : s'.Paired := by
  cases m with
  | publish d | tick d => exact hs
  | call hc _ => exact hs.setCall fun mtime snap h => by cases hc.symm.trans h
  | quit _ hc storing _ =>
      refine hs.setCall fun mtime snap h => ?_
      exact storing mtime snap (Option.some.inj (hc.symm.trans h))
  | stat hc _ | hit hc _ _ | miss hc _ | readMeta hc _ _ | readData hc _ _ | pass hc _ =>
      exact hs.setCall fun mtime snap h => by cases hc.symm.trans h
  | @storeMtime c mtime snap hc =>
      intro last hlast
      obtain rfl : mtime = last := Option.some.inj hlast
      exact .inr ⟨c, snap, setCall_calls_self _ _ _⟩
  | @storeInner c mtime snap hc =>
      intro mtime' hlast
      exact .inl ((last c mtime snap hc).symm.trans hlast)

/-- Every `mtime` around is that of a published digest; what was loaded for the `mtime` of
the latest one is the latest one. -/
structure Dated (digests : DigestId → DigestFiles) (s : DigestReload) : Prop where
  latest : ∀ d, s.latest = some d → d ∈ s.published
  stored : ∀ mtime, s.loadedFor = some mtime →
    s.cache.inner.isSome = true ∧ ∃ d ∈ s.published, stat (digests d) = some mtime
  seen : ∀ c call mtime, s.calls c = some call → call.mtime = some mtime →
    ∃ d ∈ s.published, stat (digests d) = some mtime
  inner : ∀ d mtime, s.latest = some d → stat (digests d) = some mtime →
    s.loadedFor = some mtime → s.cache.inner = loadFromDisk (digests d)
  reads : ∀ d mtime c call, s.latest = some d → stat (digests d) = some mtime →
    s.calls c = some call → call.mtime = some mtime → call.Reads (digests d)

theorem dated_new (now : Int) : Dated digests (new now) where
  latest _ h := by cases h
  stored _ h := by cases h
  seen _ _ _ h := by cases h
  inner _ _ h := by cases h
  reads _ _ _ _ h := by cases h

theorem Dated.publish (hs : Dated digests s) (distinct : DistinctMtimes digests) {d : DigestId}
    (fresh : d ∉ s.published) :
    Dated digests { s with latest := some d, published := d :: s.published } := by
  have earlier : ∀ mtime, (∃ e ∈ s.published, stat (digests e) = some mtime) →
      stat (digests d) ≠ some mtime := by
    rintro mtime ⟨e, he, hm⟩ same
    exact fresh (distinct d e mtime same hm ▸ he)
  have kept : ∀ mtime, (∃ e ∈ s.published, stat (digests e) = some mtime) →
      ∃ e ∈ d :: s.published, stat (digests e) = some mtime := by
    rintro mtime ⟨e, he, hm⟩
    exact ⟨e, List.mem_cons_of_mem _ he, hm⟩
  refine ⟨fun e he => ?_, fun mtime h => ?_, fun c call mtime hc h => ?_,
    fun e mtime he hm h => ?_, fun e mtime c call he hm hc h => ?_⟩
  · obtain rfl := Option.some.inj he
    exact List.mem_cons_self
  · exact ⟨(hs.stored mtime h).1, kept mtime (hs.stored mtime h).2⟩
  · exact kept mtime (hs.seen c call mtime hc h)
  · obtain rfl := Option.some.inj he
    exact absurd hm (earlier mtime (hs.stored mtime h).2)
  · obtain rfl := Option.some.inj he
    exact absurd hm (earlier mtime (hs.seen c call mtime hc h))

theorem Dated.setCall (hs : Dated digests s) {c : CallId} {call : SnapshotCall}
    (seen : ∀ mtime, call.mtime = some mtime →
      ∃ d ∈ s.published, stat (digests d) = some mtime)
    (reads : ∀ d mtime, s.latest = some d → stat (digests d) = some mtime →
      call.mtime = some mtime → call.Reads (digests d)) : Dated digests (s.setCall c call) := by
  refine ⟨hs.latest, hs.stored, fun c' call' mtime hc h => ?_, hs.inner,
    fun d mtime c' call' hd hm hc h => ?_⟩
  · rw [setCall_calls] at hc
    split at hc
    · obtain rfl := Option.some.inj hc
      exact seen mtime h
    · exact hs.seen c' call' mtime hc h
  · rw [setCall_calls] at hc
    split at hc
    · obtain rfl := Option.some.inj hc
      exact reads d mtime hd hm h
    · exact hs.reads d mtime c' call' hd hm hc h

theorem Dated.keep (hs : Dated digests s) {c : CallId} {old call : SnapshotCall}
    (hc : s.calls c = some old) (same : call.mtime = old.mtime)
    (reads : ∀ d, s.latest = some d → old.Reads (digests d) → call.Reads (digests d)) :
    Dated digests (s.setCall c call) := by
  refine hs.setCall (fun mtime h => ?_) fun d mtime hd hm h => ?_
  · exact hs.seen c old mtime hc (same ▸ h)
  · exact reads d hd (hs.reads d mtime c old hd hm hc (same ▸ h))

theorem Dated.forget (hs : Dated digests s) {c : CallId} {call : SnapshotCall}
    (none : call.mtime = none) : Dated digests (s.setCall c call) := by
  refine hs.setCall (fun mtime h => ?_) fun d mtime _ _ h => ?_
  · cases none.symm.trans h
  · cases none.symm.trans h

theorem dated_move {a : Act} (distinct : DistinctMtimes digests) (hs : Dated digests s)
    (fresh : newDigest s a) (m : Move cfg digests s a s') : Dated digests s' := by
  cases m with
  | publish d => exact hs.publish distinct (fresh d rfl)
  | tick d => exact ⟨hs.latest, hs.stored, hs.seen, hs.inner, hs.reads⟩
  | call _ begins =>
      obtain rfl | rfl := begins
      · exact hs.forget rfl
      · exact hs.forget rfl
  | quit _ _ _ _ | hit _ _ _ => exact hs.forget rfl
  | stat hc hm =>
      obtain ⟨d, hd, hm⟩ := latest_of_stat hm
      refine hs.setCall (fun mtime h => ?_) fun _ _ _ _ _ => trivial
      obtain rfl := Option.some.inj h
      exact ⟨d, hs.latest d hd, hm⟩
  | miss hc _ => exact hs.keep hc rfl fun _ _ _ => trivial
  | readMeta hc hd hmeta =>
      refine hs.keep hc rfl fun e he _ => ?_
      obtain rfl := Option.some.inj (hd.symm.trans he)
      exact hmeta
  | readData hc hd hdata =>
      refine hs.keep hc rfl fun e he parsed => ?_
      obtain rfl := Option.some.inj (hd.symm.trans he)
      exact loadFromDisk_eq_some.mpr ⟨parsed, hdata⟩
  | pass hc _ => exact hs.keep hc rfl fun _ _ reads => reads
  | @storeMtime c mtime snap hc =>
      have kept : Dated digests (s.setCall c (.storing mtime snap)) :=
        hs.keep hc rfl fun _ _ reads => reads
      exact ⟨kept.latest, kept.stored, kept.seen, kept.inner, kept.reads⟩
  | @storeInner c mtime snap hc =>
      have kept : Dated digests (s.setCall c (.returned (some snap))) := hs.forget rfl
      refine ⟨kept.latest, fun mtime' h => ?_, kept.seen, fun d mtime' hd hm h => ?_, kept.reads⟩
      · obtain rfl : mtime = mtime' := Option.some.inj h
        exact ⟨rfl, hs.seen c _ mtime hc rfl⟩
      · obtain rfl : mtime = mtime' := Option.some.inj h
        exact (hs.reads d mtime c _ hd hm hc rfl).symm

/-- What the steps that are in order keep. -/
structure Coherent (digests : DigestId → DigestFiles) (s : DigestReload) : Prop where
  paired : s.Paired
  last : s.StoringLast
  dated : Dated digests s

theorem coherent_move {a : Act} (distinct : DistinctMtimes digests) (hs : Coherent digests s)
    (order : inOrder s a) (m : Move cfg digests s a s') : Coherent digests s' where
  paired := paired_move hs.paired hs.last m
  last := storingLast_move hs.last order.2.1 m
  dated := dated_move distinct hs.dated order.1 m

theorem coherent_of_reachable (distinct : DistinctMtimes digests)
    (h : Reachable (step cfg digests) inOrder (fun s => ∃ now, s = new now) s) :
    Coherent digests s := by
  refine h.invariant (fun s starts => ?_)
    fun s a t hs order hstep => coherent_move distinct hs order (move_of_step hstep)
  obtain ⟨now, rfl⟩ := starts
  refine ⟨?_, ?_, dated_new now⟩
  · intro mtime last
    cases last
  · intro c mtime snap hc
    cases hc

/-- Every call so far has returned. -/
def Quiet (s : DigestReload) : Prop :=
  ∀ c call, s.calls c = some call → ∃ result, call = .returned result

/-- The call has the `mtime` of the latest digest and returns nothing but that digest. -/
structure Current (digests : DigestId → DigestFiles) (latest : Option DigestId)
    (call : SnapshotCall) : Prop where
  mtime : ∀ mtime, call.mtime = some mtime →
    ∃ d, latest = some d ∧ stat (digests d) = some mtime
  returns : ∀ snap, call = .returned (some snap) →
    ∃ d, latest = some d ∧ loadFromDisk (digests d) = some snap

theorem Current.keep {latest : Option DigestId} {old call : SnapshotCall}
    (h : Current digests latest old) (same : call.mtime = old.mtime)
    (open_ : ∀ result, call ≠ .returned result) : Current digests latest call := by
  refine ⟨fun mtime hm => h.mtime mtime (same ▸ hm), fun snap returned => ?_⟩
  exact absurd returned (open_ _)

theorem current_returned {latest : Option DigestId} {result : Option DigestSnapshot}
    (h : ∀ snap, result = some snap →
      ∃ d, latest = some d ∧ loadFromDisk (digests d) = some snap) :
    Current digests latest (.returned result) := by
  refine ⟨fun mtime hm => (by cases hm), fun snap returned => h snap ?_⟩
  cases returned
  rfl

/-- What a quiet state leaves to the calls that start in it, up to the next publication. -/
structure Since (digests : DigestId → DigestFiles) (s t : DigestReload) : Prop where
  latest : t.latest = s.latest
  earlier : ∀ c call, s.calls c = some call → t.calls c = some call
  current : ∀ c call, s.calls c = none → t.calls c = some call →
    Current digests s.latest call

theorem since_refl : Since digests s s := by
  refine ⟨rfl, fun c call h => h, fun c call fresh h => ?_⟩
  cases fresh.symm.trans h

section
variable {t : DigestReload}

theorem Since.started (hs : Since digests s t) (quiet : s.Quiet) {c : CallId}
    {call : SnapshotCall} (hc : t.calls c = some call)
    (unfinished : ∀ result, call ≠ .returned result) :
    s.calls c = none ∧ Current digests s.latest call := by
  have fresh : s.calls c = none := by
    cases earlier : s.calls c with
    | none => rfl
    | some old =>
        obtain ⟨result, rfl⟩ := quiet c old earlier
        have same := (hs.earlier c _ earlier).symm.trans hc
        exact absurd (Option.some.inj same).symm (unfinished result)
  exact ⟨fresh, hs.current c call fresh hc⟩

theorem Since.setCall (hs : Since digests s t) {c : CallId} {call : SnapshotCall}
    (fresh : s.calls c = none) (current : Current digests s.latest call) :
    Since digests s (t.setCall c call) := by
  refine ⟨hs.latest, fun c' old h => ?_, fun c' call' fresh' h => ?_⟩
  · rw [setCall_calls, if_neg]
    · exact hs.earlier c' old h
    · rintro rfl
      cases fresh.symm.trans h
  · rw [setCall_calls] at h
    split at h
    · obtain rfl := Option.some.inj h
      exact current
    · exact hs.current c' call' fresh' h

theorem since_move {a : Act} {t' : DigestReload} (quiet : s.Quiet) (hs : Since digests s t)
    (coherent : Coherent digests t) (apart : testsApart t a) (still : ∀ d, a ≠ .publish d)
    (m : Move cfg digests t a t') : Since digests s t' := by
  cases m with
  | publish d => exact absurd rfl (still d)
  | tick d => exact ⟨hs.latest, hs.earlier, hs.current⟩
  | @call c call hc begins =>
      have fresh : s.calls c = none := by
        cases earlier : s.calls c with
        | none => rfl
        | some old => cases hc.symm.trans (hs.earlier c old earlier)
      refine hs.setCall fresh ?_
      obtain rfl | rfl := begins
      · exact ⟨fun mtime hm => (by cases hm), fun snap returned => (by cases returned)⟩
      · exact current_returned fun snap none => (by cases none)
  | quit _ hc _ unfinished =>
      have fresh := (hs.started quiet hc unfinished).1
      exact hs.setCall fresh (current_returned fun snap none => (by cases none))
  | stat hc hm =>
      have fresh := (hs.started quiet hc (by simp)).1
      refine hs.setCall fresh ⟨fun mtime same => ?_, fun snap returned => (by cases returned)⟩
      obtain rfl := Option.some.inj same
      obtain ⟨d, hd, hm⟩ := latest_of_stat hm
      exact ⟨d, hs.latest ▸ hd, hm⟩
  | @hit c mtime snap hc last inner =>
      obtain ⟨fresh, current⟩ := hs.started quiet hc (by simp)
      obtain ⟨d, hd, hm⟩ := current.mtime mtime rfl
      have loaded : t.loadedFor = some mtime := by
        obtain loaded | ⟨c', snap', storing⟩ := coherent.paired mtime last
        · exact loaded
        · exact absurd storing (apart c c' mtime snap' rfl hc)
      have snapshot := coherent.dated.inner d mtime (hs.latest ▸ hd) hm loaded
      refine hs.setCall fresh (current_returned fun snap' same => ⟨d, hd, ?_⟩)
      obtain rfl := Option.some.inj same
      exact snapshot.symm.trans inner
  | miss hc _ | readMeta hc _ _ | readData hc _ _ | pass hc _ =>
      obtain ⟨fresh, current⟩ := hs.started quiet hc (by simp)
      exact hs.setCall fresh (current.keep rfl (by simp))
  | @storeMtime c mtime snap hc =>
      obtain ⟨fresh, current⟩ := hs.started quiet hc (by simp)
      have next : Since digests s (t.setCall c (.storing mtime snap)) :=
        hs.setCall fresh (current.keep rfl (by simp))
      exact ⟨next.latest, next.earlier, next.current⟩
  | @storeInner c mtime snap hc =>
      obtain ⟨fresh, current⟩ := hs.started quiet hc (by simp)
      obtain ⟨d, hd, hm⟩ := current.mtime mtime rfl
      have snapshot := coherent.dated.reads d mtime c _ (hs.latest ▸ hd) hm hc rfl
      have next : Since digests s (t.setCall c (.returned (some snap))) :=
        hs.setCall fresh (current_returned fun snap' same =>
          ⟨d, hd, Option.some.inj same ▸ snapshot⟩)
      exact ⟨next.latest, next.earlier, next.current⟩

end

/-- A call takes its steps while no other call is under way. -/
def oneAtATime (s : DigestReload) (a : Act) : Prop :=
  newDigest s a ∧ ∀ c c' call, a.caller = some c → c' ≠ c → s.calls c' = some call →
    ∃ result, call = .returned result

/-- Calls that run one at a time are in order. -/
theorem inOrder_of_oneAtATime {a : Act} (alone : oneAtATime s a) : inOrder s a := by
  have nobody : ∀ {c c' call mtime snap}, a.caller = some c → s.calls c = some call →
      (∀ mtime snap, call ≠ .storing mtime snap) → s.calls c' ≠ some (.storing mtime snap) := by
    intro c c' call mtime snap caller hc open_ storing
    by_cases own : c' = c
    · subst own
      exact open_ mtime snap (Option.some.inj (hc.symm.trans storing))
    · obtain ⟨result, returned⟩ := alone.2 c c' _ caller own storing
      cases returned
  refine ⟨alone.1, fun c c' mtime mtime' snap snap' stores hc storing => ?_,
    fun c c' mtime snap tests hc => ?_⟩
  · subst stores
    exact absurd storing (nobody rfl hc (by simp))
  · subst tests
    exact nobody rfl hc (by simp)

theorem run_oneAtATime {t : DigestReload} {as : List Act} {c : CallId}
    (h : Run (step cfg digests) anyStep s as t) (own : ∀ a ∈ as, a.caller = some c)
    (quiet : ∀ c' call, c' ≠ c → s.calls c' = some call → ∃ result, call = .returned result) :
    Run (step cfg digests) oneAtATime s as t := by
  induction h with
  | nil s => exact .nil s
  | @cons s u t a as _ hstep _ ih =>
      have caller := own a List.mem_cons_self
      refine .cons ⟨fun d publishes => ?_, fun c₁ c' call h₁ other hc => ?_⟩ hstep
        (ih (fun a ha => own a (List.mem_cons_of_mem _ ha)) fun c' call other hc => ?_)
      · subst publishes
        cases caller
      · obtain rfl := Option.some.inj (caller.symm.trans h₁)
        exact quiet c' call other hc
      · refine quiet c' call other ?_
        rw [← calls_of_other hstep fun h => other (Option.some.inj (h.symm.trans caller))]
        exact hc

/-- The guard of a stretch of a run in which `latest` is not switched. -/
def inOrderUnpublished (s : DigestReload) (a : Act) : Prop :=
  inOrder s a ∧ ∀ d, a ≠ .publish d

/-- Between reloads `inner` is what was loaded for `last_mtime`, and a call that starts
after the last publication and after all earlier calls returns the latest digest. -/
theorem digest_coherent (distinct : DistinctMtimes digests)
    (h : Reachable (step cfg digests) inOrder (fun s => ∃ now, s = new now) s) :
    (∀ mtime, s.cache.lastMtime = some mtime → (∀ last, ¬ s.Storing last) →
      s.loadedFor = some mtime ∧ s.cache.inner.isSome = true) ∧
    (s.Quiet → ∀ as t c snap, Run (step cfg digests) inOrderUnpublished s as t →
      s.calls c = none → t.calls c = some (.returned (some snap)) →
      ∃ d, t.latest = some d ∧ loadFromDisk (digests d) = some snap) := by
  have coherent := coherent_of_reachable distinct h
  refine ⟨fun mtime last idle => ?_, fun quiet as t c snap run fresh returned => ?_⟩
  · obtain loaded | storing := coherent.paired mtime last
    · exact ⟨loaded, (coherent.dated.stored mtime loaded).1⟩
    · exact absurd storing (idle mtime)
  · have since := run.invariant (P := fun t => Since digests s t ∧ Coherent digests t)
      (fun u a v hu guard hstep => by
        have m := move_of_step hstep
        exact ⟨since_move quiet hu.1 hu.2 guard.1.2.2 guard.2 m,
          coherent_move distinct hu.2 guard.1 m⟩) ⟨since_refl, coherent⟩
    obtain ⟨d, hd, snapshot⟩ := (since.1.current c _ fresh returned).returns snap rfl
    exact ⟨d, since.1.latest.trans hd, snapshot⟩

theorem numbered_distinct : DistinctMtimes numbered := by
  intro d e mtime hd he
  exact Int.ofNat.inj (Option.some.inj (hd.trans he.symm))

theorem alone_caller (c : CallId) : ∀ a ∈ alone c, a.caller = some c := by
  simp [alone, Act.caller]

theorem run_reload {d : DigestId} {c : CallId} {s₁ t : DigestReload}
    {result : Option DigestSnapshot} (quiet : s.Quiet) (fresh : d ∉ s.published)
    (switched : step cfg digests s (.publish d) = some s₁)
    (h : exec (step cfg digests) s₁ (alone c) = some t)
    (returned : t.calls c = some (.returned result)) :
    Run (step cfg digests) oneAtATime s (.publish d :: alone c) t ∧ t.Quiet := by
  have quiet₁ : s₁.Quiet := by
    cases switched
    exact quiet
  have run := run_iff_exec.mpr h
  refine ⟨.cons ⟨fun e publishes => ?_, fun _ _ _ h => (by cases h)⟩ switched
    (run_oneAtATime run (alone_caller c) fun c' call _ hc => quiet₁ c' call hc),
    fun c' call hc => ?_⟩
  · cases publishes
    exact fresh
  · by_cases own : c' = c
    · subst own
      exact ⟨result, Option.some.inj (hc.symm.trans returned)⟩
    · rw [calls_of_others run fun a ha h =>
        own (Option.some.inj (h.symm.trans (alone_caller c a ha)))] at hc
      exact quiet₁ c' call hc

/-- Two reloads one after the other, and a call that finds the second one in memory. -/
theorem digest_coherent_after_reloads : ∃ s t snap,
    s.cache.lastMtime = some 1 ∧ s.loadedFor = some 1 ∧
      Run (step ⟨true, 3600⟩ numbered) inOrderUnpublished s
        [.call 2, .stat 2, .testCache 2] t ∧
      t.calls 2 = some (.returned (some snap)) ∧
      ∃ d, t.latest = some d ∧ loadFromDisk (numbered d) = some snap := by
  obtain ⟨s₁, s₂, s₃, s₄, t, _, _, snap, switch, first, returned₀, only, switch', second,
      returned₁, fresh, mtime, hit, returned₂⟩ : ∃ s₁ s₂ s₃ s₄ t result result' snap,
        step ⟨true, 3600⟩ numbered (new 0) (.publish 0) = some s₁ ∧
        exec (step ⟨true, 3600⟩ numbered) s₁ (alone 0) = some s₂ ∧
        s₂.calls 0 = some (.returned result) ∧ s₂.published = [0] ∧
        step ⟨true, 3600⟩ numbered s₂ (.publish 1) = some s₃ ∧
        exec (step ⟨true, 3600⟩ numbered) s₃ (alone 1) = some s₄ ∧
        s₄.calls 1 = some (.returned result') ∧
        s₄.calls 2 = none ∧ s₄.cache.lastMtime = some 1 ∧
        exec (step ⟨true, 3600⟩ numbered) s₄ [.call 2, .stat 2, .testCache 2] = some t ∧
        t.calls 2 = some (.returned (some snap)) :=
    ⟨_, _, _, _, _, _, _, _, rfl, rfl, rfl, rfl, rfl, rfl, rfl, rfl, rfl, rfl, rfl⟩
  have quiet : (new 0).Quiet := by
    intro c call hc
    cases hc
  obtain ⟨run, quiet₂⟩ := run_reload quiet (by simp [new]) switch first returned₀
  obtain ⟨run', quiet₄⟩ := run_reload quiet₂ (by simp [only]) switch' second returned₁
  have reached : Reachable (step ⟨true, 3600⟩ numbered) inOrder (fun s => ∃ now, s = new now) s₄ :=
    ⟨new 0, _, ⟨0, rfl⟩, (run.append run').mono fun _ _ => inOrder_of_oneAtATime⟩
  have call : Run (step ⟨true, 3600⟩ numbered) inOrderUnpublished s₄
      [.call 2, .stat 2, .testCache 2] t := by
    have steps := run_iff_exec.mpr hit
    have alone := run_oneAtATime (c := 2) steps (by simp [Act.caller])
      fun c call _ hc => quiet₄ c call hc
    refine (alone.mono fun _ _ => inOrder_of_oneAtATime).and (steps.guard ?_)
    simp
  have idle : ∀ last, ¬ s₄.Storing last := by
    rintro last ⟨c, snap, hc⟩
    obtain ⟨result, returned⟩ := quiet₄ c _ hc
    cases returned
  obtain ⟨loaded, _⟩ := (digest_coherent numbered_distinct reached).1 1 mtime idle
  exact ⟨s₄, t, snap, mtime, loaded, call, returned₂,
    (digest_coherent numbered_distinct reached).2 quiet₄ _ t 2 snap call fresh returned₂⟩

/-- A slow reload of the older digest and a fast one of the newer cross in their stores: the
older events stay behind the newer `mtime`. -/
theorem digest_incoherent : DistinctMtimes numbered ∧ ∃ s t snap,
    Reachable (step ⟨true, 3600⟩ numbered) newDigest (fun s => ∃ now, s = new now) s ∧
      s.Quiet ∧ s.latest = some 1 ∧ s.cache.lastMtime = some 1 ∧ s.loadedFor = some 0 ∧
      s.calls 2 = none ∧
      Run (step ⟨true, 3600⟩ numbered) (fun _ a => ∀ d, a ≠ .publish d) s
        [.call 2, .stat 2, .testCache 2] t ∧
      t.calls 2 = some (.returned (some snap)) ∧ loadFromDisk (numbered 0) = some snap ∧
      loadFromDisk (numbered 1) ≠ some snap := by
  let old : List Act := [.call 0, .stat 0, .testCache 0, .readMeta 0, .readData 0, .check 0]
  let crossed : List Act := [.call 1, .stat 1, .testCache 1, .readMeta 1, .readData 1, .check 1,
    .storeMtime 0, .storeMtime 1, .storeInner 1, .storeInner 0]
  obtain ⟨s₁, s₂, s₃, s₄, t, _, _, snap, switch, first, only, switch', second, returned₀,
      returned₁, latest, mtime, loaded, fresh, hit, returned₂, source⟩ :
      ∃ s₁ s₂ s₃ s₄ t result result' snap,
        step ⟨true, 3600⟩ numbered (new 0) (.publish 0) = some s₁ ∧
        exec (step ⟨true, 3600⟩ numbered) s₁ old = some s₂ ∧ s₂.published = [0] ∧
        step ⟨true, 3600⟩ numbered s₂ (.publish 1) = some s₃ ∧
        exec (step ⟨true, 3600⟩ numbered) s₃ crossed = some s₄ ∧
        s₄.calls 0 = some (.returned result) ∧ s₄.calls 1 = some (.returned result') ∧
        s₄.latest = some 1 ∧ s₄.cache.lastMtime = some 1 ∧ s₄.loadedFor = some 0 ∧
        s₄.calls 2 = none ∧
        exec (step ⟨true, 3600⟩ numbered) s₄ [.call 2, .stat 2, .testCache 2] = some t ∧
        t.calls 2 = some (.returned (some snap)) ∧ loadFromDisk (numbered 0) = some snap :=
    ⟨_, _, _, _, _, _, _, _, rfl, rfl, rfl, rfl, rfl, rfl, rfl, rfl, rfl, rfl, rfl, rfl, rfl, rfl⟩
  have steps₁ := run_iff_exec.mpr first
  have steps₂ := run_iff_exec.mpr second
  have quiet : s₄.Quiet := by
    intro c call hc
    by_cases zero : c = 0
    · subst zero
      exact ⟨_, Option.some.inj (hc.symm.trans returned₀)⟩
    · by_cases one : c = 1
      · subst one
        exact ⟨_, Option.some.inj (hc.symm.trans returned₁)⟩
      · rw [calls_of_others steps₂ (by simp [crossed, Act.caller, Ne.symm zero, Ne.symm one])] at hc
        cases switch'
        rw [calls_of_others steps₁ (by simp [old, Act.caller, Ne.symm zero])] at hc
        cases switch
        cases hc
  have reached :
      Reachable (step ⟨true, 3600⟩ numbered) newDigest (fun s => ∃ now, s = new now) s₄ := by
    refine ⟨new 0, _, ⟨0, rfl⟩, .cons (newDigest_publish (by simp [new])) switch
      ((steps₁.guard fun a ha s => ?_).append (.cons (newDigest_publish (by simp [only])) switch'
        (steps₂.guard fun a ha s => ?_)))⟩
    · exact newDigest_caller (c := 0) (by revert a; simp [old, Act.caller])
    · have own : a.caller = some 0 ∨ a.caller = some 1 := by
        revert a
        simp [crossed, Act.caller]
      obtain own | own := own
      · exact newDigest_caller own
      · exact newDigest_caller own
  refine ⟨numbered_distinct, s₄, t, snap, reached, quiet, latest, mtime, loaded, fresh,
    (run_iff_exec.mpr hit).guard (by simp), returned₂, source, fun same => ?_⟩
  have events := congrArg (fun snap => snap.map (·.digestData.events.map Event.id))
    (source.trans same.symm)
  revert events
  decide

end DigestReload
end EvoclawPluginWechat
