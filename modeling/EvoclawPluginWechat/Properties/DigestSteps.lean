import EvoclawPluginWechat.Core.DigestReload
import EvoclawPluginWechat.Library.Runs

/-!
The steps of concurrent `snapshot` calls, and what becomes of a call that nobody
interrupts: it is the call at one instant.
-/
namespace EvoclawPluginWechat
namespace DigestReload
open DigestCache

def Act.caller : Act → Option CallId
  | .publish _ | .tick _ => none
  | .call c | .stat c | .testCache c | .readMeta c | .readData c | .check c | .storeMtime c
  | .storeInner c => some c

inductive Move (cfg : DigestCfg) (digests : DigestId → DigestFiles) (s : DigestReload) :
    Act → DigestReload → Prop
  | publish (d : DigestId) : Move cfg digests s (.publish d)
      { s with latest := some d, published := d :: s.published }
  | tick (d : Nat) : Move cfg digests s (.tick d) { s with now := s.now + d }
  | call {c : CallId} {call : SnapshotCall} : s.calls c = none →
      call = .started ∨ call = .returned none → Move cfg digests s (.call c) (s.setCall c call)
  /-- One of the early returns. -/
  | quit {a : Act} {c : CallId} {call : SnapshotCall} : a.caller = some c →
      s.calls c = some call →
      (∀ mtime snap, call ≠ .storing mtime snap) → (∀ result, call ≠ .returned result) →
      Move cfg digests s a (s.setCall c (.returned none))
  | stat {c : CallId} {mtime : Int} : s.calls c = some .started →
      stat (s.files digests) = some mtime →
      Move cfg digests s (.stat c) (s.setCall c (.statted mtime))
  | hit {c : CallId} {mtime : Int} {snap : DigestSnapshot} :
      s.calls c = some (.statted mtime) → s.cache.lastMtime = some mtime →
      s.cache.inner = some snap →
      Move cfg digests s (.testCache c) (s.setCall c (.returned (some snap)))
  | miss {c : CallId} {mtime : Int} : s.calls c = some (.statted mtime) →
      s.cache.cacheHit mtime = none →
      Move cfg digests s (.testCache c) (s.setCall c (.missed mtime))
  | readMeta {c : CallId} {mtime : Int} {d : DigestId} {digestMeta : DigestMeta} :
      s.calls c = some (.missed mtime) → s.latest = some d →
      (digests d).metaFile.bind MetaFile.parsed = some digestMeta →
      Move cfg digests s (.readMeta c) (s.setCall c (.metaRead mtime digestMeta d))
  | readData {c : CallId} {mtime : Int} {d source : DigestId} {digestMeta : DigestMeta}
      {digestData : DigestData} : s.calls c = some (.metaRead mtime digestMeta source) →
      s.latest = some d → (digests d).dataFile = some digestData →
      Move cfg digests s (.readData c) (s.setCall c (.loaded mtime ⟨digestMeta, digestData⟩))
  | pass {c : CallId} {mtime : Int} {snap : DigestSnapshot} :
      s.calls c = some (.loaded mtime snap) → admits cfg s.now mtime snap = true →
      Move cfg digests s (.check c) (s.setCall c (.admitted mtime snap))
  | storeMtime {c : CallId} {mtime : Int} {snap : DigestSnapshot} :
      s.calls c = some (.admitted mtime snap) → Move cfg digests s (.storeMtime c)
        { s.setCall c (.storing mtime snap) with cache.lastMtime := some mtime }
  | storeInner {c : CallId} {mtime : Int} {snap : DigestSnapshot} :
      s.calls c = some (.storing mtime snap) → Move cfg digests s (.storeInner c)
        { s.setCall c (.returned (some snap)) with
          cache.inner := some snap
          loadedFor := some mtime }

variable {cfg : DigestCfg} {digests : DigestId → DigestFiles} {s s' : DigestReload}

theorem cacheHit_eq_some {c : DigestCache} {mtime : Int} {snap : DigestSnapshot} :
    c.cacheHit mtime = some snap ↔ c.lastMtime = some mtime ∧ c.inner = some snap := by
  rw [cacheHit, Option.ite_none_right_eq_some]

theorem files_eq {d : DigestId} (h : s.latest = some d) : s.files digests = digests d := by
  rw [files, h]

theorem latest_of_dataFile {digestData : DigestData}
    (h : (s.files digests).dataFile = some digestData) :
    ∃ d, s.latest = some d ∧ (digests d).dataFile = some digestData := by
  unfold files at h
  split at h
  · next d hd => exact ⟨d, hd, h⟩
  · cases h

theorem latest_of_stat {mtime : Int} (h : stat (s.files digests) = some mtime) :
    ∃ d, s.latest = some d ∧ stat (digests d) = some mtime := by
  unfold files at h
  split at h
  · next d hd => exact ⟨d, hd, h⟩
  · cases h

theorem move_of_step {a : Act} (h : s.step cfg digests a = some s') :
    Move cfg digests s a s' := by
  cases a with
  | publish d =>
      cases h
      exact .publish d
  | tick d =>
      cases h
      exact .tick d
  | call c =>
      simp only [step] at h
      split at h
      · next hc =>
          cases h
          refine .call hc ?_
          split
          · exact .inl rfl
          · exact .inr rfl
      · cases h
  | stat c =>
      simp only [step] at h
      split at h
      · next hc =>
          split at h
          · next hm => cases h; exact .stat hc hm
          · cases h; exact .quit rfl hc (by simp) (by simp)
      · cases h
  | testCache c =>
      simp only [step] at h
      split at h
      · next hc =>
          split at h
          · next hit =>
              cases h
              obtain ⟨last, inner⟩ := cacheHit_eq_some.mp hit
              exact .hit hc last inner
          · next miss => cases h; exact .miss hc miss
      · cases h
  | readMeta c =>
      simp only [step] at h
      split at h
      · next hc =>
          split at h
          · next hd hm =>
              cases h
              rw [files_eq hd] at hm
              exact .readMeta hc hd hm
          · cases h; exact .quit rfl hc (by simp) (by simp)
      · cases h
  | readData c =>
      simp only [step] at h
      split at h
      · next hc =>
          split at h
          · next hdata =>
              cases h
              obtain ⟨d, hd, hdata⟩ := latest_of_dataFile hdata
              exact .readData hc hd hdata
          · cases h; exact .quit rfl hc (by simp) (by simp)
      · cases h
  | check c =>
      simp only [step] at h
      split at h
      · next hc =>
          split at h
          · next passes => cases h; exact .pass hc passes
          · cases h; exact .quit rfl hc (by simp) (by simp)
      · cases h
  | storeMtime c =>
      simp only [step] at h
      split at h
      · next hc => cases h; exact .storeMtime hc
      · cases h
  | storeInner c =>
      simp only [step] at h
      split at h
      · next hc => cases h; exact .storeInner hc
      · cases h

theorem setCall_calls (s : DigestReload) (c c' : CallId) (call : SnapshotCall) :
    (s.setCall c call).calls c' = if c' = c then some call else s.calls c' := by
  simp only [setCall, Function.update_apply]

section
variable (s : DigestReload) (c : CallId) (call call' : SnapshotCall)

@[simp] theorem setCall_calls_self : (s.setCall c call).calls c = some call :=
  Function.update_self _ _ _

@[simp] theorem setCall_files : (s.setCall c call).files digests = s.files digests := rfl

@[simp] theorem setCall_cache : (s.setCall c call).cache = s.cache := rfl

@[simp] theorem setCall_latest : (s.setCall c call).latest = s.latest := rfl

@[simp] theorem setCall_now : (s.setCall c call).now = s.now := rfl

@[simp] theorem setCall_setCall : (s.setCall c call).setCall c call' = s.setCall c call' := by
  simp only [setCall, Function.update_idem]

end

theorem calls_of_other {a : Act} {c : CallId} (h : s.step cfg digests a = some s')
    (other : a.caller ≠ some c) : s'.calls c = s.calls c := by
  cases move_of_step h with
  | publish d | tick d => rfl
  | call _ _ | stat _ _ | hit _ _ _ | miss _ _ | readMeta _ _ _ | readData _ _ _ | pass _ _
  | storeMtime _ | storeInner _ =>
      refine Function.update_of_ne ?_ _ _
      rintro rfl
      exact other rfl
  | quit own _ _ _ =>
      refine Function.update_of_ne ?_ _ _
      rintro rfl
      exact other own

theorem calls_of_others {t : DigestReload} {as : List Act} {c : CallId}
    (h : Transition.Run (step cfg digests) Transition.anyStep s as t)
    (others : ∀ a ∈ as, a.caller ≠ some c) : t.calls c = s.calls c := by
  induction h with
  | nil s => rfl
  | cons _ hstep _ ih =>
      rw [ih fun a ha => others a (List.mem_cons_of_mem _ ha)]
      exact calls_of_other hstep (others _ List.mem_cons_self)

theorem loadFromDisk_eq_some {files : DigestFiles} {snap : DigestSnapshot} :
    loadFromDisk files = some snap ↔ files.metaFile.bind MetaFile.parsed = some snap.digestMeta ∧
      files.dataFile = some snap.digestData := by
  unfold loadFromDisk
  constructor
  · intro h
    split at h
    · next hm hd =>
        obtain rfl := Option.some.inj h
        exact ⟨hm, hd⟩
    · cases h
  · rintro ⟨hm, hd⟩
    rw [hm, hd]

/-- The steps of one call, in order. -/
def alone (c : CallId) : List Act :=
  [.call c, .stat c, .testCache c, .readMeta c, .readData c, .check c, .storeMtime c,
    .storeInner c]

/-- A call that runs alone is the call at one instant. -/
theorem snapshot_alone {c : CallId} (fresh : s.calls c = none) :
    ∃ k t, Transition.Run (step cfg digests) Transition.anyStep s ((alone c).take k) t ∧
      t.calls c = some (.returned (s.cache.snapshot cfg (s.files digests) s.now).1) ∧
      t.cache = (s.cache.snapshot cfg (s.files digests) s.now).2 := by
  simp only [Transition.run_iff_exec]
  cases he : cfg.enabled with
  | false =>
      refine ⟨1, s.setCall c (.returned none), ?_⟩
      simp [alone, Transition.exec, step, fresh, he, snapshot]
  | true =>
      cases hm : stat (s.files digests) with
      | none =>
          refine ⟨2, s.setCall c (.returned none), ?_⟩
          simp [alone, Transition.exec, step, fresh, he, hm, snapshot]
      | some mtime =>
          obtain ⟨d, hd, _⟩ := latest_of_stat hm
          cases hit : s.cache.cacheHit mtime with
          | some snap =>
              refine ⟨3, s.setCall c (.returned (some snap)), ?_⟩
              simp [alone, Transition.exec, step, fresh, he, hm, hit, snapshot]
          | none =>
              cases parsed : (s.files digests).metaFile.bind MetaFile.parsed with
              | none =>
                  refine ⟨4, s.setCall c (.returned none), ?_⟩
                  simp [alone, Transition.exec, step, fresh, he, hm, hit, hd, parsed, snapshot,
                    loadFromDisk]
              | some digestMeta =>
                  cases hdata : (s.files digests).dataFile with
                  | none =>
                      refine ⟨5, s.setCall c (.returned none), ?_⟩
                      simp [alone, Transition.exec, step, fresh, he, hm, hit, hd, parsed, hdata,
                        snapshot, loadFromDisk]
                  | some digestData =>
                      cases ok : admits cfg s.now mtime ⟨digestMeta, digestData⟩ with
                      | false =>
                          refine ⟨6, s.setCall c (.returned none), ?_⟩
                          simp [alone, Transition.exec, step, fresh, he, hm, hit, hd, parsed,
                            hdata, ok, snapshot, loadFromDisk]
                      | true =>
                          let snap : DigestSnapshot := ⟨digestMeta, digestData⟩
                          refine ⟨8, { s.setCall c (.returned (some snap)) with
                            cache := ⟨some snap, some mtime⟩
                            loadedFor := some mtime }, ?_⟩
                          simp [alone, Transition.exec, step, fresh, he, hm, hit, hd, parsed,
                            hdata, ok, snapshot, loadFromDisk, snap]
                          simp [setCall]

/-- Digests numbered by their `mtime`, the number in the meta and in their one event. -/
def numbered (d : DigestId) : DigestFiles where
  metaFile := some ⟨some d, some ⟨1, d.repr, []⟩⟩
  dataFile := some ⟨1, [⟨d.repr, "", "", none, none, none, none, none, none, none, none, none⟩]⟩

end DigestReload
end EvoclawPluginWechat
