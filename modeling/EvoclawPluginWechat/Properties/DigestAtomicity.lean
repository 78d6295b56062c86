import EvoclawPluginWechat.Properties.DigestSteps

/-!
Both files of a snapshot come from one digest, in every run in which `latest` is not
switched between a call's two reads.
-/
namespace EvoclawPluginWechat
namespace DigestReload
open DigestCache Transition

variable {cfg : DigestCfg} {digests : DigestId → DigestFiles} {s s' : DigestReload}

/-- A call reads the data of the digest it has read the meta of. -/
def readsTogether (s : DigestReload) (a : Act) : Prop :=
  ∀ c mtime digestMeta source, a = .readData c →
    s.calls c = some (.metaRead mtime digestMeta source) → s.latest = some source

/-- The snapshot is one of these digests. -/
def Whole (digests : DigestId → DigestFiles) (published : List DigestId)
    (snap : DigestSnapshot) : Prop :=
  ∃ d ∈ published, loadFromDisk (digests d) = some snap

/-- What a call holds comes from one published digest. -/
def Untorn (digests : DigestId → DigestFiles) (published : List DigestId) :
    SnapshotCall → Prop
  | .metaRead _ digestMeta source => source ∈ published ∧
      (digests source).metaFile.bind MetaFile.parsed = some digestMeta
  | .loaded _ snap | .admitted _ snap | .storing _ snap | .returned (some snap) =>
      Whole digests published snap
  | _ => True

structure AllUntorn (digests : DigestId → DigestFiles) (s : DigestReload) : Prop where
  latest : ∀ d, s.latest = some d → d ∈ s.published
  inner : ∀ snap, s.cache.inner = some snap → Whole digests s.published snap
  calls : ∀ c call, s.calls c = some call → Untorn digests s.published call

theorem allUntorn_new (now : Int) : AllUntorn digests (new now) where
  latest _ h := by cases h
  inner _ h := by cases h
  calls _ _ h := by cases h

theorem Whole.mono {published published' : List DigestId} {snap : DigestSnapshot}
    (sub : published ⊆ published') (h : Whole digests published snap) :
    Whole digests published' snap := by
  obtain ⟨d, hd, loaded⟩ := h
  exact ⟨d, sub hd, loaded⟩

theorem Untorn.mono {published published' : List DigestId} {call : SnapshotCall}
    (sub : published ⊆ published') (h : Untorn digests published call) :
    Untorn digests published' call := by
  cases call with
  | started | statted _ | missed _ => trivial
  | metaRead _ _ _ => exact ⟨sub h.1, h.2⟩
  | loaded _ _ | admitted _ _ | storing _ _ => exact Whole.mono sub h
  | returned result =>
      cases result with
      | none => trivial
      | some snap => exact Whole.mono sub h

theorem AllUntorn.setCall (hs : AllUntorn digests s) {c : CallId} {call : SnapshotCall}
    (h : Untorn digests s.published call) : AllUntorn digests (s.setCall c call) := by
  refine ⟨hs.latest, hs.inner, fun c' call' hc => ?_⟩
  rw [setCall_calls] at hc
  split at hc
  · obtain rfl := Option.some.inj hc
    exact h
  · exact hs.calls c' call' hc

theorem allUntorn_move {a : Act} (hs : AllUntorn digests s) (together : readsTogether s a)
    (m : Move cfg digests s a s') : AllUntorn digests s' := by
  cases m with
  | publish d =>
      have sub : s.published ⊆ d :: s.published := List.subset_cons_self _ _
      refine ⟨fun e he => ?_, fun snap h => (hs.inner snap h).mono sub,
        fun c call hc => (hs.calls c call hc).mono sub⟩
      obtain rfl := Option.some.inj he
      exact List.mem_cons_self
  | tick d => exact ⟨hs.latest, hs.inner, hs.calls⟩
  | call _ begins =>
      obtain rfl | rfl := begins
      · exact hs.setCall trivial
      · exact hs.setCall trivial
  | quit _ _ _ _ | stat _ _ | miss _ _ => exact hs.setCall trivial
  | @hit c mtime snap _ _ inner =>
      have whole : Whole digests s.published snap := hs.inner _ inner
      exact hs.setCall whole
  | readMeta _ hd parsed => exact hs.setCall ⟨hs.latest _ hd, parsed⟩
  | @readData c mtime d source digestMeta digestData hc hd hdata =>
      obtain ⟨_, parsed⟩ := hs.calls c _ hc
      have same := together c mtime digestMeta source rfl hc
      obtain rfl := Option.some.inj (hd.symm.trans same)
      exact hs.setCall ⟨d, hs.latest d hd, loadFromDisk_eq_some.mpr ⟨parsed, hdata⟩⟩
  | @pass c mtime snap hc _ =>
      have kept : Untorn digests s.published (.admitted mtime snap) :=
        hs.calls c (.loaded mtime snap) hc
      exact hs.setCall kept
  | @storeMtime c mtime snap hc =>
      have kept : Untorn digests s.published (.storing mtime snap) :=
        hs.calls c (.admitted mtime snap) hc
      have next : AllUntorn digests (s.setCall c (.storing mtime snap)) := hs.setCall kept
      exact ⟨next.latest, next.inner, next.calls⟩
  | @storeInner c mtime snap hc =>
      have whole : Whole digests s.published snap := hs.calls c _ hc
      have next : AllUntorn digests (s.setCall c (.returned (some snap))) := hs.setCall whole
      refine ⟨next.latest, fun snap' h => ?_, next.calls⟩
      obtain rfl := Option.some.inj h
      exact whole

/-- Every snapshot that is returned is one of the published digests. -/
theorem snapshot_untorn
    (h : Reachable (step cfg digests) readsTogether (fun s => ∃ now, s = new now) s)
    {c : CallId} {snap : DigestSnapshot} (returned : s.calls c = some (.returned (some snap))) :
    ∃ d ∈ s.published, loadFromDisk (digests d) = some snap := by
  have all : AllUntorn digests s := by
    refine h.invariant (fun s starts => ?_) fun s a t hs together hstep => ?_
    · obtain ⟨now, rfl⟩ := starts
      exact allUntorn_new now
    · exact allUntorn_move hs together (move_of_step hstep)
  exact all.calls c _ returned

/-- A switch before a call and another one after its reads. -/
theorem snapshot_untorn_switched : ∃ s c snap,
    Reachable (step ⟨true, 3600⟩ numbered) readsTogether (fun s => ∃ now, s = new now) s ∧
      s.latest = some 1 ∧ s.calls c = some (.returned (some snap)) ∧
      ∃ d ∈ s.published, loadFromDisk (numbered d) = some snap := by
  let before : List Act := [.publish 0, .call 0, .stat 0, .testCache 0, .readMeta 0]
  let after : List Act := [.publish 1, .check 0, .storeMtime 0, .storeInner 0]
  obtain ⟨s₁, s₂, s, snap, first, latest, reads, rest, switched, returned⟩ : ∃ s₁ s₂ s snap,
      exec (step ⟨true, 3600⟩ numbered) (new 0) before = some s₁ ∧
      (∀ mtime digestMeta source, s₁.calls 0 = some (.metaRead mtime digestMeta source) →
        s₁.latest = some source) ∧
      step ⟨true, 3600⟩ numbered s₁ (.readData 0) = some s₂ ∧
      exec (step ⟨true, 3600⟩ numbered) s₂ after = some s ∧
      s.latest = some 1 ∧ s.calls 0 = some (.returned (some snap)) :=
    ⟨_, _, _, _, rfl, fun _ _ _ h => by cases h; rfl, rfl, rfl, rfl, rfl⟩
  have reached :
      Reachable (step ⟨true, 3600⟩ numbered) readsTogether (fun s => ∃ now, s = new now) s := by
    refine ⟨new 0, _, ⟨0, rfl⟩, ((run_iff_exec.mpr first).guard fun a ha s => ?_).append
      (.cons ?_ reads ((run_iff_exec.mpr rest).guard fun a ha s => ?_))⟩
    · rintro c mtime digestMeta source rfl
      simp [before] at ha
    · rintro c mtime digestMeta source ⟨rfl⟩
      exact latest mtime digestMeta source
    · rintro c mtime digestMeta source rfl
      simp [after] at ha
  exact ⟨s, 0, snap, reached, switched, returned, snapshot_untorn reached returned⟩

/-- `latest` is switched between the two reads: the meta of one digest, the data of the
next. -/
theorem snapshot_torn : ∃ s c snap,
    Reachable (step ⟨true, 3600⟩ numbered) anyStep (fun s => ∃ now, s = new now) s ∧
      s.calls c = some (.returned (some snap)) ∧
      ¬ ∃ d ∈ s.published, loadFromDisk (numbered d) = some snap := by
  obtain ⟨s, snap, run, published, returned, digestMeta, digestData⟩ : ∃ s snap,
      exec (step ⟨true, 3600⟩ numbered) (new 0) [.publish 0, .call 0, .stat 0, .testCache 0,
        .readMeta 0, .publish 1, .readData 0, .check 0, .storeMtime 0, .storeInner 0] = some s ∧
      s.published = [1, 0] ∧ s.calls 0 = some (.returned (some snap)) ∧
      snap.digestMeta.generatedAt = "0" ∧ snap.digestData.events.map Event.id = ["1"] :=
    ⟨_, _, rfl, rfl, rfl, rfl, rfl⟩
  refine ⟨s, 0, snap, ⟨new 0, _, ⟨0, rfl⟩, run_iff_exec.mpr run⟩, returned, ?_⟩
  rintro ⟨d, hd, loaded⟩
  obtain rfl := Option.some.inj loaded
  rw [published] at hd
  simp only [List.mem_cons, List.not_mem_nil, or_false] at hd
  obtain rfl | rfl := hd
  · revert digestMeta
    decide
  · revert digestData
    decide

end DigestReload
end EvoclawPluginWechat
