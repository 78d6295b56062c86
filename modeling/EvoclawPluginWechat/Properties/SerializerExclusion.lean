import EvoclawPluginWechat.Properties.SerializerLinks

/-!
Mutual exclusion for each conversation. Tasks never see two mutexes of one
conversation, because `gc` evicts an entry only when nothing but the map refers
to its mutex.
-/
namespace EvoclawPluginWechat

theorem Sweep.cutoff_add (sw : Sweep) : sw.cutoff + sw.idleThreshold = sw.startedAt := by
  rw [← (Instant.sub_eq_some.mp sw.cutoff_eq).2]
  exact Int.sub_add_cancel _ _

namespace ConvSerializer
open Transition

theorem Linked.same_mutex {s : ConvSerializer} (h : Linked s) {t t' : TaskId} {k k' : Handle}
    (hk : s.handles.lookup t = some k) (hk' : s.handles.lookup t' = some k')
    (hc : k.cid = k'.cid) : k.lock = k'.lock := by
  obtain ⟨e, he, hlock⟩ := h.current t k hk
  obtain ⟨e', he', hlock'⟩ := h.current t' k' hk'
  rw [hc, he'] at he
  cases he
  exact hlock.symm.trans hlock'

theorem Linked.inside_unique {s : ConvSerializer} (h : Linked s) {t t' : TaskId}
    {cid : String} (ht : s.Inside t cid) (ht' : s.Inside t' cid) : t = t' := by
  obtain ⟨m, hk⟩ := ht
  obtain ⟨m', hk'⟩ := ht'
  have same : m = m' := h.same_mutex hk hk' rfl
  subst same
  have mine := (h.owned m t).mpr ⟨cid, hk⟩
  have other := (h.owned m t').mpr ⟨cid, hk'⟩
  exact Option.some.inj (mine.symm.trans other)

/-- Only a sweep removes an entry, and only the entry it looks at. -/
theorem evicts_only_by_visit {s s' : ConvSerializer} {a : Act} {cid : String} {e : Entry}
    (hs : s.step a = some s') (before : s.locks.lookup cid = some e)
    (after : s'.locks.lookup cid = none) : s.gcVisit cid = some s' := by
  have kept : s'.locks = s.locks → s.gcVisit cid = some s' := by
    intro same
    rw [same, before] at after
    cases after
  cases a with
  | acquire t c now =>
      simp only [step, acquire] at hs
      split at hs
      · split at hs
        · cases hs
          exact absurd before (Table.lookup_of_insert_eq_none after _)
        · cases hs
          exact absurd before (Table.lookup_of_insert_eq_none after _)
      · cases hs
  | lockOwned t =>
      simp only [step, lockOwned] at hs
      split at hs
      · cases hs; exact kept rfl
      · cases hs
  | grant t =>
      simp only [step, grant] at hs
      split at hs
      · split at hs
        · cases hs; exact kept rfl
        · cases hs
      · cases hs
  | release t =>
      simp only [step, release] at hs
      split at hs
      · cases hs; exact kept rfl
      · cases hs
  | gcBegin idle now =>
      simp only [step, gcBegin] at hs
      split at hs
      · split at hs
        · cases hs; exact kept rfl
        · cases hs; exact kept rfl
      · cases hs
  | gcVisit c =>
      obtain ⟨sw, e', sw', hsw, he', stays | ⟨_, _, goes⟩⟩ := gcVisit_cases hs
      · exact kept (by rw [stays])
      · by_cases hc : cid = c
        · rw [hc]; exact hs
        · have stays : s'.locks.lookup cid = some e := by
            rw [goes]
            exact Table.lookup_erase_eq_some.mpr ⟨hc, before⟩
          cases after.symm.trans stays
  | gcEnd =>
      simp only [step, gcEnd] at hs
      split at hs
      · split at hs
        · cases hs; exact kept rfl
        · cases hs
      · cases hs

/-- However acquisitions, hand-overs, drops, cancellations and sweeps interleave:
two handles of one conversation refer to one mutex, at most one task is inside its
critical section, and an entry disappears only when no handle refers to its mutex
and nobody asked for it within the idle threshold of the sweep. -/
theorem exclusion_survives_gc {s : ConvSerializer} (h : Reachable step anyStep (· = new) s) :
    (∀ t t' k k', s.handles.lookup t = some k → s.handles.lookup t' = some k' →
      k.cid = k'.cid → k.lock = k'.lock) ∧
    (∀ t t' cid, s.Inside t cid → s.Inside t' cid → t = t') ∧
    (∀ a s' cid e, s.step a = some s' → s.locks.lookup cid = some e →
      s'.locks.lookup cid = none →
      (∀ t k, s.handles.lookup t = some k → k.lock ≠ e.lock) ∧
      ∃ sw, s.sweep = some sw ∧ e.lastSeen + sw.idleThreshold ≤ sw.startedAt) := by
  have linked := linked_reachable h
  refine ⟨fun t t' k k' => linked.same_mutex, fun t t' cid => linked.inside_unique, ?_⟩
  intro a s' cid e hs before after
  obtain ⟨sw, e', _, hsw, he', stays | ⟨one, old, _⟩⟩ :=
    gcVisit_cases (evicts_only_by_visit hs before after)
  · rw [stays, before] at after
    cases after
  · obtain rfl := Option.some.inj (before.symm.trans he')
    refine ⟨linked.no_handle before one, sw, hsw, ?_⟩
    rw [← sw.cutoff_add]
    exact Int.add_le_add_right old _

/-- Two fans' messages and a sweep of threshold zero between them: the first task is
inside, the idle conversation is evicted, the busy one is kept. -/
theorem exclusion_survives_gc_run :
    ∃ s, Reachable step anyStep (· = new) s ∧ s.Inside 0 "wx-a-fan" ∧
      s.locks.lookup "wx-a-idle" = none ∧
      (∀ t t' cid, s.Inside t cid → s.Inside t' cid → t = t') := by
  have run := run_iff_exec.mpr (rfl : exec step new
    [.acquire 0 "wx-a-fan" 5, .lockOwned 0, .grant 0, .acquire 1 "wx-a-idle" 6, .release 1,
      .gcBegin 0 7, .gcVisit "wx-a-fan", .gcVisit "wx-a-idle", .gcEnd] = some _)
  have start : Reachable step anyStep (· = new) new := Reachable.start rfl
  have reach := start.run run
  exact ⟨_, reach, ⟨0, by decide⟩, by decide, (exclusion_survives_gc reach).2.1⟩

end ConvSerializer
end EvoclawPluginWechat
