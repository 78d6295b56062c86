import EvoclawPluginWechat.Core.ConvSerializer
import EvoclawPluginWechat.Library.Runs

/-!
The invariant of the conversation serializer: how the map, the reference counts,
the mutex owners and the task handles hang together. Every action keeps it, a
sweep caught between two entries included.
-/
namespace EvoclawPluginWechat
namespace ConvSerializer
open Transition

/-- The handle refers to the mutex. -/
def uses (m : MutexId) (k : Handle) : Bool := k.lock == m

structure Linked (s : ConvSerializer) : Prop where
  /-- An outstanding handle refers to the mutex the map holds for its conversation. -/
  current : ∀ t k, s.handles.lookup t = some k →
    ∃ e, s.locks.lookup k.cid = some e ∧ e.lock = k.lock
  /-- A mutex in the map is counted once for the map and once for each handle. -/
  counted : ∀ cid e, s.locks.lookup cid = some e →
    s.strongCount e.lock = 1 + Table.count (uses e.lock) s.handles
  separate : ∀ cid cid' e e', s.locks.lookup cid = some e → s.locks.lookup cid' = some e' →
    e.lock = e'.lock → cid = cid'
  allocated : ∀ cid e, s.locks.lookup cid = some e → e.lock < s.nextMutex
  /-- The owner of a mutex is the task whose handle is the guard. -/
  owned : ∀ m t, s.owner m = some t ↔
    ∃ cid, s.handles.lookup t = some ⟨cid, m, .inside⟩

theorem linked_new : Linked new where
  current t k h := by simp [new] at h
  counted cid e h := by simp [new] at h
  separate cid cid' e e' h := by simp [new] at h
  allocated cid e h := by simp [new] at h
  owned m t := by simp [new]

theorem Linked.no_handle {s : ConvSerializer} (h : Linked s) {cid : String} {e : Entry}
    (he : s.locks.lookup cid = some e) (one : ¬ s.strongCount e.lock > 1) (t : TaskId)
    (k : Handle) (hk : s.handles.lookup t = some k) : k.lock ≠ e.lock := by
  intro same
  have pos : 0 < Table.count (uses e.lock) s.handles :=
    (Table.count_pos_iff _).mpr ⟨t, k, hk, by simp [uses, same]⟩
  have := h.counted cid e he
  omega

/-- The entry of the conversation is stamped, found or made, and a task gets a handle to
its mutex. -/
def handOut (s : ConvSerializer) (t : TaskId) (cid : String) (now : Int) (m : MutexId)
    (next count : Nat) : ConvSerializer :=
  { s with
    locks := s.locks.insert cid ⟨m, now⟩
    strongCount := Function.update s.strongCount m count
    nextMutex := next
    handles := s.handles.insert t ⟨cid, m, .returned⟩ }

theorem Linked.handOut {s : ConvSerializer} (h : Linked s) {t : TaskId} {cid : String} {now : Int}
    {m : MutexId} {next count : Nat} (fresh : s.handles.lookup t = none)
    (unique : ∀ c e, s.locks.lookup c = some e → (e.lock = m ↔ c = cid)) (hm : m < next)
    (hnext : s.nextMutex ≤ next) (hcount : count = 2 + Table.count (uses m) s.handles) :
    Linked (s.handOut t cid now m next count) := by
  refine ⟨fun t' k hk => ?_, fun c e he => ?_, fun c c' e e' he he' same => ?_,
    fun c e he => ?_, fun m' t' => ?_⟩
  · change ∃ e, (s.locks.insert cid ⟨m, now⟩).lookup k.cid = some e ∧ e.lock = k.lock
    obtain ⟨_, rfl⟩ | ⟨_, old⟩ := Table.lookup_insert_eq_some.mp hk
    · exact ⟨_, Table.lookup_insert_eq_some.mpr (.inl ⟨rfl, rfl⟩), rfl⟩
    · obtain ⟨e, he, hlock⟩ := h.current t' k old
      by_cases hc : k.cid = cid
      · refine ⟨_, Table.lookup_insert_eq_some.mpr (.inl ⟨hc, rfl⟩), ?_⟩
        exact ((unique _ _ he).mpr hc).symm.trans hlock
      · exact ⟨e, Table.lookup_insert_eq_some.mpr (.inr ⟨hc, he⟩), hlock⟩
  · change Function.update s.strongCount m count e.lock =
      1 + Table.count (uses e.lock) (s.handles.insert t ⟨cid, m, .returned⟩)
    rw [Table.count_insert_new _ _ fresh]
    obtain ⟨_, rfl⟩ | ⟨hc, old⟩ := Table.lookup_insert_eq_some.mp he
    · simp only [Function.update_self, uses, beq_self_eq_true, if_true, hcount]
      omega
    · have hne : e.lock ≠ m := fun hm => hc ((unique c e old).mp hm)
      simp [Function.update_of_ne hne, h.counted c e old, uses, Ne.symm hne]
  · obtain ⟨hc, rfl⟩ | ⟨hc, old⟩ := Table.lookup_insert_eq_some.mp he
    · obtain ⟨hc', _⟩ | ⟨hc', old'⟩ := Table.lookup_insert_eq_some.mp he'
      · rw [hc, hc']
      · exact absurd ((unique c' e' old').mp same.symm) hc'
    · obtain ⟨hc', rfl⟩ | ⟨hc', old'⟩ := Table.lookup_insert_eq_some.mp he'
      · exact absurd ((unique c e old).mp same) hc
      · exact h.separate c c' e e' old old' same
  · obtain ⟨_, rfl⟩ | ⟨_, old⟩ := Table.lookup_insert_eq_some.mp he
    · exact hm
    · exact Nat.lt_of_lt_of_le (h.allocated c e old) hnext
  · change s.owner m' = some t' ↔
      ∃ c, (s.handles.insert t ⟨cid, m, .returned⟩).lookup t' = some ⟨c, m', .inside⟩
    rw [h.owned m' t', Table.lookup_insert_eq]
    by_cases ht : t' = t
    · subst ht
      simp [fresh]
    · simp [ht]

theorem linked_acquire {s s' : ConvSerializer} (h : Linked s) (t : TaskId) (cid : String)
    (now : Int) (hs : s.acquire t cid now = some s') : Linked s' := by
  simp only [acquire, Option.ite_none_right_eq_some, Bool.and_eq_true, Option.isNone_iff_eq_none]
    at hs
  obtain ⟨⟨_, fresh⟩, hs⟩ := hs
  split at hs
  · next e he =>
      obtain rfl : s.handOut t cid now e.lock s.nextMutex (s.strongCount e.lock + 1) = s' :=
        Option.some.inj hs
      refine h.handOut fresh (fun c e' he' => ?_) (h.allocated cid e he) (Nat.le_refl _) ?_
      · refine ⟨fun same => h.separate c cid e' e he' he same, fun hc => ?_⟩
        subst hc
        rw [Option.some.inj (he'.symm.trans he)]
      · rw [h.counted cid e he]
        omega
  · next he =>
      obtain rfl : s.handOut t cid now s.nextMutex (s.nextMutex + 1) 2 = s' := Option.some.inj hs
      have unused : Table.count (uses s.nextMutex) s.handles = 0 := by
        by_contra pos
        obtain ⟨t', k, hk, hu⟩ := (Table.count_pos_iff _).mp (Nat.pos_of_ne_zero pos)
        obtain ⟨e, he', hlock⟩ := h.current t' k hk
        have below := h.allocated k.cid e he'
        rw [hlock, eq_of_beq hu] at below
        exact Nat.lt_irrefl _ below
      refine h.handOut fresh (fun c e' he' => ?_) (Nat.lt_succ_self _) (Nat.le_succ _) ?_
      · refine ⟨fun same => ?_, fun hc => ?_⟩
        · have below := h.allocated c e' he'
          rw [same] at below
          exact absurd below (Nat.lt_irrefl _)
        · rw [hc, he] at he'
          cases he'
      · rw [unused]

theorem count_rehold {s : ConvSerializer} {t : TaskId} {cid : String} {m : MutexId}
    {hold : Hold} (hold' : Hold) (m' : MutexId)
    (hk : s.handles.lookup t = some ⟨cid, m, hold⟩) :
    Table.count (uses m') (s.handles.insert t ⟨cid, m, hold'⟩) =
      Table.count (uses m') s.handles := by
  have := Table.count_insert_old (uses m') (⟨cid, m, hold'⟩ : Handle) hk
  have same : uses m' ⟨cid, m, hold⟩ = uses m' ⟨cid, m, hold'⟩ := rfl
  rw [same] at this
  omega

theorem linked_rehold {s : ConvSerializer} (h : Linked s) {t : TaskId} {cid : String}
    {m : MutexId} {hold : Hold} (hold' : Hold) (owner' : MutexId → Option TaskId)
    (hk : s.handles.lookup t = some ⟨cid, m, hold⟩)
    (howner : ∀ m' t', owner' m' = some t' ↔
      ∃ c, (s.handles.insert t ⟨cid, m, hold'⟩).lookup t' = some ⟨c, m', .inside⟩) :
    Linked { s with owner := owner', handles := s.handles.insert t ⟨cid, m, hold'⟩ } where
  current t' k hk' := by
    obtain ⟨_, rfl⟩ | ⟨_, old⟩ := Table.lookup_insert_eq_some.mp hk'
    · exact h.current t ⟨cid, m, hold⟩ hk
    · exact h.current t' k old
  counted c e he := by
    rw [count_rehold hold' e.lock hk]
    exact h.counted c e he
  separate := h.separate
  allocated := h.allocated
  owned := howner

theorem linked_lockOwned {s s' : ConvSerializer} (h : Linked s) (t : TaskId)
    (hs : s.lockOwned t = some s') : Linked s' := by
  unfold lockOwned at hs
  split at hs
  · next cid m hk =>
      cases hs
      refine linked_rehold h .waiting s.owner hk ?_
      intro m' t'
      rw [h.owned m' t', Table.lookup_insert_eq]
      by_cases ht : t' = t
      · subst ht
        simp [hk]
      · simp [ht]
  · cases hs

theorem linked_grant {s s' : ConvSerializer} (h : Linked s) (t : TaskId)
    (hs : s.grant t = some s') : Linked s' := by
  unfold grant at hs
  split at hs
  · next cid m hk =>
      split at hs
      · next free =>
          cases hs
          refine linked_rehold h .inside _ hk ?_
          intro m' t'
          rw [Table.lookup_insert_eq]
          by_cases hm : m' = m
          · subst hm
            rw [Function.update_self]
            by_cases ht : t' = t
            · simp [ht]
            · have := h.owned m' t'
              simp [ht, free, Ne.symm ht] at this ⊢
              exact this
          · rw [Function.update_of_ne hm, h.owned m' t']
            by_cases ht : t' = t
            · subst ht
              simp [hk, Ne.symm hm]
            · simp [ht]
      · cases hs
  · cases hs

theorem linked_release {s s' : ConvSerializer} (h : Linked s) (t : TaskId)
    (hs : s.release t = some s') : Linked s' := by
  unfold release at hs
  split at hs
  · next cid m hold hk =>
      cases hs
      refine ⟨?_, ?_, h.separate, h.allocated, ?_⟩
      · intro t' k hk'
        exact h.current t' k (Table.lookup_erase_eq_some.mp hk').2
      · intro c e he
        have hcount := h.counted c e he
        rw [Table.count_erase (uses e.lock) hk] at hcount
        by_cases hm : e.lock = m
        · simp only [hm, uses, beq_self_eq_true, if_true] at hcount ⊢
          rw [Function.update_self]
          omega
        · simp only [uses, beq_iff_eq, Ne.symm hm, if_false] at hcount ⊢
          rw [Function.update_of_ne hm]
          omega
      · intro m' t'
        have old := h.owned m' t'
        simp only [Table.lookup_erase_eq]
        by_cases ht : t' = t
        · subst ht
          simp only [if_true, reduceCtorEq, exists_false, iff_false]
          by_cases hi : hold = .inside
          · by_cases hm : m' = m
            · simp [hi, hm]
            · simp [hi, Function.update_of_ne hm, old, hk, Ne.symm hm]
          · simp [hi, old, hk]
        · simp only [ht, if_false]
          by_cases hi : hold = .inside
          · by_cases hm : m' = m
            · subst hi hm
              have mine := (h.owned m' t).mpr ⟨cid, hk⟩
              simp only [if_true, Function.update_self, reduceCtorEq, false_iff]
              intro other
              exact ht (Option.some.inj ((old.mpr other).symm.trans mine))
            · simpa [hi, Function.update_of_ne hm] using old
          · simpa [hi] using old
  · cases hs

theorem Linked.withSweep {s : ConvSerializer} (h : Linked s) (sw : Option Sweep) (b : Bool) :
    Linked { s with sweep := sw, poisoned := b } :=
  ⟨h.current, h.counted, h.separate, h.allocated, h.owned⟩

theorem linked_gcBegin {s s' : ConvSerializer} (h : Linked s) (idle : Nat) (now : Int)
    (hs : s.gcBegin idle now = some s') : Linked s' := by
  unfold gcBegin at hs
  split at hs
  · split at hs
    · cases hs
      exact h.withSweep _ s.poisoned
    · cases hs
      exact h.withSweep s.sweep true
  · cases hs

theorem linked_gcEnd {s s' : ConvSerializer} (h : Linked s) (hs : s.gcEnd = some s') :
    Linked s' := by
  unfold gcEnd at hs
  split at hs
  · split at hs
    · cases hs
      exact h.withSweep none s.poisoned
    · cases hs
  · cases hs

theorem Linked.evict {s : ConvSerializer} (h : Linked s) {cid : String} {e : Entry}
    (he : s.locks.lookup cid = some e)
    (unused : ∀ t k, s.handles.lookup t = some k → k.lock ≠ e.lock) :
    Linked { s with
      locks := s.locks.erase cid
      strongCount := Function.update s.strongCount e.lock (s.strongCount e.lock - 1) } := by
  refine ⟨?_, ?_, ?_, ?_, h.owned⟩
  · intro t k hk
    obtain ⟨e', he', hlock⟩ := h.current t k hk
    refine ⟨e', Table.lookup_erase_eq_some.mpr ⟨fun hc => ?_, he'⟩, hlock⟩
    rw [hc, he] at he'
    cases he'
    exact unused t k hk hlock.symm
  · intro c e' he'
    obtain ⟨hc, he'⟩ := Table.lookup_erase_eq_some.mp he'
    have hne : e'.lock ≠ e.lock := fun same => hc (h.separate c cid e' e he' he same)
    exact (Function.update_of_ne hne _ _).trans (h.counted c e' he')
  · intro c c' e₁ e₂ h₁ h₂
    exact h.separate c c' e₁ e₂ (Table.lookup_erase_eq_some.mp h₁).2
      (Table.lookup_erase_eq_some.mp h₂).2
  · intro c e' he'
    exact h.allocated c e' (Table.lookup_erase_eq_some.mp he').2

theorem gcVisit_eq_some {s s' : ConvSerializer} {cid : String} (hs : s.gcVisit cid = some s') :
    ∃ sw e, s.sweep = some sw ∧ s.locks.lookup cid = some e ∧
      (s.keeps sw.cutoff e = true ∧
          s' = { s with sweep := some { sw with todo := sw.todo.erase cid } } ∨
        s.keeps sw.cutoff e = false ∧
          s' = { s with
            sweep := some { sw with todo := sw.todo.erase cid }
            locks := s.locks.erase cid
            strongCount := Function.update s.strongCount e.lock (s.strongCount e.lock - 1) }) := by
  unfold gcVisit at hs
  split at hs
  · next sw e hsw he =>
      split at hs
      · dsimp only at hs
        split at hs
        · next keep => exact ⟨sw, e, hsw, he, .inl ⟨keep, (Option.some.inj hs).symm⟩⟩
        · next drop =>
            exact ⟨sw, e, hsw, he,
              .inr ⟨Bool.eq_false_iff.mpr drop, (Option.some.inj hs).symm⟩⟩
      · cases hs
  · cases hs

/-- What looking at one entry does: either it stays, or it goes, and then only the
map referred to its mutex and nobody had asked for it since the cutoff. -/
theorem gcVisit_cases {s s' : ConvSerializer} {cid : String} (hs : s.gcVisit cid = some s') :
    ∃ sw e sw', s.sweep = some sw ∧ s.locks.lookup cid = some e ∧
      (s' = { s with sweep := some sw' } ∨
        ¬ s.strongCount e.lock > 1 ∧ e.lastSeen ≤ sw.cutoff ∧
        s' = { s with
          sweep := some sw'
          locks := s.locks.erase cid
          strongCount := Function.update s.strongCount e.lock (s.strongCount e.lock - 1) }) := by
  obtain ⟨sw, e, hsw, he, ⟨_, stays⟩ | ⟨drop, goes⟩⟩ := gcVisit_eq_some hs
  · exact ⟨sw, e, _, hsw, he, .inl stays⟩
  · simp only [keeps, Bool.or_eq_false_iff, decide_eq_false_iff_not] at drop
    exact ⟨sw, e, _, hsw, he, .inr ⟨drop.1, Int.not_lt.mp drop.2, goes⟩⟩

theorem linked_gcVisit {s s' : ConvSerializer} (h : Linked s) (cid : String)
    (hs : s.gcVisit cid = some s') : Linked s' := by
  obtain ⟨sw, e, sw', _, he, stays | ⟨one, _, goes⟩⟩ := gcVisit_cases hs
  · rw [stays]
    exact h.withSweep _ s.poisoned
  · rw [goes]
    exact (h.evict he (h.no_handle he one)).withSweep _ s.poisoned

theorem linked_step {s s' : ConvSerializer} (h : Linked s) (a : Act)
    (hs : s.step a = some s') : Linked s' := by
  cases a with
  | acquire t cid now => exact linked_acquire h t cid now hs
  | lockOwned t => exact linked_lockOwned h t hs
  | grant t => exact linked_grant h t hs
  | release t => exact linked_release h t hs
  | gcBegin idle now => exact linked_gcBegin h idle now hs
  | gcVisit cid => exact linked_gcVisit h cid hs
  | gcEnd => exact linked_gcEnd h hs

/-- What a step does to the handles of the tasks. -/
inductive HandleMove (s : ConvSerializer) : Act → Table TaskId Handle → Prop
  | acquire {t : TaskId} {cid : String} {now : Int} {m : MutexId} :
      HandleMove s (.acquire t cid now) (s.handles.insert t ⟨cid, m, .returned⟩)
  | lockOwned {t : TaskId} {cid : String} {m : MutexId} :
      s.handles.lookup t = some ⟨cid, m, .returned⟩ →
      HandleMove s (.lockOwned t) (s.handles.insert t ⟨cid, m, .waiting⟩)
  | grant {t : TaskId} {cid : String} {m : MutexId} :
      s.handles.lookup t = some ⟨cid, m, .waiting⟩ →
      HandleMove s (.grant t) (s.handles.insert t ⟨cid, m, .inside⟩)
  | release {t : TaskId} : HandleMove s (.release t) (s.handles.erase t)
  | gcBegin {idleThreshold : Nat} {now : Int} : HandleMove s (.gcBegin idleThreshold now) s.handles
  | gcVisit {cid : String} : HandleMove s (.gcVisit cid) s.handles
  | gcEnd : HandleMove s .gcEnd s.handles

theorem handleMove_of_step {s s' : ConvSerializer} {a : Act} (h : s.step a = some s') :
    HandleMove s a s'.handles := by
  cases a with
  | acquire t cid now =>
      simp only [step, acquire] at h
      split at h
      · split at h
        · cases h; exact .acquire
        · cases h; exact .acquire
      · cases h
  | lockOwned t =>
      simp only [step, lockOwned] at h
      split at h
      · next hk => cases h; exact .lockOwned hk
      · cases h
  | grant t =>
      simp only [step, grant] at h
      split at h
      · next hk =>
          split at h
          · cases h; exact .grant hk
          · cases h
      · cases h
  | release t =>
      simp only [step, release] at h
      split at h
      · cases h; exact .release
      · cases h
  | gcBegin idle now =>
      simp only [step, gcBegin] at h
      split at h
      · split at h
        · cases h; exact .gcBegin
        · cases h; exact .gcBegin
      · cases h
  | gcVisit cid =>
      obtain ⟨_, _, _, _, _, stays | ⟨_, _, goes⟩⟩ := gcVisit_cases h
      · rw [stays]
        exact .gcVisit
      · rw [goes]
        exact .gcVisit
  | gcEnd =>
      simp only [step, gcEnd] at h
      split at h
      · split at h
        · cases h; exact .gcEnd
        · cases h
      · cases h

theorem handles_acquire {s s' : ConvSerializer} {t : TaskId} {cid : String} {now : Int}
    (h : s.step (.acquire t cid now) = some s') :
    ∃ m, s'.handles = s.handles.insert t ⟨cid, m, .returned⟩ := by
  have moved := handleMove_of_step h
  generalize s'.handles = after at moved
  cases moved with
  | acquire => exact ⟨_, rfl⟩

theorem handles_lockOwned {s s' : ConvSerializer} {t : TaskId} {cid : String} {m : MutexId}
    {hold : Hold} (h : s.step (.lockOwned t) = some s')
    (own : s.handles.lookup t = some ⟨cid, m, hold⟩) :
    s'.handles = s.handles.insert t ⟨cid, m, .waiting⟩ := by
  have moved := handleMove_of_step h
  generalize s'.handles = after at moved
  cases moved with
  | lockOwned hk =>
      cases own.symm.trans hk
      rfl

theorem handles_grant {s s' : ConvSerializer} {t : TaskId} {cid : String} {m : MutexId}
    {hold : Hold} (h : s.step (.grant t) = some s')
    (own : s.handles.lookup t = some ⟨cid, m, hold⟩) :
    s'.handles = s.handles.insert t ⟨cid, m, .inside⟩ := by
  have moved := handleMove_of_step h
  generalize s'.handles = after at moved
  cases moved with
  | grant hk =>
      cases own.symm.trans hk
      rfl

theorem handles_release {s s' : ConvSerializer} {t : TaskId}
    (h : s.step (.release t) = some s') : s'.handles = s.handles.erase t := by
  have moved := handleMove_of_step h
  generalize s'.handles = after at moved
  cases moved with
  | release => rfl

theorem linked_reachable {s : ConvSerializer}
    (h : Reachable step anyStep (· = new) s) : Linked s := by
  refine h.invariant ?_ ?_
  · intro s hs
    rw [hs]
    exact linked_new
  · intro s a s' hl _ hs
    exact linked_step hl a hs

end ConvSerializer
end EvoclawPluginWechat
