import Mathlib.Data.List.AList

/-!
Finite hash maps as association lists without duplicate keys. Mathlib's `AList`
supplies the map operations; this file adds the two that a long-lived table
needs, a sweep by a predicate and a count of the values of some kind, and says
how each map operation moves that count.
-/
universe u v

/-- A finite map whose values do not depend on the key. -/
abbrev Table (κ : Type u) (ν : Type v) := AList fun _ : κ => ν

namespace Table
variable {κ : Type u} {ν : Type v}

def retain (keep : κ → ν → Bool) (t : Table κ ν) : Table κ ν :=
  ⟨t.entries.filter fun e => keep e.1 e.2, t.nodupKeys.sublist List.filter_sublist⟩

def len (t : Table κ ν) : Nat := t.entries.length

/-- The number of entries whose value satisfies the predicate. -/
def count (p : ν → Bool) (t : Table κ ν) : Nat := t.entries.countP fun e => p e.2

variable [DecidableEq κ]

theorem mem_entries_iff {t : Table κ ν} {k : κ} {v : ν} :
    ⟨k, v⟩ ∈ t.entries ↔ t.lookup k = some v :=
  (List.mem_dlookup_iff t.nodupKeys).symm

theorem lookup_retain (keep : κ → ν → Bool) (t : Table κ ν) (k : κ) :
    (retain keep t).lookup k = (t.lookup k).filter (keep k) := by
  apply Option.ext
  intro v
  rw [← mem_entries_iff, Option.filter_eq_some_iff, ← mem_entries_iff]
  exact List.mem_filter

theorem lookup_retain_eq_some {keep : κ → ν → Bool} {t : Table κ ν} {k : κ} {v : ν} :
    (retain keep t).lookup k = some v ↔ t.lookup k = some v ∧ keep k v = true := by
  rw [lookup_retain, Option.filter_eq_some_iff]

theorem entries_perm_erase {t : Table κ ν} {k : κ} {v : ν} (h : t.lookup k = some v) :
    t.entries.Perm (⟨k, v⟩ :: (t.erase k).entries) := by
  have hk : k ∈ t.entries.keys := by
    rw [← List.dlookup_isSome]
    exact Option.isSome_iff_exists.mpr ⟨v, h⟩
  obtain ⟨w, l₁, l₂, hl₁, hl, he⟩ := List.exists_of_kerase hk
  have hw : w = v := by
    have : t.lookup k = some w := by
      rw [← mem_entries_iff, hl]
      simp
    exact Option.some.inj (this.symm.trans h)
  change t.entries.Perm (⟨k, v⟩ :: List.kerase k t.entries)
  rw [he, hl, hw]
  exact List.perm_middle

theorem count_erase {t : Table κ ν} {k : κ} {v : ν} (p : ν → Bool) (h : t.lookup k = some v) :
    count p t = count p (t.erase k) + if p v then 1 else 0 := by
  simp only [count, (entries_perm_erase h).countP_eq, List.countP_cons]

theorem count_insert_new {t : Table κ ν} {k : κ} (p : ν → Bool) (v : ν)
    (h : t.lookup k = none) :
    count p (t.insert k v) = count p t + if p v then 1 else 0 := by
  have hk : k ∉ t := AList.lookup_eq_none.mp h
  simp only [count, AList.entries_insert_of_notMem hk, List.countP_cons]

theorem count_insert_old {t : Table κ ν} {k : κ} {old : ν} (p : ν → Bool) (v : ν)
    (h : t.lookup k = some old) :
    count p (t.insert k v) + (if p old then 1 else 0) =
      count p t + if p v then 1 else 0 := by
  rw [count_erase p h]
  simp only [count, AList.entries_insert, List.countP_cons]
  change List.countP _ (t.erase k).entries + _ + _ = _
  omega

theorem count_pos_iff {t : Table κ ν} (p : ν → Bool) :
    0 < count p t ↔ ∃ k v, t.lookup k = some v ∧ p v = true := by
  rw [count, List.countP_pos_iff]
  constructor
  · rintro ⟨⟨k, v⟩, hmem, hp⟩
    exact ⟨k, v, mem_entries_iff.mp hmem, hp⟩
  · rintro ⟨k, v, hk, hp⟩
    exact ⟨⟨k, v⟩, mem_entries_iff.mpr hk, hp⟩

theorem eq_empty_iff {t : Table κ ν} : t = ∅ ↔ ∀ k, t.lookup k = none := by
  constructor
  · rintro rfl k
    exact AList.lookup_empty k
  · intro h
    apply AList.ext
    apply List.eq_nil_iff_forall_not_mem.mpr
    rintro ⟨k, v⟩ hmem
    rw [mem_entries_iff, h k] at hmem
    cases hmem

theorem lookup_insert_eq {t : Table κ ν} (k k' : κ) (v : ν) :
    (t.insert k v).lookup k' = if k' = k then some v else t.lookup k' := by
  split
  · next h => rw [h, AList.lookup_insert]
  · next h => exact AList.lookup_insert_ne h

theorem lookup_insert_eq_some {t : Table κ ν} {k k' : κ} {v v' : ν} :
    (t.insert k v).lookup k' = some v' ↔
      k' = k ∧ v = v' ∨ k' ≠ k ∧ t.lookup k' = some v' := by
  rw [lookup_insert_eq]
  by_cases same : k' = k
  · simp [same]
  · simp [same]

theorem lookup_of_insert_eq_none {t : Table κ ν} {k k' : κ} {v : ν}
    (h : (t.insert k v).lookup k' = none) (v' : ν) : t.lookup k' ≠ some v' := by
  rw [lookup_insert_eq] at h
  split at h
  · cases h
  · rw [h]
    exact fun same => by cases same

theorem lookup_erase_eq {t : Table κ ν} (k k' : κ) :
    (t.erase k).lookup k' = if k' = k then none else t.lookup k' := by
  split
  · next h => rw [h, AList.lookup_erase]
  · next h => exact AList.lookup_erase_ne h

theorem lookup_erase_eq_some {t : Table κ ν} {k k' : κ} {v : ν} :
    (t.erase k).lookup k' = some v ↔ k' ≠ k ∧ t.lookup k' = some v := by
  rw [lookup_erase_eq]
  by_cases same : k' = k
  · simp [same]
  · simp [same]

end Table
