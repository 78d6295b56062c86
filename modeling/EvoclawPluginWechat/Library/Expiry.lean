import EvoclawPluginWechat.Library.Table
import Mathlib.Data.List.Basic

/-!
Tables whose entries expire. An entry counts while its stamp lies after a cutoff that only
moves forward, so a table may be pruned at any time; what it stands for is the list of all
writes, newest first, of which a lookup finds the latest if that still counts.
-/
namespace Expiry
universe u v
variable {κ : Type u} {ν : Type v} [DecidableEq κ] {stamp : ν → Int} {cutoff later : Int}
  {log : List (κ × ν)} {t : Table κ ν}

/-- Drop the entries that no longer count. -/
def prune (stamp : ν → Int) (cutoff : Int) (t : Table κ ν) : Table κ ν :=
  Table.retain (fun _ v => decide (stamp v > cutoff)) t

/-- The latest write under the key, if it counts. -/
def latest (stamp : ν → Int) (cutoff : Int) (log : List (κ × ν)) (k : κ) : Option ν :=
  (log.lookup k).filter fun v => decide (stamp v > cutoff)

/-- From the cutoff on the table answers as the list of writes does. -/
def Represents (stamp : ν → Int) (cutoff : Int) (log : List (κ × ν)) (t : Table κ ν) : Prop :=
  ∀ later, cutoff ≤ later → ∀ k, (prune stamp later t).lookup k = latest stamp later log k

theorem lookup_prune (k : κ) :
    (prune stamp cutoff t).lookup k = (t.lookup k).filter fun v => decide (stamp v > cutoff) :=
  Table.lookup_retain _ _ _

theorem lookup_prune_prune (h : cutoff ≤ later) (k : κ) :
    (prune stamp later (prune stamp cutoff t)).lookup k = (prune stamp later t).lookup k := by
  simp only [lookup_prune, Option.filter_filter]
  congr 1
  funext v
  rw [← Bool.decide_and, decide_eq_decide]
  omega

theorem represents_empty (stamp : ν → Int) (cutoff : Int) :
    Represents stamp cutoff ([] : List (κ × ν)) ∅ := fun later _ k => by
  rw [lookup_prune, AList.lookup_empty]
  rfl

theorem Represents.mono (h : Represents stamp cutoff log t) (le : cutoff ≤ later) :
    Represents stamp later log t :=
  fun more hmore => h more (Int.le_trans le hmore)

theorem Represents.lookup (h : Represents stamp cutoff log t) (k : κ) :
    (prune stamp cutoff t).lookup k = latest stamp cutoff log k :=
  h cutoff (Int.le_refl cutoff) k

theorem Represents.prune (h : Represents stamp cutoff log t) :
    Represents stamp cutoff log (Expiry.prune stamp cutoff t) := fun later hlater k => by
  rw [lookup_prune_prune hlater, h later hlater k]

theorem Represents.insert (h : Represents stamp cutoff log t) (k : κ) (v : ν) :
    Represents stamp cutoff ((k, v) :: log) (AList.insert k v t) := fun later hlater k' => by
  rw [lookup_prune, Table.lookup_insert_eq, latest, List.lookup_cons]
  by_cases same : k' = k
  · rw [if_pos same, same, beq_self_eq_true]
  · have other : (k' == k) = false := beq_eq_false_iff_ne.mpr same
    rw [if_neg same, other, ← lookup_prune]
    exact h later hlater k'

theorem latest_eq_some {k : κ} {v : ν} :
    latest stamp cutoff log k = some v ↔ log.lookup k = some v ∧ stamp v > cutoff := by
  rw [latest, Option.filter_eq_some_iff, decide_eq_true_eq]

section Last
variable {α : Type u} {P : α → Prop} {x y : α} {l : List α}

/-- The last element with the property. -/
def Last (P : α → Prop) (x : α) (l : List α) : Prop :=
  ∃ pre post, l = pre ++ x :: post ∧ P x ∧ ∀ y ∈ post, ¬ P y

theorem not_last_nil : ¬ Last P x [] := by
  rintro ⟨pre, post, split, _⟩
  simp at split

theorem last_concat_iff :
    Last P x (l ++ [y]) ↔ (P y ∧ x = y) ∨ (¬ P y ∧ Last P x l) := by
  constructor
  · rintro ⟨pre, post, split, hx, none⟩
    obtain rfl | ⟨post, z, rfl⟩ := List.eq_nil_or_concat' post
    · obtain ⟨rfl, same⟩ := List.append_inj' split rfl
      obtain rfl := (List.cons.inj same).1
      exact .inl ⟨hx, rfl⟩
    · rw [← List.cons_append, ← List.append_assoc] at split
      obtain ⟨rfl, same⟩ := List.append_inj' split rfl
      obtain rfl := (List.cons.inj same).1
      exact .inr ⟨none y (by simp), pre, post, rfl, hx, fun w hw => none w (by simp [hw])⟩
  · rintro (⟨hy, rfl⟩ | ⟨hy, pre, post, rfl, hx, none⟩)
    · exact ⟨l, [], rfl, hy, fun _ h => absurd h List.not_mem_nil⟩
    · refine ⟨pre, post ++ [y], by simp, hx, fun w hw => ?_⟩
      obtain old | new := List.mem_append.mp hw
      · exact none w old
      · rwa [List.mem_singleton.mp new]

end Last

end Expiry
