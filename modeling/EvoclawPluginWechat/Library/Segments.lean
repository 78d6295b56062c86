import EvoclawPluginWechat.Library.Pattern
import EvoclawPluginWechat.Library.Selection
import Mathlib.Data.List.Infix

/-!
Search in a sequence of texts between markup: a pattern that the markup does not hold is found
in the first text that holds it. What stands between two patterns in the whole sequence is
described by the texts they are found in.
-/
namespace Pattern
universe u
variable {α : Type u} {pat xs : List α}

/-- A text with the markup around it. -/
structure Segment (α : Type u) where
  head : List α
  text : List α
  tail : List α

def Segment.chars (s : Segment α) : List α := s.head ++ (s.text ++ s.tail)

def flatten (ss : List (Segment α)) : List α := ss.flatMap Segment.chars

theorem flatten_append (ss ts : List (Segment α)) :
    flatten (ss ++ ts) = flatten ss ++ flatten ts :=
  List.flatMap_append

theorem flatten_cons (s : Segment α) (ss : List (Segment α)) :
    flatten (s :: ss) = s.chars ++ flatten ss :=
  List.flatMap_cons

theorem drop_take_of_split {cs front inner back : List α} {a b : Nat}
    (split : cs = front ++ (inner ++ back)) (ha : front.length = a)
    (hb : a + inner.length = b) : (cs.take b).drop a = inner := by
  rw [split, ← hb, ← ha, List.drop_take, List.drop_left, Nat.add_sub_cancel_left, List.take_left]

variable [DecidableEq α]

/-- No occurrence begins in this part of a sequence. -/
def Skips (pat xs : List α) : Prop :=
  ∀ ys, find pat (xs ++ ys) = (find pat ys).map (· + xs.length)

theorem skips_nil (pat : List α) : Skips pat [] := by
  intro ys
  simp

theorem Skips.append {zs : List α} (hx : Skips pat xs) (hz : Skips pat zs) :
    Skips pat (xs ++ zs) := by
  intro ys
  rw [List.append_assoc, hx, hz, Option.map_map, List.length_append]
  congr 1
  funext i
  simp only [Function.comp_apply]
  omega

theorem find_singleton_of_append {stop : α} {ys : List α} {k : Nat}
    (h : find [stop] (xs ++ ys) = some k) (within : k < xs.length) : find [stop] xs = some k := by
  cases found : find [stop] xs with
  | some i => exact (find_append_of_some found ys).symm.trans h
  | none =>
      have bare : stop ∉ xs := fun mem =>
        find_eq_none.mp found ((List.singleton_infix_iff _ _).mpr mem)
      rw [find_append bare, Option.map_eq_some_iff] at h
      obtain ⟨i, _, rfl⟩ := h
      omega

theorem find_singleton_of_mem {stop : α} (h : stop ∈ xs) :
    ∃ k, find [stop] xs = some k ∧ k < xs.length := by
  obtain ⟨k, found⟩ := find_of_infix ((List.singleton_infix_iff _ _).mpr h)
  exact ⟨k, found, find_le found⟩

/-- An occurrence is in the text of the segment or after the segment. -/
structure Segment.Fits (pat : List α) (s : Segment α) : Prop where
  head : Skips pat s.head
  text : ∀ ys, find pat (s.text ++ (s.tail ++ ys)) =
    (find pat s.text).or ((find pat ys).map (· + (s.text.length + s.tail.length)))

section Find
variable {s : Segment α} {before after ss : List (Segment α)} {ys : List α} {i : Nat}

theorem Segment.Fits.find_some (h : s.Fits pat) (found : find pat s.text = some i) :
    find pat (s.chars ++ ys) = some (s.head.length + i) := by
  rw [Segment.chars, List.append_assoc, h.head, List.append_assoc, h.text, found, Option.some_or,
    Option.map_some, Nat.add_comm]

theorem Segment.Fits.skips (h : s.Fits pat) (absent : ¬ pat <:+: s.text) :
    Skips pat s.chars := by
  intro ys
  rw [Segment.chars, List.append_assoc, h.head, List.append_assoc, h.text,
    find_eq_none.mpr absent, Option.none_or, Option.map_map]
  congr 1
  funext i
  simp only [Function.comp_apply, List.length_append]
  omega

theorem skips_flatten (fits : ∀ s ∈ ss, s.Fits pat) (absent : ∀ s ∈ ss, ¬ pat <:+: s.text) :
    Skips pat (flatten ss) := by
  induction ss with
  | nil => exact skips_nil pat
  | cons s ss ih =>
      rw [List.forall_mem_cons] at fits absent
      rw [flatten_cons]
      exact (fits.1.skips absent.1).append (ih fits.2 absent.2)

theorem find_flatten_none (nonempty : pat ≠ []) (fits : ∀ s ∈ ss, s.Fits pat)
    (absent : ∀ s ∈ ss, ¬ pat <:+: s.text) : find pat (flatten ss) = none := by
  have nothing : find pat [] = none := if_neg nonempty
  have whole := skips_flatten fits absent []
  rwa [List.append_nil, nothing] at whole

theorem find_flatten_some (fits : ∀ g ∈ before ++ s :: after, g.Fits pat)
    (absent : ∀ g ∈ before, ¬ pat <:+: g.text) (found : find pat s.text = some i) :
    find pat (flatten (before ++ s :: after)) =
      some (((flatten before).length + s.head.length) + i) := by
  have front : Skips pat (flatten before) :=
    skips_flatten (fun g hg => fits g (List.mem_append_left _ hg)) absent
  rw [flatten_append, front, flatten_cons, (fits s (by simp)).find_some found, Option.map_some]
  congr 1
  omega

end Find

section Between
variable {opn cls : List α} {stop : α} {cs w : List α}

/-- What stands between the first opening pattern, up to the next `stop`, and the first
closing one. -/
def Between (opn cls : List α) (stop : α) (cs w : List α) : Prop :=
  ∃ i k j, find opn cs = some i ∧ find [stop] (cs.drop i) = some k ∧ find cls cs = some j ∧
    i + k + 1 ≤ j ∧ w = (cs.take j).drop (i + k + 1)

/-- The same in a sequence of texts. The two patterns are found in one text, or in two and
with the markup between them. -/
def Cut (opn cls : List α) (stop : α) (ss : List (Segment α)) (w : List α) : Prop :=
  ∃ before s after, ss = before ++ s :: after ∧
    (∀ g ∈ before, ¬ opn <:+: g.text ∧ ¬ cls <:+: g.text) ∧
    (Between opn cls stop s.text w ∨
      ∃ i k mid g rest j, find opn s.text = some i ∧ ¬ cls <:+: s.text ∧
        find [stop] ((s.text ++ s.tail).drop i) = some k ∧
        after = mid ++ g :: rest ∧ (∀ h ∈ mid, ¬ cls <:+: h.text) ∧ find cls g.text = some j ∧
        w = (s.text ++ s.tail).drop (i + k + 1) ++ (flatten mid ++ (g.head ++ g.text.take j)))

theorem between_unique {v : List α} (hv : Between opn cls stop cs v)
    (hw : Between opn cls stop cs w) : v = w := by
  obtain ⟨i, k, j, opened, stopped, closed, _, rfl⟩ := hv
  obtain ⟨i', k', j', opened', stopped', closed', _, rfl⟩ := hw
  obtain rfl := Option.some.inj (opened.symm.trans opened')
  obtain rfl := Option.some.inj (stopped.symm.trans stopped')
  obtain rfl := Option.some.inj (closed.symm.trans closed')
  rfl

section Segments
variable {before after : List (Segment α)} {s : Segment α}

omit [DecidableEq α] in
theorem flatten_drop {i : Nat} (within : i ≤ s.text.length) :
    (flatten (before ++ s :: after)).drop (((flatten before).length + s.head.length) + i) =
      (s.text ++ s.tail).drop i ++ flatten after := by
  have split : flatten (before ++ s :: after) =
      (flatten before ++ s.head) ++ ((s.text ++ s.tail) ++ flatten after) := by
    simp [flatten_append, flatten_cons, Segment.chars]
  rw [split, ← List.length_append, ← List.drop_drop, List.drop_left,
    List.drop_append_of_le_length (by simp only [List.length_append]; omega)]

variable (fits : ∀ g ∈ before ++ s :: after, g.Fits opn ∧ g.Fits cls)
  (unmarked : ∀ g ∈ before, ¬ opn <:+: g.text ∧ ¬ cls <:+: g.text)
include fits unmarked

theorem between_of_here : Between opn cls stop s.text w →
    Between opn cls stop (flatten (before ++ s :: after)) w := by
  rintro ⟨i, k, j, opened, stopped, closed, ordered, rfl⟩
  have opensWithin := Nat.le_of_add_right_le (find_le opened)
  have closesWithin := Nat.le_of_add_right_le (find_le closed)
  refine ⟨_, k, _, find_flatten_some (fun g hg => (fits g hg).1) (fun g hg => (unmarked g hg).1)
    opened, ?_, find_flatten_some (fun g hg => (fits g hg).2) (fun g hg => (unmarked g hg).2)
    closed, by omega, ?_⟩
  · rw [flatten_drop opensWithin, List.drop_append_of_le_length opensWithin, List.append_assoc]
    exact find_append_of_some stopped _
  · symm
    have cut : s.text = s.text.take (i + k + 1) ++
        ((s.text.take j).drop (i + k + 1) ++ s.text.drop j) := by
      rw [← List.append_assoc]
      conv_lhs => rw [← List.take_append_drop j s.text]
      congr 1
      conv_lhs => rw [← List.take_append_drop (i + k + 1) (s.text.take j)]
      rw [List.take_take, Nat.min_eq_left ordered]
    have split : flatten (before ++ s :: after) =
        ((flatten before ++ s.head) ++ s.text.take (i + k + 1)) ++
          ((s.text.take j).drop (i + k + 1) ++
            (s.text.drop j ++ (s.tail ++ flatten after))) := by
      rw [flatten_append, flatten_cons, Segment.chars]
      conv_lhs => rw [cut]
      simp
    refine drop_take_of_split split ?_ ?_
    · simp only [List.length_append, List.length_take]
      omega
    · simp only [List.length_drop, List.length_take]
      omega

theorem between_of_across {mid rest : List (Segment α)} {g : Segment α} {i k j : Nat}
    (opened : find opn s.text = some i) (absent : ¬ cls <:+: s.text)
    (stopped : find [stop] ((s.text ++ s.tail).drop i) = some k)
    (split : after = mid ++ g :: rest) (free : ∀ h ∈ mid, ¬ cls <:+: h.text)
    (closed : find cls g.text = some j) :
    Between opn cls stop (flatten (before ++ s :: after))
      ((s.text ++ s.tail).drop (i + k + 1) ++ (flatten mid ++ (g.head ++ g.text.take j))) := by
  have opensWithin := Nat.le_of_add_right_le (find_le opened)
  have closesWithin := Nat.le_of_add_right_le (find_le closed)
  have stopsWithin := find_le stopped
  have whole : before ++ s :: after = (before ++ s :: mid) ++ g :: rest := by
    simp [split]
  have none_before : ∀ h ∈ before ++ s :: mid, ¬ cls <:+: h.text := by
    intro h hh
    obtain early | late := List.mem_append.mp hh
    · exact (unmarked h early).2
    · obtain rfl | late := List.mem_cons.mp late
      · exact absent
      · exact free h late
  have closes := find_flatten_some (fun h hh => (fits h (whole ▸ hh)).2) none_before closed
  rw [← whole] at closes
  simp only [List.length_drop, List.length_append, List.length_singleton] at stopsWithin
  refine ⟨_, k, _, find_flatten_some (fun g hg => (fits g hg).1) (fun g hg => (unmarked g hg).1)
    opened, ?_, closes, ?_, ?_⟩
  · rw [flatten_drop opensWithin]
    exact find_append_of_some stopped _
  · simp only [flatten_append, flatten_cons, List.length_append, Segment.chars]
    omega
  · symm
    have cut : s.text ++ s.tail = (s.text ++ s.tail).take (i + k + 1) ++
        (s.text ++ s.tail).drop (i + k + 1) := (List.take_append_drop _ _).symm
    have cut' : g.text = g.text.take j ++ g.text.drop j := (List.take_append_drop _ _).symm
    have joined : flatten (before ++ s :: after) = (flatten before ++ s.head) ++
        ((s.text ++ s.tail) ++ (flatten mid ++ (g.head ++ (g.text ++ (g.tail ++
          flatten rest))))) := by
      simp [split, flatten_append, flatten_cons, Segment.chars]
    have parts : flatten (before ++ s :: after) =
        ((flatten before ++ s.head) ++ (s.text ++ s.tail).take (i + k + 1)) ++
          (((s.text ++ s.tail).drop (i + k + 1) ++ (flatten mid ++ (g.head ++ g.text.take j))) ++
            (g.text.drop j ++ (g.tail ++ flatten rest))) := by
      rw [joined]
      conv_lhs => rw [cut, cut']
      simp only [List.append_assoc]
    refine drop_take_of_split parts ?_ ?_
    · simp only [List.length_append, List.length_take]
      omega
    · simp only [flatten_append, flatten_cons, List.length_append, List.length_drop,
        List.length_take, Segment.chars]
      omega

theorem cut_of_between (nonempty : cls ≠ [])
    (ended : ∀ i, find opn s.text = some i → stop ∈ (s.text ++ s.tail).drop i)
    (marked : ¬ (¬ opn <:+: s.text ∧ ¬ cls <:+: s.text))
    (between : Between opn cls stop (flatten (before ++ s :: after)) w) :
    Between opn cls stop s.text w ∨
      ∃ i k mid g rest j, find opn s.text = some i ∧ ¬ cls <:+: s.text ∧
        find [stop] ((s.text ++ s.tail).drop i) = some k ∧
        after = mid ++ g :: rest ∧ (∀ h ∈ mid, ¬ cls <:+: h.text) ∧ find cls g.text = some j ∧
        w = (s.text ++ s.tail).drop (i + k + 1) ++ (flatten mid ++ (g.head ++ g.text.take j)) := by
  obtain ⟨i', k', j', opened', stopped', closed', ordered, _⟩ := id between
  have fitsHere := fits s (by simp)
  cases opened : find opn s.text with
  | none =>
      -- the text holds the closing pattern, and what opens comes after it
      obtain ⟨j, closed⟩ := find_of_infix
        (not_not.mp fun absent => marked ⟨find_eq_none.mp opened, absent⟩)
      have skipped : Skips opn (flatten before ++ s.chars) :=
        (skips_flatten (fun g hg => (fits g (List.mem_append_left _ hg)).1)
          fun g hg => (unmarked g hg).1).append (fitsHere.1.skips (find_eq_none.mp opened))
      rw [flatten_append, flatten_cons, ← List.append_assoc, skipped,
        Option.map_eq_some_iff] at opened'
      obtain ⟨m, _, rfl⟩ := opened'
      rw [find_flatten_some (fun g hg => (fits g hg).2) (fun g hg => (unmarked g hg).2)
        closed] at closed'
      have within := find_le closed
      simp only [List.length_append, Segment.chars, Option.some.injEq] at ordered closed'
      omega
  | some i =>
      rw [find_flatten_some (fun g hg => (fits g hg).1) (fun g hg => (unmarked g hg).1)
        opened] at opened'
      obtain rfl := Option.some.inj opened'
      have opensWithin := Nat.le_of_add_right_le (find_le opened)
      cases closed : find cls s.text with
      | some j =>
          rw [find_flatten_some (fun g hg => (fits g hg).2) (fun g hg => (unmarked g hg).2)
            closed] at closed'
          obtain rfl := Option.some.inj closed'
          have closesWithin := Nat.le_of_add_right_le (find_le closed)
          rw [flatten_drop opensWithin, List.drop_append_of_le_length opensWithin,
            List.append_assoc] at stopped'
          have stopped := find_singleton_of_append stopped'
            (by rw [List.length_drop]; omega)
          have here : Between opn cls stop s.text ((s.text.take j).drop (i + k' + 1)) :=
            ⟨i, k', j, opened, stopped, closed, by omega, rfl⟩
          exact .inl (between_unique (between_of_here fits unmarked here) between ▸ here)
      | none =>
          have absent := find_eq_none.mp closed
          obtain ⟨k, stopped, _⟩ := find_singleton_of_mem (ended i opened)
          obtain free | ⟨mid, g, rest, split, free, closes⟩ :=
            Selection.all_or_first (fun h : Segment α => ¬ cls <:+: h.text) after
          · have nowhere : ∀ h ∈ before ++ s :: after, ¬ cls <:+: h.text := by
              intro h hh
              obtain early | late := List.mem_append.mp hh
              · exact (unmarked h early).2
              · obtain rfl | late := List.mem_cons.mp late
                · exact absent
                · exact free h late
            rw [find_flatten_none nonempty (fun h hh => (fits h hh).2) nowhere] at closed'
            cases closed'
          · obtain ⟨j, found⟩ := find_of_infix (not_not.mp closes)
            have across := between_of_across fits unmarked opened absent stopped split free found
            exact .inr ⟨i, k, mid, g, rest, j, rfl, absent, stopped, split, free, found,
              between_unique between across⟩

end Segments

theorem between_flatten_iff {ss : List (Segment α)} (nonempty : opn ≠ [] ∧ cls ≠ [])
    (fits : ∀ g ∈ ss, g.Fits opn ∧ g.Fits cls)
    (ended : ∀ g ∈ ss, ∀ i, find opn g.text = some i → stop ∈ (g.text ++ g.tail).drop i) :
    Between opn cls stop (flatten ss) w ↔ Cut opn cls stop ss w := by
  constructor
  · intro between
    obtain unmarked | ⟨before, s, after, rfl, unmarked, marked⟩ :=
      Selection.all_or_first (fun g : Segment α => ¬ opn <:+: g.text ∧ ¬ cls <:+: g.text) ss
    · obtain ⟨i, _, _, opened, _⟩ := between
      rw [find_flatten_none nonempty.1 (fun g hg => (fits g hg).1)
        fun g hg => (unmarked g hg).1] at opened
      cases opened
    · exact ⟨before, s, after, rfl, unmarked,
        cut_of_between fits unmarked nonempty.2 (ended s (by simp)) marked between⟩
  · rintro ⟨before, s, after, rfl, unmarked, here |
      ⟨i, k, mid, g, rest, j, opened, absent, stopped, split, free, closed, rfl⟩⟩
    · exact between_of_here fits unmarked here
    · exact between_of_across fits unmarked opened absent stopped split free closed

end Between
end Pattern
