import EvoclawPluginWechat.Library.Pattern
import Mathlib.Data.List.Infix
import Mathlib.Data.List.Count
import Mathlib.Data.List.Dedup
import Mathlib.Data.List.Induction

/-!
Templates with placeholders. All placeholders begin with one mark that stands nowhere else in
them, and none begins another. A template can be parsed once and filled in one pass, or its
placeholders replaced one after the other, each in the result of the last; the two agree as
long as no filling makes a placeholder that the template does not have.
-/
namespace Template
universe u v

/-- The placeholders of a template language. -/
structure Placeholders (ι : Type u) (α : Type v) where
  mark : α
  body : ι → List α
  mark_notMem : ∀ i, mark ∉ body i
  eq_of_prefix : ∀ i j, body i <+: body j → i = j
  all : List ι
  mem_all : ∀ i, i ∈ all

/-- A part of a parsed template. -/
inductive Piece (ι : Type u) (α : Type v)
  | text (x : α)
  | hole (i : ι)
  deriving DecidableEq

variable {ι : Type u} {α : Type v} (P : Placeholders ι α)

namespace Placeholders

def token (i : ι) : List α := P.mark :: P.body i

section
variable {P} {i j : ι} {xs : List α}

theorem token_ne_nil (i : ι) : P.token i ≠ [] := List.cons_ne_nil _ _

theorem eq_of_token_start (h : P.token i <+: P.token j ++ xs) : i = j := by
  have inside : P.body i <+: P.body j ++ xs := (List.cons_prefix_cons.mp h).2
  obtain shorter | longer := Nat.le_total (P.body i).length (P.body j).length
  · exact P.eq_of_prefix i j
      (List.prefix_of_prefix_length_le inside (List.prefix_append _ _) shorter)
  · exact (P.eq_of_prefix j i
      (List.prefix_of_prefix_length_le (List.prefix_append _ _) inside longer)).symm

theorem eq_of_token_start_tail {c : List α} (hc : c <:+ P.token j) (nonempty : c ≠ [])
    (h : P.token i <+: c ++ xs) : i = j := by
  obtain whole | inside := List.suffix_cons_iff.mp hc
  · exact eq_of_token_start (whole ▸ h)
  · obtain ⟨d, c, rfl⟩ := List.exists_cons_of_ne_nil nonempty
    obtain rfl := (List.cons_prefix_cons.mp h).1
    exact absurd (inside.subset List.mem_cons_self) (P.mark_notMem j)

end

/-- What a piece reads as; a hole that is not filled reads as its placeholder. -/
def write (filled : ι → Option (List α)) : Piece ι α → List α
  | .text x => [x]
  | .hole i => (filled i).getD (P.token i)

def render (filled : ι → Option (List α)) (ps : List (Piece ι α)) : List α :=
  ps.flatMap (P.write filled)

variable [DecidableEq α]

/-- The placeholder that is to be read here. -/
def reads (xs : List α) : Option ι := P.all.find? fun i => decide (P.token i <+: xs)

/-- The template's pieces after the next `skip` elements. -/
def parseFrom : Nat → List α → List (Piece ι α)
  | _, [] => []
  | skip + 1, _ :: xs => parseFrom skip xs
  | 0, x :: xs =>
      match P.reads (x :: xs) with
      | some i => .hole i :: parseFrom (P.body i).length xs
      | none => .text x :: parseFrom 0 xs

def parse (xs : List α) : List (Piece ι α) := P.parseFrom 0 xs

/-- All placeholders at once. -/
def onePass (value : ι → List α) (xs : List α) : List α :=
  P.render (fun i => some (value i)) (P.parse xs)

/-- The placeholders one after the other. -/
def chain (value : ι → List α) (order : List ι) (xs : List α) : List α :=
  order.foldl (fun xs i => Pattern.replace (P.token i) (value i) xs) xs

/-- Each replacement finds as many places as the template itself has. -/
def OwnOnly (value : ι → List α) (order : List ι) (xs : List α) : Prop :=
  ∀ before i after, order = before ++ i :: after →
    Pattern.occurrences (P.token i) (P.chain value before xs) =
      Pattern.occurrences (P.token i) xs

/-- The placeholder is to be read from inside this piece on, which is no hole for it. -/
def Begins (filled : ι → Option (List α)) (i : ι) (p : Piece ι α) (rest : List α) : Prop :=
  p ≠ .hole i ∧ ∃ c ∈ (P.write filled p).tails, c ≠ [] ∧ P.token i <+: c ++ rest

/-- Somewhere the placeholder is to be read though the template has no hole for it there. -/
def Arises (filled : ι → Option (List α)) (i : ι) : List (Piece ι α) → Prop
  | [] => False
  | p :: ps => P.Begins filled i p (P.render filled ps) ∨ Arises filled i ps

instance decidableBegins [DecidableEq ι] (filled : ι → Option (List α)) (i : ι) (p : Piece ι α)
    (rest : List α) : Decidable (P.Begins filled i p rest) :=
  inferInstanceAs (Decidable (_ ∧ _))

instance decidableArises [DecidableEq ι] (filled : ι → Option (List α)) (i : ι) :
    (ps : List (Piece ι α)) → Decidable (P.Arises filled i ps)
  | [] => instDecidableFalse
  | p :: ps =>
      have := decidableArises filled i ps
      inferInstanceAs (Decidable (P.Begins filled i p (P.render filled ps) ∨ _))

def valuesOf [DecidableEq ι] (value : ι → List α) (is : List ι) (i : ι) : Option (List α) :=
  if i ∈ is then some (value i) else none

def valuesBut [DecidableEq ι] (value : ι → List α) (i j : ι) : Option (List α) :=
  if j = i then none else some (value j)

variable {P} {filled filled' : ι → Option (List α)} {value : ι → List α} {i j : ι}
  {p : Piece ι α} {ps : List (Piece ι α)} {xs ys : List α}

section Parse

theorem reads_eq_none : P.reads xs = none ↔ ∀ i, ¬ P.token i <+: xs := by
  simp [reads, P.mem_all]

theorem reads_token (i : ι) (xs : List α) : P.reads (P.token i ++ xs) = some i := by
  cases found : P.reads (P.token i ++ xs) with
  | none => exact absurd (List.prefix_append _ _) (reads_eq_none.mp found i)
  | some j =>
      have here := List.find?_some found
      rw [decide_eq_true_eq] at here
      rw [eq_of_token_start here]

theorem parseFrom_eq (skip : Nat) (xs : List α) :
    P.parseFrom skip xs = P.parse (xs.drop skip) := by
  induction xs generalizing skip with
  | nil => cases skip <;> rfl
  | cons x xs ih =>
      cases skip with
      | zero => rfl
      | succ skip => exact ih skip

theorem parse_token (i : ι) (xs : List α) :
    P.parse (P.token i ++ xs) = .hole i :: P.parse xs := by
  have found := reads_token (P := P) i xs
  change P.parseFrom 0 (P.mark :: (P.body i ++ xs)) = _
  change P.reads (P.mark :: (P.body i ++ xs)) = _ at found
  rw [parseFrom, found]
  dsimp only
  rw [parseFrom_eq, List.drop_left]

theorem parse_cons {x : α} (h : ∀ i, ¬ P.token i <+: x :: xs) :
    P.parse (x :: xs) = .text x :: P.parse xs := by
  rw [parse, parseFrom, reads_eq_none.mpr h]
  rfl

omit [DecidableEq α] in
/-- Induction from one piece of a template to the next. -/
theorem parse_induction (P : Placeholders ι α) {motive : List α → Prop} (nil : motive [])
    (hole : ∀ i xs, motive xs → motive (P.token i ++ xs))
    (text : ∀ x xs, (∀ i, ¬ P.token i <+: x :: xs) → motive xs → motive (x :: xs))
    (xs : List α) : motive xs := by
  match xs with
  | [] => exact nil
  | x :: xs =>
      by_cases h : ∃ i, P.token i <+: x :: xs
      · obtain ⟨i, rest, hr⟩ := h
        have shorter : rest.length < (x :: xs).length := by
          rw [← hr, List.length_append, token, List.length_cons]
          omega
        rw [← hr]
        exact hole i rest (parse_induction P nil hole text rest)
      · exact text x xs (not_exists.mp h) (parse_induction P nil hole text xs)
termination_by xs.length
decreasing_by
  · exact shorter
  · exact Nat.lt_succ_self _

theorem render_parse (xs : List α) : P.render (fun _ => none) (P.parse xs) = xs := by
  induction xs using P.parse_induction with
  | nil => rfl
  | hole i xs ih =>
      rw [parse_token, render, List.flatMap_cons, ← render, ih]
      rfl
  | text x xs h ih =>
      rw [parse_cons h, render, List.flatMap_cons, ← render, ih]
      rfl

theorem not_arises_parse (i : ι) (xs : List α) :
    ¬ P.Arises (fun _ => none) i (P.parse xs) := by
  induction xs using P.parse_induction with
  | nil => exact id
  | hole j xs ih =>
      rw [parse_token]
      rintro (⟨other, c, hc, nonempty, start⟩ | later)
      · exact other (congrArg Piece.hole
          (eq_of_token_start_tail ((List.mem_tails _ _).mp hc) nonempty start).symm)
      · exact ih later
  | text x xs h ih =>
      rw [parse_cons h]
      rintro (⟨_, c, hc, nonempty, start⟩ | later)
      · rw [render_parse] at start
        obtain rfl : c = [x] := by
          have := (List.mem_tails _ _).mp hc
          rw [write, List.suffix_cons_iff, List.suffix_nil] at this
          exact this.resolve_right nonempty
        exact h i start
      · exact ih later

end Parse

section Stage
variable [DecidableEq ι] (unfilled : filled i = none)

omit [DecidableEq α] [DecidableEq ι] in
theorem render_cons (p : Piece ι α) (ps : List (Piece ι α)) :
    P.render filled (p :: ps) = P.write filled p ++ P.render filled ps :=
  List.flatMap_cons

omit [DecidableEq α] [DecidableEq ι] in
theorem not_prefix_of_not_begins (quiet : ¬ P.Begins filled i p xs) (other : p ≠ .hole i) :
    ∀ c, c <:+ P.write filled p → c ≠ [] → ¬ P.token i <+: c ++ xs :=
  fun c hc nonempty start => quiet ⟨other, c, (List.mem_tails _ _).mpr hc, nonempty, start⟩

include unfilled

omit [DecidableEq α] [DecidableEq ι] in
theorem write_hole : P.write filled (.hole i) = P.token i := by
  rw [write, unfilled, Option.getD_none]

/-- Where the placeholder does not arise, replacing it fills its holes. -/
theorem replace_render (quiet : ¬ P.Arises filled i ps) (v : List α) :
    Pattern.replace (P.token i) v (P.render filled ps) =
      P.render (Function.update filled i (some v)) ps := by
  induction ps with
  | nil => rfl
  | cons p ps ih =>
      obtain ⟨here, later⟩ := not_or.mp quiet
      rw [render_cons, render_cons, ← ih later]
      by_cases own : p = .hole i
      · subst own
        rw [write_hole unfilled, Pattern.replace_append (token_ne_nil i), write,
          Function.update_self,
          Option.getD_some]
      · have same : P.write (Function.update filled i (some v)) p = P.write filled p := by
          cases p with
          | text x => rfl
          | hole j =>
              have different : j ≠ i := fun eq => own (congrArg Piece.hole eq)
              rw [write, write, Function.update_of_ne different]
        rw [same]
        exact Pattern.replace_block (token_ne_nil i) v (not_prefix_of_not_begins here own)

theorem occurrences_render (quiet : ¬ P.Arises filled i ps) :
    Pattern.occurrences (P.token i) (P.render filled ps) = ps.count (.hole i) := by
  induction ps with
  | nil => rfl
  | cons p ps ih =>
      obtain ⟨here, later⟩ := not_or.mp quiet
      rw [render_cons]
      by_cases own : p = .hole i
      · subst own
        rw [write_hole unfilled, Pattern.occurrences_append (token_ne_nil i), ih later,
          List.count_cons_self]
      · rw [Pattern.occurrences_block (not_prefix_of_not_begins here own), ih later,
          List.count_cons_of_ne own]

theorem count_le_occurrences (ps : List (Piece ι α)) :
    ps.count (.hole i) ≤ Pattern.occurrences (P.token i) (P.render filled ps) := by
  induction ps with
  | nil => exact Nat.zero_le _
  | cons p ps ih =>
      rw [render_cons]
      by_cases own : p = .hole i
      · subst own
        rw [write_hole unfilled, Pattern.occurrences_append (token_ne_nil i),
          List.count_cons_self]
        exact Nat.succ_le_succ ih
      · rw [List.count_cons_of_ne own]
        exact Nat.le_trans ih (Pattern.occurrences_le_append (P.mark_notMem i) _ _)

theorem count_lt_occurrences (arises : P.Arises filled i ps) :
    ps.count (.hole i) < Pattern.occurrences (P.token i) (P.render filled ps) := by
  induction ps with
  | nil => exact arises.elim
  | cons p ps ih =>
      rw [render_cons]
      by_cases own : p = .hole i
      · subst own
        have later := arises.resolve_left fun here => here.1 rfl
        rw [write_hole unfilled, Pattern.occurrences_append (token_ne_nil i),
          List.count_cons_self]
        exact Nat.succ_lt_succ (ih later)
      · rw [List.count_cons_of_ne own]
        obtain ⟨_, c, hc, nonempty, start⟩ | later := arises
        · exact Nat.lt_of_le_of_lt (count_le_occurrences unfilled ps)
            (Pattern.occurrences_lt_append (P.mark_notMem i) ((List.mem_tails _ _).mp hc)
              nonempty start)
        · exact Nat.lt_of_lt_of_le (ih later)
            (Pattern.occurrences_le_append (P.mark_notMem i) _ _)

theorem occurrences_eq_iff :
    Pattern.occurrences (P.token i) (P.render filled (P.parse xs)) =
        Pattern.occurrences (P.token i) xs ↔
      ¬ P.Arises filled i (P.parse xs) := by
  have own : Pattern.occurrences (P.token i) xs = (P.parse xs).count (.hole i) := by
    have blank := occurrences_render rfl (not_arises_parse (P := P) i xs)
    rwa [render_parse] at blank
  rw [own]
  refine ⟨fun same arises => ?_, occurrences_render unfilled⟩
  exact Nat.ne_of_gt (count_lt_occurrences unfilled arises) same

end Stage

section Fill
omit [DecidableEq α]

theorem prefix_append_of_rest {ys block xs xs' : List α} (h : ys <+: block ++ xs)
    (rest : ∀ zs, ys = block ++ zs → zs <+: xs → zs <+: xs') : ys <+: block ++ xs' := by
  obtain inside | ⟨zs, rfl⟩ := List.prefix_or_prefix_of_prefix h (List.prefix_append block xs)
  · exact List.prefix_append_of_prefix inside
  · exact (List.prefix_append_right_inj block).mpr
      (rest zs rfl ((List.prefix_append_right_inj block).mp h))

variable (more : ∀ j v, filled j = some v → filled' j = some v)
include more

theorem prefix_render_of_prefix (unmarked : P.mark ∉ ys) (h : ys <+: P.render filled ps) :
    ys <+: P.render filled' ps := by
  induction ps generalizing ys with
  | nil => exact h
  | cons p ps ih =>
      rw [render_cons] at h ⊢
      have same_block : P.write filled p = P.write filled' p →
          ys <+: P.write filled' p ++ P.render filled' ps := by
        intro same
        rw [same] at h
        refine prefix_append_of_rest h fun zs eq start => ih ?_ start
        exact fun mem => unmarked (eq ▸ List.mem_append_right _ mem)
      cases p with
      | text x => exact same_block rfl
      | hole j =>
          cases value : filled j with
          | some v => exact same_block (by rw [write, write, value, more j v value])
          | none =>
              rw [write_hole value] at h
              obtain rfl | ⟨_, rfl, _⟩ := List.prefix_cons_iff.mp h
              · exact List.nil_prefix
              · exact absurd List.mem_cons_self unmarked

theorem Arises.mono (h : P.Arises filled i ps) : P.Arises filled' i ps := by
  induction ps with
  | nil => exact h
  | cons p ps ih =>
      obtain ⟨other, c, hc, nonempty, start⟩ | later := h
      · have same : P.write filled p = P.write filled' p := by
          cases p with
          | text x => rfl
          | hole j =>
              cases value : filled j with
              | some v => rw [write, write, value, more j v value]
              | none =>
                  rw [write_hole value] at hc
                  have own := eq_of_token_start_tail ((List.mem_tails _ _).mp hc) nonempty start
                  exact absurd (congrArg Piece.hole own.symm) other
        refine .inl ⟨other, c, same ▸ hc, nonempty, prefix_append_of_rest start ?_⟩
        intro zs eq inside
        refine prefix_render_of_prefix more (fun marked => ?_) inside
        obtain ⟨x, c, rfl⟩ := List.exists_cons_of_ne_nil nonempty
        have body : P.body i = c ++ zs := (List.cons.inj eq).2
        exact P.mark_notMem i (body ▸ List.mem_append_right c marked)
      · exact .inr (ih later)

end Fill

section Chain

theorem forall_split_concat {β : Type u} {Q : List β → β → Prop} {l : List β} {b : β} :
    (∀ before x after, l ++ [b] = before ++ x :: after → Q before x) ↔
      (∀ before x after, l = before ++ x :: after → Q before x) ∧ Q l b := by
  constructor
  · intro h
    refine ⟨fun before x after split => h before x (after ++ [b]) (by simp [split]), ?_⟩
    exact h l b [] rfl
  · rintro ⟨inside, last⟩ before x after split
    obtain rfl | ⟨after, c, rfl⟩ := List.eq_nil_or_concat' after
    · obtain ⟨rfl, same⟩ := List.append_inj' split rfl
      exact (List.cons.inj same).1 ▸ last
    · rw [← List.cons_append, ← List.append_assoc] at split
      exact inside before x after (List.append_inj' split rfl).1

variable [DecidableEq ι] {order : List ι}

/-- No placeholder arises before its turn. -/
def Quiet (P : Placeholders ι α) (value : ι → List α) (order : List ι)
    (ps : List (Piece ι α)) : Prop :=
  ∀ before i after, order = before ++ i :: after → ¬ P.Arises (valuesOf value before) i ps

omit [DecidableEq α] in
theorem valuesOf_concat (value : ι → List α) (order : List ι) (i : ι) :
    valuesOf value (order ++ [i]) = Function.update (valuesOf value order) i (some (value i)) := by
  funext j
  by_cases same : j = i
  · subst same
    simp [valuesOf]
  · simp [valuesOf, same]

omit [DecidableEq ι] in
theorem chain_concat (value : ι → List α) (order : List ι) (i : ι) (xs : List α) :
    P.chain value (order ++ [i]) xs =
      Pattern.replace (P.token i) (value i) (P.chain value order xs) := by
  rw [chain, List.foldl_append]
  rfl

/-- Where no placeholder arises, the chain fills the holes it has come to. -/
theorem chain_eq_render (nodup : order.Nodup) (quiet : Quiet P value order (P.parse xs)) :
    P.chain value order xs = P.render (valuesOf value order) (P.parse xs) := by
  induction order using List.reverseRecOn with
  | nil => exact (render_parse xs).symm
  | append_singleton order i ih =>
      obtain ⟨inside, last⟩ := forall_split_concat.mp quiet
      obtain ⟨nodup, _, apart⟩ := List.nodup_append.mp nodup
      have unfilled : valuesOf value order i = none :=
        if_neg fun mem => apart i mem i List.mem_cons_self rfl
      rw [chain_concat, ih nodup inside, valuesOf_concat, replace_render unfilled last]

theorem ownOnly_iff (nodup : order.Nodup) :
    P.OwnOnly value order xs ↔ Quiet P value order (P.parse xs) := by
  induction order using List.reverseRecOn with
  | nil =>
      have none_at_all : ∀ (before : List ι) i after, [] ≠ before ++ i :: after := by simp
      exact iff_of_true (fun _ _ _ split => absurd split (none_at_all _ _ _))
        fun _ _ _ split => absurd split (none_at_all _ _ _)
  | append_singleton order i ih =>
      obtain ⟨nodup, _, apart⟩ := List.nodup_append.mp nodup
      have unfilled : valuesOf value order i = none :=
        if_neg fun mem => apart i mem i List.mem_cons_self rfl
      rw [OwnOnly, Quiet, forall_split_concat, forall_split_concat, ← OwnOnly, ← Quiet, ih nodup]
      refine and_congr_right fun quiet => ?_
      rw [chain_eq_render nodup quiet]
      exact occurrences_eq_iff unfilled

/-- In every order the chain is one pass and finds only what the template has, exactly if no
placeholder arises from the values of the others. -/
theorem simultaneous_iff (P : Placeholders ι α) (value : ι → List α) (xs : List α) :
    (∀ order : List ι, order.Nodup → (∀ i, i ∈ order) →
      P.chain value order xs = P.onePass value xs ∧ P.OwnOnly value order xs) ↔
      ∀ i, ¬ P.Arises (valuesBut value i) i (P.parse xs) := by
  constructor
  · intro simultaneous i
    have nodup : (P.all.dedup.erase i ++ [i]).Nodup := by
      rw [List.nodup_append]
      refine ⟨(List.nodup_dedup P.all).erase i, List.nodup_singleton i, fun j hj k hk => ?_⟩
      rw [List.mem_singleton.mp hk]
      exact ((List.nodup_dedup P.all).mem_erase_iff.mp hj).1
    have others : ∀ j, j ∈ P.all.dedup.erase i ↔ j ≠ i := by
      simp [(List.nodup_dedup P.all).mem_erase_iff, P.mem_all]
    have complete : ∀ j, j ∈ P.all.dedup.erase i ++ [i] := fun j => by
      simp [others, em']
    have filled : valuesOf value (P.all.dedup.erase i) = valuesBut value i := by
      funext j
      simp [valuesOf, valuesBut, others]
    have quiet := (ownOnly_iff nodup).mp (simultaneous _ nodup complete).2 _ i [] rfl
    rwa [filled] at quiet
  · intro quiet order nodup complete
    have quiet : Quiet P value order (P.parse xs) := by
      rintro before i after rfl arises
      refine quiet i (arises.mono fun j v value_j => ?_)
      have fresh : i ∉ before := fun mem =>
        (List.nodup_append.mp nodup).2.2 i mem i List.mem_cons_self rfl
      simp only [valuesOf, Option.ite_none_right_eq_some] at value_j
      have other : j ≠ i := fun same => fresh (same ▸ value_j.1)
      rw [valuesBut, if_neg other, value_j.2]
    refine ⟨?_, (ownOnly_iff nodup).mpr quiet⟩
    have all_filled : valuesOf value order = fun i => some (value i) :=
      funext fun i => if_pos (complete i)
    rw [chain_eq_render nodup quiet, all_filled, onePass]

end Chain

end Placeholders
end Template
