import EvoclawPluginWechat.Properties.ReplayGuard

/-!
How often a captured request is accepted. The acceptances of a pair are 300 s apart, since the
nonce is remembered so long, and they all lie within the 601 s in which the timestamp is in the
window; so there are three at most.
-/
namespace EvoclawPluginWechat
open Transition

theorem stretch_of_spaced {gap : Int} {u : Int} {l : List Int}
    (spaced : (u :: l).Pairwise fun u v => u + gap ≤ v) :
    ∃ v ∈ u :: l, u + l.length * gap ≤ v := by
  induction l generalizing u with
  | nil => exact ⟨u, List.mem_cons_self, by simp⟩
  | cons w l ih =>
      obtain ⟨first, rest⟩ := List.pairwise_cons.mp spaced
      obtain ⟨v, mem, far⟩ := ih rest
      have near := first w List.mem_cons_self
      refine ⟨v, List.mem_cons_of_mem _ mem, ?_⟩
      rw [List.length_cons, Int.natCast_add, Int.add_mul]
      simp only [Int.natCast_one, Int.one_mul]
      omega

/-- Two clocks that see the timestamp in the window are less than 601 s apart. -/
theorem window_span {t t' tsNum : Int} (hts : inI64 tsNum) (epoch : 0 ≤ t) (epoch' : 0 ≤ t')
    (range : t < 2 ^ 62 * 1000000000) (range' : t' < 2 ^ 62 * 1000000000)
    (inside : outsideWindow (currentUnixSecs t) tsNum = false)
    (inside' : outsideWindow (currentUnixSecs t') tsNum = false) :
    t' - t < 601 * 1000000000 := by
  rw [currentUnixSecs_eq _ range, if_neg (by omega),
    outsideWindow_eq_false_iff _ _ (by omega) (by omega) hts] at inside
  rw [currentUnixSecs_eq _ range', if_neg (by omega),
    outsideWindow_eq_false_iff _ _ (by omega) (by omega) hts] at inside'
  simp only [inI64, i64Min, i64Max] at hts
  omega

namespace CacheRun
variable {s t : CacheRun} {ts nonce : String} {as : List Act}

/-- When the pair is accepted in the run. -/
def acceptTimes (ts nonce : String) : CacheRun → List Act → List Int
  | _, [] => []
  | s, a :: as =>
      let later := ((s.step a).map fun s' => acceptTimes ts nonce s' as).getD []
      match a with
      | .checkReplay ts' nonce' =>
          if ts' = ts ∧ nonce' = nonce ∧ (s.checked ts nonce).1 = .returned (.ok ()) then
            s.now :: later
          else later
      | _ => later

theorem acceptTimes_cons (ts nonce : String) {a : Act} {s' : CacheRun} (hs : s.step a = some s') :
    acceptTimes ts nonce s (a :: as) = acceptTimes ts nonce s' as ∨
      a = .checkReplay ts nonce ∧ s.Accepts ts nonce ∧
        acceptTimes ts nonce s (a :: as) = s.now :: acceptTimes ts nonce s' as := by
  simp only [acceptTimes, hs, Option.map_some, Option.getD_some]
  cases a with
  | checkReplay ts' nonce' =>
      dsimp only
      split
      · next accepted =>
          obtain ⟨rfl, rfl, accepts⟩ := accepted
          exact .inr ⟨rfl, accepts, rfl⟩
      · exact .inl rfl
  | _ => exact .inl rfl

theorem step_clocks {a : Act} {s' : CacheRun} (hs : s.step a = some s') :
    s'.wall - s'.now = s.wall - s.now ∧ s.wall ≤ s'.wall := by
  cases a with
  | tick d =>
      cases hs
      dsimp only
      omega
  | _ =>
      cases hs
      exact ⟨rfl, Int.le_refl _⟩

section
variable {allow : CacheRun → Act → Prop}

/-- After an acceptance the next one is 300 s away. -/
theorem acceptTimes_late {s₀ : CacheRun} (run : Run step allow s as t)
    (since : Since s₀ nonce s) :
    ∀ u ∈ acceptTimes ts nonce s as, s₀.now + 300 * 1000000000 ≤ u := by
  induction run with
  | nil _ => exact fun u h => by cases h
  | cons _ hs _ ih =>
      have rest := ih (since_step since _ hs)
      obtain same | ⟨_, accepted, same⟩ := acceptTimes_cons ts nonce hs
      · rw [same]
        exact rest
      · rw [same]
        exact List.forall_mem_cons.mpr ⟨since.accepts_late accepted, rest⟩

theorem acceptTimes_spaced (ts nonce : String) (run : Run step allow s as t) :
    (acceptTimes ts nonce s as).Pairwise fun u v => u + 300 * 1000000000 ≤ v := by
  induction run with
  | nil _ => exact .nil
  | cons _ hs run ih =>
      obtain same | ⟨rfl, accepted, same⟩ := acceptTimes_cons ts nonce hs
      · rw [same]
        exact ih
      · rw [same]
        exact .cons (acceptTimes_late run (since_accepted accepted hs)) ih

theorem acceptTimes_inside (ts nonce : String) (run : Run step allowed s as t) :
    ∀ u ∈ acceptTimes ts nonce s as, ∃ wall tsNum, wall - u = s.wall - s.now ∧ s.wall ≤ wall ∧
      wall < 2 ^ 62 * 1000000000 ∧ parseI64 ts = some tsNum ∧
      outsideWindow (currentUnixSecs wall) tsNum = false := by
  induction run with
  | nil _ => exact fun u h => by cases h
  | @cons s s' _ a as range hs _ ih =>
      obtain ⟨together, later⟩ := step_clocks hs
      have rest : ∀ u ∈ acceptTimes ts nonce s' as, ∃ wall tsNum, wall - u = s.wall - s.now ∧
          s.wall ≤ wall ∧ wall < 2 ^ 62 * 1000000000 ∧ parseI64 ts = some tsNum ∧
          outsideWindow (currentUnixSecs wall) tsNum = false := by
        intro u mem
        obtain ⟨wall, tsNum, same, after, seen⟩ := ih u mem
        exact ⟨wall, tsNum, same.trans together, Int.le_trans later after, seen⟩
      obtain same | ⟨_, accepted, same⟩ := acceptTimes_cons ts nonce hs
      · rw [same]
        exact rest
      · obtain ⟨tsNum, _, hts, inside, _⟩ := checkReplay_ok_iff.mp accepted
        rw [same]
        exact List.forall_mem_cons.mpr
          ⟨⟨s.wall, tsNum, rfl, Int.le_refl _, range, hts, inside⟩, rest⟩

end

/-- A captured request is accepted three times at most, whatever else is checked, stored, looked
up or swept meanwhile, and with 300 s between. -/
theorem accepted_at_most_three (run : Run step allowed s as t) (epoch : 0 ≤ s.wall) :
    (acceptTimes ts nonce s as).length ≤ 3 ∧
      (acceptTimes ts nonce s as).Pairwise fun u v => u + 300 * 1000000000 ≤ v := by
  have spaced := acceptTimes_spaced ts nonce run
  refine ⟨?_, spaced⟩
  have seen := acceptTimes_inside ts nonce run
  cases times : acceptTimes ts nonce s as with
  | nil => exact Nat.zero_le _
  | cons u l =>
      rw [times] at spaced seen
      obtain ⟨v, mem, far⟩ := stretch_of_spaced spaced
      obtain ⟨wall, tsNum, same, after, range, hts, inside⟩ := seen u List.mem_cons_self
      obtain ⟨wall', tsNum', same', after', range', hts', inside'⟩ := seen v mem
      obtain rfl := Option.some.inj (hts.symm.trans hts')
      have near := window_span (parseI64_inI64 hts) (Int.le_trans epoch after)
        (Int.le_trans epoch after') range range' inside inside'
      rw [List.length_cons]
      omega

instance (s : CacheRun) (a : Act) : Decidable (s.allowed a) :=
  inferInstanceAs (Decidable s.ClockInRange)

/-- A request that comes three times, as soon as its nonce is forgotten. -/
private def replays : List Act :=
  [.checkReplay "1700000300" "nonce-A", .tick (Duration.fromSecs 300),
    .checkReplay "1700000300" "nonce-A", .gcCaches, .tick (Duration.fromSecs 300),
    .checkReplay "1700000300" "nonce-A"]

/-- With a timestamp as far ahead as the window lets it be, the third time succeeds. -/
theorem accepted_at_most_three_ahead :
    (acceptTimes "1700000300" "nonce-A" freshStart replays).length = 3 ∧
      (acceptTimes "1700000300" "nonce-A" freshStart replays).length ≤ 3 ∧
      (acceptTimes "1700000300" "nonce-A" freshStart replays).Pairwise
        fun u v => u + 300 * 1000000000 ≤ v := by
  have runs : (execIf step allowed freshStart replays).isSome = true := by decide +kernel
  obtain ⟨t, exec⟩ := Option.isSome_iff_exists.mp runs
  exact ⟨by decide +kernel, accepted_at_most_three (run_of_execIf exec) (by decide)⟩

end CacheRun
end EvoclawPluginWechat
