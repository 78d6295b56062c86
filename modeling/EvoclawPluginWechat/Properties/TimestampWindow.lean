import EvoclawPluginWechat.Properties.ReplayGuard

/-!
The window test of `check_replay` against the distance of the timestamp from the clock,
in the arithmetic of release builds and with overflow checks.
-/
namespace EvoclawPluginWechat

/-- `check_replay` came further than the window test. -/
structure PastWindow (result : Outcome (Except String Unit)) : Prop where
  numeric : result ≠ .returned (.error "non-numeric timestamp")
  inside : result ≠ .returned (.error "timestamp outside ±300s window")

theorem pastWindow_look (cache : NonceCache) (cutoff insertNow : Int) (nonce : String) :
    PastWindow (cache.look cutoff insertNow nonce).1 := by
  rw [NonceCache.look]
  split_ifs
  · exact ⟨by simp, by simp⟩
  · exact ⟨by simp, by simp⟩

theorem pastWindow_iff {cache : NonceCache} {wall cutoffNow insertNow : Int} {ts nonce : String} :
    PastWindow (checkReplay cache wall cutoffNow insertNow ts nonce).1 ↔
      ∃ tsNum, parseI64 ts = some tsNum ∧
        outsideWindow (currentUnixSecs wall) tsNum = false := by
  constructor
  · intro past
    rw [checkReplay_eq, beforeLookup] at past
    cases parsed : parseI64 ts with
    | none =>
        rw [parsed] at past
        exact absurd rfl past.numeric
    | some tsNum =>
        refine ⟨tsNum, rfl, Bool.eq_false_iff.mpr fun outside => ?_⟩
        simp only [parsed, outside, if_true] at past
        exact absurd rfl past.inside
  · rintro ⟨tsNum, parsed, inside⟩
    rw [checkReplay_eq, beforeLookup]
    simp only [parsed, inside, Bool.false_eq_true, if_false]
    cases cache.poisoned with
    | true => exact ⟨by simp, by simp⟩
    | false =>
        cases Instant.sub cutoffNow (Duration.fromSecs 300) with
        | none => exact ⟨by simp, by simp⟩
        | some cutoff => exact pastWindow_look cache cutoff insertNow nonce

section
variable {now tsNum : Int}

/-- With the clock past the epoch, only the subtraction can overflow. -/
theorem outsideWindowChecked_eq_none_iff (h0 : 0 ≤ now) (h1 : now < 2 ^ 62) (hts : inI64 tsNum) :
    outsideWindowChecked now tsNum = none ↔ 2 ^ 63 ≤ now - tsNum := by
  have inside : ∀ z, inI64 z ↔ -2 ^ 63 ≤ z ∧ z ≤ 2 ^ 63 - 1 := fun _ => Iff.rfl
  rw [inside] at hts
  rw [outsideWindowChecked]
  by_cases fits : now - tsNum < 2 ^ 63
  · have diff : inI64 (now - tsNum) := (inside _).mpr (by omega)
    have age : inI64 (now - tsNum).natAbs := (inside _).mpr (by omega)
    rw [checkedI64_of_inI64 diff, Option.bind_some, checkedI64_of_inI64 age]
    simp only [Option.map_some, reduceCtorEq, false_iff]
    omega
  · have diff : ¬ inI64 (now - tsNum) := fun h => fits (by have := (inside _).mp h; omega)
    rw [checkedI64_of_not_inI64 diff]
    simp only [Option.bind_none, true_iff]
    omega

/-- The wrapped difference is its own absolute value when it is the least `i64`. -/
theorem outsideWindow_exact_iff (h0 : 0 ≤ now) (h1 : now < 2 ^ 62) (hts : inI64 tsNum) :
    (outsideWindow now tsNum = false ↔ (now - tsNum).natAbs ≤ 300) ↔ now - tsNum ≠ 2 ^ 63 := by
  rw [outsideWindow_eq_false_iff now tsNum h0 h1 hts]
  omega

end

/-- At this reading of the clock the window test is exact for the timestamp, and overflow
checks find nothing. -/
structure WindowExact (wall : Int) (ts : String) : Prop where
  exact : ∀ (cache : NonceCache) (cutoffNow insertNow : Int) (nonce : String),
    PastWindow (checkReplay cache wall cutoffNow insertNow ts nonce).1 ↔
      ∃ tsNum, parseI64 ts = some tsNum ∧ (currentUnixSecs wall - tsNum).natAbs ≤ 300
  checked : ∀ tsNum, parseI64 ts = some tsNum →
    outsideWindowChecked (currentUnixSecs wall) tsNum ≠ none

theorem window_exact_iff (wall : Int) (ts : String) (h0 : 0 ≤ currentUnixSecs wall)
    (h1 : currentUnixSecs wall < 2 ^ 62) :
    WindowExact wall ts ↔
      ∀ tsNum, parseI64 ts = some tsNum → currentUnixSecs wall - tsNum < 2 ^ 63 := by
  constructor
  · intro h tsNum parsed
    have safe := h.checked tsNum parsed
    rw [ne_eq, outsideWindowChecked_eq_none_iff h0 h1 (parseI64_inI64 parsed)] at safe
    omega
  · intro near
    constructor
    · intro cache cutoffNow insertNow nonce
      rw [pastWindow_iff]
      apply exists_congr
      intro tsNum
      apply and_congr_right
      intro parsed
      have := near tsNum parsed
      exact (outsideWindow_exact_iff h0 h1 (parseI64_inI64 parsed)).mpr (by omega)
    · intro tsNum parsed
      have := near tsNum parsed
      rw [ne_eq, outsideWindowChecked_eq_none_iff h0 h1 (parseI64_inI64 parsed)]
      omega

/-- A message of the current second. -/
theorem window_exact_iff_now : WindowExact 1700000000000000000 "1700000000" :=
  (window_exact_iff _ _ (by decide) (by decide)).mpr fun tsNum parsed => by
    obtain rfl : 1700000000 = tsNum := by
      refine Option.some.inj (Eq.trans ?_ parsed)
      decide +kernel
    decide

/-- 2^63 seconds before the clock: the difference wraps to the least `i64`. -/
theorem window_passes_wrapped :
    PastWindow (checkReplay (.new ∅) 1700000000000000000 0 0 "-9223372035154775808" "nonce").1 ∧
      parseI64 "-9223372035154775808" = some (1700000000 - 2 ^ 63) ∧
      ¬ (1700000000 - (1700000000 - 2 ^ 63) : Int).natAbs ≤ 300 ∧
      outsideWindowChecked 1700000000 (1700000000 - 2 ^ 63) = none ∧
      ¬ WindowExact 1700000000000000000 "-9223372035154775808" := by
  have parsed : parseI64 "-9223372035154775808" = some (1700000000 - 2 ^ 63) := by decide +kernel
  refine ⟨pastWindow_iff.mpr ⟨_, parsed, by decide⟩, parsed, by decide, by decide, ?_⟩
  intro h
  exact h.checked _ parsed (by decide)

end EvoclawPluginWechat
