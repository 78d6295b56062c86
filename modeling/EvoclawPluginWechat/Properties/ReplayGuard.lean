import EvoclawPluginWechat.Core.Caches
import EvoclawPluginWechat.Library.Runs

/-!
Replay protection over time. The nonce cache forgets an accepted nonce exactly
300 s after the acceptance, while the timestamp window is inclusive and counts
whole seconds on both sides of the clock; whether a pair can be accepted again
is decided by where its timestamp lies at the first acceptance.
-/
namespace EvoclawPluginWechat
open Transition

theorem outsideWindow_eq_false_iff (now tsNum : Int) (h0 : 0 ≤ now) (h1 : now < 2 ^ 62)
    (hts : inI64 tsNum) :
    outsideWindow now tsNum = false ↔
      (-300 ≤ now - tsNum ∧ now - tsNum ≤ 300) ∨ now - tsNum = 2 ^ 63 := by
  rw [outsideWindow, decide_eq_false_iff_not]
  simp only [inI64, i64Min, i64Max] at hts
  simp only [absI64, replayWindowSecs]
  by_cases hz : now - tsNum < 2 ^ 63
  · rw [wrapI64_eq _ (by omega) hz]
    split
    · rw [wrapI64_eq _ (by omega) (by omega)]
      omega
    · omega
  · rw [wrapI64_above _ (by omega) (by omega), if_pos (by omega)]
    by_cases he : now - tsNum = 2 ^ 63
    · rw [wrapI64_above _ (by omega) (by omega)]
      omega
    · rw [wrapI64_eq _ (by omega) (by omega)]
      omega

theorem currentUnixSecs_eq (t : Int) (h : t < 2 ^ 62 * 1000000000) :
    currentUnixSecs t = if t < 0 then 0 else t / 1000000000 := by
  simp only [currentUnixSecs]
  split
  · rfl
  · exact wrapI64_eq _ (by omega) (by omega)

/-- A timestamp that left the window does not come back into it. -/
theorem outsideWindow_stays (t t' t'' : Int) {tsNum : Int} (hts : inI64 tsNum)
    (h : t ≤ t') (h' : t' ≤ t'') (range : t'' < 2 ^ 62 * 1000000000)
    (inside : outsideWindow (currentUnixSecs t) tsNum = false)
    (left : outsideWindow (currentUnixSecs t') tsNum = true) :
    outsideWindow (currentUnixSecs t'') tsNum = true := by
  by_contra back
  have back := Bool.eq_false_iff.mpr back
  have left : ¬ outsideWindow (currentUnixSecs t') tsNum = false := by simp [left]
  have range' : t' < 2 ^ 62 * 1000000000 := Int.lt_of_le_of_lt h' range
  rw [currentUnixSecs_eq _ (Int.lt_of_le_of_lt h range'),
    outsideWindow_eq_false_iff _ _ (by split <;> omega) (by split <;> omega) hts] at inside
  rw [currentUnixSecs_eq _ range',
    outsideWindow_eq_false_iff _ _ (by split <;> omega) (by split <;> omega) hts] at left
  rw [currentUnixSecs_eq _ range,
    outsideWindow_eq_false_iff _ _ (by split <;> omega) (by split <;> omega) hts] at back
  simp only [inI64, i64Min, i64Max] at hts
  split at inside <;> split at left <;> split at back <;> omega

/-- The nonce was seen at this instant or later, or the cache is out of use. -/
def NonceCache.Remembers (cache : NonceCache) (nonce : String) (t : Int) : Prop :=
  cache.poisoned = true ∨ ∃ u, cache.value.lookup nonce = some u ∧ t ≤ u

theorem lookup_kept {v : Table String Int} {nonce : String} {t u cutoff : Int}
    (hu : v.lookup nonce = some u) (htu : t ≤ u) (hc : cutoff < t) :
    (Table.retain (fun _ seenAt => decide (seenAt > cutoff)) v).lookup nonce = some u :=
  Table.lookup_retain_eq_some.mpr ⟨hu, decide_eq_true (Int.lt_of_lt_of_le hc htu)⟩

/-- The part of `check_replay` that does not look into the table: the cutoff, or the result. -/
def beforeLookup (poisoned : Bool) (wall cutoffNow : Int) (ts : String) :
    Outcome (Except String Int) :=
  match parseI64 ts with
  | none => .returned (.error "non-numeric timestamp")
  | some tsNum =>
      if outsideWindow (currentUnixSecs wall) tsNum then
        .returned (.error "timestamp outside ±300s window")
      else if poisoned then .returned (.error "nonce cache poisoned")
      else match Instant.sub cutoffNow (Duration.fromSecs 300) with
        | none => .panicked
        | some cutoff => .returned (.ok cutoff)

/-- The rest of `check_replay`. -/
def NonceCache.look (cache : NonceCache) (cutoff insertNow : Int) (nonce : String) :
    Outcome (Except String Unit) × NonceCache :=
  let kept := Table.retain (fun _ seenAt => decide (seenAt > cutoff)) cache.value
  if (kept.lookup nonce).isSome then
    (.returned (.error "nonce already seen within replay window"), ⟨kept, false⟩)
  else (.returned (.ok ()), ⟨kept.insert nonce insertNow, false⟩)

theorem checkReplay_eq (cache : NonceCache) (wall cutoffNow insertNow : Int) (ts nonce : String) :
    checkReplay cache wall cutoffNow insertNow ts nonce =
      match beforeLookup cache.poisoned wall cutoffNow ts with
      | .panicked => (.panicked, ⟨cache.value, true⟩)
      | .returned (.error e) => (.returned (.error e), cache)
      | .returned (.ok cutoff) => cache.look cutoff insertNow nonce := by
  have window : replayWindowSecs.toNat = 300 := rfl
  rw [checkReplay, beforeLookup, window]
  cases parseI64 ts with
  | none => rfl
  | some tsNum =>
      simp only
      split_ifs
      · rfl
      · rfl
      · cases Instant.sub cutoffNow (Duration.fromSecs 300) with
        | none => rfl
        | some cutoff => rfl

theorem beforeLookup_ok_iff {poisoned : Bool} {wall cutoffNow cutoff : Int} {ts : String} :
    beforeLookup poisoned wall cutoffNow ts = .returned (.ok cutoff) ↔
      ∃ tsNum, parseI64 ts = some tsNum ∧ outsideWindow (currentUnixSecs wall) tsNum = false ∧
        poisoned = false ∧ Instant.sub cutoffNow (Duration.fromSecs 300) = some cutoff := by
  rw [beforeLookup]
  cases parseI64 ts with
  | none => simp
  | some tsNum =>
      cases outside : outsideWindow (currentUnixSecs wall) tsNum with
      | true => simp [outside]
      | false =>
          cases poisoned with
          | true => simp [outside]
          | false =>
              cases Instant.sub cutoffNow (Duration.fromSecs 300) with
              | none => simp [outside]
              | some c => simp [outside]

theorem NonceCache.look_ok_iff {cache : NonceCache} {cutoff insertNow : Int} {nonce : String} :
    (cache.look cutoff insertNow nonce).1 = .returned (.ok ()) ↔
      (Table.retain (fun _ seenAt => decide (seenAt > cutoff)) cache.value).lookup nonce =
        none := by
  rw [look]
  split_ifs with seen
  · simp [Option.isSome_iff_ne_none.mp seen]
  · simpa using seen

theorem checkReplay_ok_iff {cache : NonceCache} {wall cutoffNow insertNow : Int}
    {ts nonce : String} :
    (checkReplay cache wall cutoffNow insertNow ts nonce).1 = .returned (.ok ()) ↔
      ∃ tsNum cutoff, parseI64 ts = some tsNum ∧
        outsideWindow (currentUnixSecs wall) tsNum = false ∧ cache.poisoned = false ∧
        Instant.sub cutoffNow (Duration.fromSecs 300) = some cutoff ∧
        (Table.retain (fun _ seenAt => decide (seenAt > cutoff)) cache.value).lookup nonce =
          none := by
  rw [checkReplay_eq]
  constructor
  · intro ok
    split at ok
    · cases ok
    · cases ok
    · next cutoff before =>
        obtain ⟨tsNum, hp, hw, hq, hc⟩ := beforeLookup_ok_iff.mp before
        exact ⟨tsNum, cutoff, hp, hw, hq, hc, NonceCache.look_ok_iff.mp ok⟩
  · rintro ⟨tsNum, cutoff, hp, hw, hq, hc, fresh⟩
    rw [beforeLookup_ok_iff.mpr ⟨tsNum, hp, hw, hq, hc⟩]
    exact NonceCache.look_ok_iff.mpr fresh

theorem checkReplay_ok_inserts {cache : NonceCache} {wall cutoffNow insertNow : Int}
    {ts nonce : String}
    (h : (checkReplay cache wall cutoffNow insertNow ts nonce).1 = .returned (.ok ())) :
    ∃ kept : Table String Int, (checkReplay cache wall cutoffNow insertNow ts nonce).2 =
      ⟨kept.insert nonce insertNow, false⟩ := by
  rw [checkReplay_eq] at h ⊢
  split at h
  · cases h
  · cases h
  · rw [NonceCache.look, NonceCache.look_ok_iff.mp h]
    exact ⟨_, rfl⟩

/-- A check, of whatever pair, forgets no nonce younger than the window. -/
theorem checkReplay_remembers {cache : NonceCache} {nonce : String} {t now : Int}
    (h : cache.Remembers nonce t) (old : t ≤ now) (young : now - t < 300 * 1000000000)
    (wall : Int) (ts nonce' : String) :
    (checkReplay cache wall now now ts nonce').2.Remembers nonce t := by
  rw [checkReplay_eq]
  split
  · exact .inl rfl
  · exact h
  · next cutoff before =>
      obtain ⟨_, _, _, unpoisoned, hc⟩ := beforeLookup_ok_iff.mp before
      have hc := (Instant.sub_eq_some.mp hc).2
      obtain bad | ⟨u, hu, htu⟩ := h
      · rw [unpoisoned] at bad
        cases bad
      · have after : cutoff < t := by
          change now - (300 * 1000000000 : Int) = cutoff at hc
          omega
        have kept := lookup_kept hu htu after
        rw [NonceCache.look]
        split_ifs
        · exact .inr ⟨u, kept, htu⟩
        · refine .inr ?_
          rw [Table.lookup_insert_eq]
          split
          · exact ⟨now, rfl, old⟩
          · exact ⟨u, kept, htu⟩

theorem sweepCache_remembers {cache : NonceCache} {nonce : String} {t now : Int}
    (h : cache.Remembers nonce t) (young : now - t < 300 * 1000000000) :
    NonceCache.Remembers (sweepCache cache now (Duration.fromSecs 300) id).2 nonce t := by
  simp only [sweepCache]
  split
  · exact h
  · next ok =>
      obtain bad | ⟨u, hu, htu⟩ := h
      · exact absurd bad ok
      · split
        · exact .inl rfl
        · next cutoff hc =>
            have hc := (Instant.sub_eq_some.mp hc).2
            have hlt : cutoff < t := by
              change now - (300 * 1000000000 : Int) = cutoff at hc
              omega
            exact .inr ⟨u, lookup_kept hu htu hlt, htu⟩

theorem gc_nonce (c : Caches) (now : Int) :
    (c.gc now now).2.nonce = c.nonce ∨
      (c.gc now now).2.nonce = (sweepCache c.nonce now (Duration.fromSecs 300) id).2 := by
  simp only [Caches.gc]
  split
  · exact .inl rfl
  · split
    · next h => exact .inr (congrArg Prod.snd h).symm
    · next h => exact .inr (congrArg Prod.snd h).symm

namespace CacheRun

/-- The clock stays below 2^62 seconds; it may stand before the epoch. -/
def ClockInRange (s : CacheRun) : Prop := s.wall < 2 ^ 62 * 1000000000

instance (s : CacheRun) : Decidable s.ClockInRange := inferInstanceAs (Decidable (_ < _))

def allowed (s : CacheRun) (_ : Act) : Prop := s.ClockInRange

/-- The state as the clocks will find it 300 s from now. -/
def windowLater (s : CacheRun) : CacheRun :=
  { s with wall := s.wall + 300 * 1000000000, now := s.now + 300 * 1000000000 }

/-- 300 s from now, when the nonce will be forgotten, the timestamp is out of the
window. -/
def Outlived (s : CacheRun) (ts : String) : Prop :=
  ∃ tsNum, parseI64 ts = some tsNum ∧
    outsideWindow (currentUnixSecs s.windowLater.wall) tsNum = true

/-- What a run keeps after an acceptance at `s`: the clocks go on together, and the
nonce is remembered for the length of the window. -/
structure Since (s : CacheRun) (nonce : String) (t : CacheRun) : Prop where
  later : s.now ≤ t.now
  together : t.wall - t.now = s.wall - s.now
  remembers : t.now - s.now < 300 * 1000000000 → t.caches.nonce.Remembers nonce s.now

theorem since_step {s t t' : CacheRun} {nonce : String} (h : Since s nonce t) (a : Act)
    (ht : t.step a = some t') : Since s nonce t' := by
  have later := h.later
  have together := h.together
  cases a with
  | tick d =>
      cases ht
      refine ⟨?_, ?_, fun young => h.remembers ?_⟩
      · change s.now ≤ t.now + (d : Int)
        omega
      · change t.wall + (d : Int) - (t.now + d) = _
        omega
      · change t.now + (d : Int) - s.now < _ at young
        omega
  | checkReplay ts nonce' =>
      cases ht
      exact ⟨later, together, fun young =>
        checkReplay_remembers (h.remembers young) later young t.wall ts nonce'⟩
  | lookupCachedReply key => cases ht; exact ⟨later, together, h.remembers⟩
  | storeReply key reply => cases ht; exact ⟨later, together, h.remembers⟩
  | gcCaches =>
      cases ht
      refine ⟨later, together, fun young => ?_⟩
      obtain same | swept := gc_nonce t.caches t.now
      · exact same ▸ h.remembers young
      · exact swept ▸ sweepCache_remembers (h.remembers young) young

theorem since_accepted {s s' : CacheRun} {ts nonce : String} (accepted : s.Accepts ts nonce)
    (hs : s.step (.checkReplay ts nonce) = some s') : Since s nonce s' := by
  obtain ⟨kept, after⟩ := checkReplay_ok_inserts accepted
  cases hs
  refine ⟨Int.le_refl _, rfl, fun _ => .inr ⟨s.now, ?_, Int.le_refl _⟩⟩
  change (s.checked ts nonce).2.value.lookup nonce = some s.now
  rw [checked, after]
  exact AList.lookup_insert _

theorem Since.accepts_late {s t : CacheRun} {ts nonce : String} (h : Since s nonce t)
    (again : t.Accepts ts nonce) : s.now + 300 * 1000000000 ≤ t.now := by
  obtain ⟨_, cutoff, _, _, unpoisoned, hc, fresh⟩ := checkReplay_ok_iff.mp again
  by_contra young
  obtain bad | ⟨u, hu, hle⟩ := h.remembers (by omega)
  · rw [unpoisoned] at bad
    cases bad
  · have hc := (Instant.sub_eq_some.mp hc).2
    change t.now - (300 * 1000000000 : Int) = cutoff at hc
    rw [lookup_kept hu hle (by omega)] at fresh
    cases fresh

/-- 300 s after the acceptance the nonce is forgotten, to the nanosecond. -/
theorem accepts_again {s s' : CacheRun} {ts nonce : String} {tsNum : Int}
    (accepted : s.Accepts ts nonce) (hs : s.step (.checkReplay ts nonce) = some s')
    (hts : parseI64 ts = some tsNum)
    (inside : outsideWindow (currentUnixSecs s.windowLater.wall) tsNum = false) :
    s'.windowLater.Accepts ts nonce := by
  obtain ⟨_, cutoff, _, _, _, hc, _⟩ := checkReplay_ok_iff.mp accepted
  obtain ⟨kept, after⟩ := checkReplay_ok_inserts accepted
  have representable := (Instant.sub_eq_some.mp hc).1
  change _ ≤ s.now - (300 * 1000000000 : Int) at representable
  obtain rfl : { s with caches.nonce := ⟨kept.insert nonce s.now, false⟩ } = s' := by
    rw [← after]
    exact Option.some.inj hs
  refine checkReplay_ok_iff.mpr ⟨tsNum, s.now, hts, inside, rfl, ?_, ?_⟩
  · refine Instant.sub_eq_some.mpr ?_
    change _ ≤ s.now + 300 * 1000000000 - (300 * 1000000000 : Int) ∧
      s.now + 300 * 1000000000 - (300 * 1000000000 : Int) = s.now
    omega
  · rw [Table.lookup_retain]
    change (AList.lookup nonce (kept.insert nonce s.now)).filter _ = none
    rw [AList.lookup_insert]
    simp

theorem outlived_iff_older {s : CacheRun} {ts nonce : String} (accepted : s.Accepts ts nonce)
    (range : s.windowLater.ClockInRange) (epoch : 0 ≤ s.wall) :
    s.Outlived ts ↔ ∃ tsNum, parseI64 ts = some tsNum ∧ tsNum < currentUnixSecs s.wall := by
  obtain ⟨tsNum, _, hts, inside, _⟩ := checkReplay_ok_iff.mp accepted
  have bounds := parseI64_inI64 hts
  have later : s.windowLater.wall = s.wall + 300 * 1000000000 := rfl
  have range' : s.wall + 300 * 1000000000 < 2 ^ 62 * 1000000000 := range
  simp only [Outlived, hts, Option.some.injEq, exists_eq_left', later, ← Bool.not_eq_false]
  rw [currentUnixSecs_eq _ (by omega), if_neg (by omega),
    outsideWindow_eq_false_iff _ _ (by omega) (by omega) bounds] at inside
  rw [currentUnixSecs_eq _ range', currentUnixSecs_eq _ (by omega), if_neg (by omega),
    if_neg (by omega), outsideWindow_eq_false_iff _ _ (by omega) (by omega) bounds]
  simp only [inI64, i64Min, i64Max] at bounds
  omega

/-- After an acceptance the pair is refused in every continuation of the run, other
requests and sweeps included, exactly when its timestamp is out of the window by the
time the nonce is forgotten. With a clock past the epoch this says that the
timestamp is older than the server's current second. -/
theorem accepted_once_iff_outlived {s s' : CacheRun} {ts nonce : String}
    (accepted : s.Accepts ts nonce) (hs : s.step (.checkReplay ts nonce) = some s')
    (range : s.windowLater.ClockInRange) :
    ((∀ as t, Run step allowed s' as t → t.ClockInRange → ¬ t.Accepts ts nonce) ↔
      s.Outlived ts) ∧
    (0 ≤ s.wall → (s.Outlived ts ↔
      ∃ tsNum, parseI64 ts = some tsNum ∧ tsNum < currentUnixSecs s.wall)) := by
  refine ⟨⟨fun never => ?_, fun outlived as t run inRange again => ?_⟩,
    outlived_iff_older accepted range⟩
  · obtain ⟨tsNum, _, hts, _⟩ := checkReplay_ok_iff.mp accepted
    refine ⟨tsNum, hts, ?_⟩
    by_contra inside
    have walls : s'.wall = s.wall := by cases hs; rfl
    have inRange : s'.windowLater.ClockInRange := by
      change s'.wall + _ < _
      rw [walls]
      exact range
    have start : s'.ClockInRange := by
      change s'.wall < _
      change s'.wall + _ < _ at inRange
      omega
    have run : Run step allowed s' [.tick (Duration.fromSecs 300)] s'.windowLater :=
      .cons start rfl (.nil _)
    exact never _ _ run inRange (accepts_again accepted hs hts (Bool.eq_false_iff.mpr inside))
  · have since := run.invariant (fun _ a _ h _ ht => since_step h a ht)
      (since_accepted accepted hs)
    obtain ⟨tsNum, hts, left⟩ := outlived
    obtain ⟨_, _, hts', inside, _⟩ := checkReplay_ok_iff.mp accepted
    obtain ⟨_, _, hts'', back, _⟩ := checkReplay_ok_iff.mp again
    obtain rfl := Option.some.inj (hts.symm.trans hts')
    obtain rfl := Option.some.inj (hts.symm.trans hts'')
    have late := since.accepts_late again
    have together := since.together
    have stays := outsideWindow_stays s.wall s.windowLater.wall t.wall (parseI64_inI64 hts)
      (by change s.wall ≤ s.wall + 300 * 1000000000; omega)
      (by change s.wall + 300 * 1000000000 ≤ t.wall; omega) inRange inside left
    rw [stays] at back
    cases back

/-- A server that has just started, half a second into the second 1700000000. -/
def freshStart : CacheRun := ⟨Caches.new, 1700000000500000000, 5000000000⟩

/-- A timestamp one second old is refused for good once it was accepted. -/
theorem accepted_once_iff_outlived_older :
    ∃ s', freshStart.step (.checkReplay "1699999999" "nonce-A") = some s' ∧
      ∀ as t, Run step allowed s' as t → t.ClockInRange →
        ¬ t.Accepts "1699999999" "nonce-A" := by
  have accepted : freshStart.Accepts "1699999999" "nonce-A" := rfl
  have once := (accepted_once_iff_outlived accepted rfl (by decide)).1
  exact ⟨_, rfl, once.mpr ⟨1699999999, rfl, rfl⟩⟩

/-- The timestamp of the current second is accepted again 300 s later, to the
nanosecond, when the cache forgets the nonce. -/
theorem accepted_again_at_expiry :
    ∃ s' t, freshStart.Accepts "1700000000" "nonce-A" ∧
      freshStart.step (.checkReplay "1700000000" "nonce-A") = some s' ∧
      Run step anyStep s' [.tick (Duration.fromSecs 300)] t ∧
      t.Accepts "1700000000" "nonce-A" :=
  ⟨_, _, rfl, rfl, run_iff_exec.mpr rfl, rfl⟩

end CacheRun
end EvoclawPluginWechat
