import EvoclawPluginWechat.Core.DigestQuery
import EvoclawPluginWechat.Library.Selection

/-!
What a date query is asked for, stated with the days of the week around the current one,
against what `query` returns. On a working day the range of `weekend` starts with the
current day.
-/
namespace EvoclawPluginWechat

/-- The Monday on or before this day. -/
def mondayOf (d : Int) : Int := d - (d - 1) % 7

/-- The days that a tag names on day `d`; `none` is all of them. -/
def DateTag.days (d : Int) : DateTag → Option (List Int)
  | .today => some [d]
  | .tomorrow => some [d + 1]
  | .weekend => some [mondayOf d + 5, mondayOf d + 6]
  | .week => some ((List.range 7).map fun i : Nat => mondayOf d + i)
  | .all => none

section
variable (parseDate : String → Option NaiveDate)

/-- The event is on that day; a missing end is the other end. -/
def Event.isOn (e : Event) (x : Int) : Bool :=
  let start := e.dateStart.bind parseDate
  let stop := e.dateEnd.bind parseDate
  match start.or stop, stop.or start with
  | some s, some t => decide (s.numDaysFromCe ≤ x ∧ x ≤ t.numDaysFromCe)
  | _, _ => false

def Event.Ordered (e : Event) : Prop :=
  ∀ s t, e.dateStart.bind parseDate = some s → e.dateEnd.bind parseDate = some t →
    s.numDaysFromCe ≤ t.numDaysFromCe

def EventFilter.agrees (f : EventFilter) (e : Event) : Bool :=
  f.country.all (e.country == some ·) && f.city.all (e.city == some ·) &&
    f.category.all (e.category == some ·) && f.timeOfDay.all fun tod => e.timeOfDay.all (· == tod)

/-- What the filter asks for on day `d`. -/
def EventFilter.wants (f : EventFilter) (d : Int) (e : Event) : Bool :=
  f.agrees e && (f.date.bind (DateTag.days d)).all fun days => days.any (e.isOn parseDate)

/-- An event for the rest of the working days, over before Saturday. -/
def EventFilter.beforeWeekend (f : EventFilter) (d : Int) (e : Event) : Bool :=
  let saturday := mondayOf d + 5
  f.agrees e && ((List.range (saturday - d).toNat).any fun i => e.isOn parseDate (d + i)) &&
    !(e.isOn parseDate saturday || e.isOn parseDate (saturday + 1))

/-- Such an event is in the digest with less than the limit of wanted ones before it. -/
def DigestSnapshot.Intrudes (snap : DigestSnapshot) (f : EventFilter) (d : Int) : Prop :=
  ∃ pre e post, snap.digestData.events = pre ++ e :: post ∧
    f.beforeWeekend parseDate d e = true ∧
    ∀ limit, f.limit = some limit → (pre.filter (f.wants parseDate d)).length < limit

end

namespace NaiveDate
variable {date : NaiveDate} {n : Int}

theorem addDays_eq_some_iff {date' : NaiveDate} :
    date.addDays n = some date' ↔ date'.numDaysFromCe = date.numDaysFromCe + n := by
  obtain ⟨m, inRange⟩ := date'
  rw [addDays]
  split_ifs with h
  · simp only [Option.some.injEq, NaiveDate.mk.injEq]
    exact eq_comm
  · simp only [false_iff]
    rintro rfl
    exact h inRange

theorem addDays_eq_none_iff : date.addDays n = none ↔ ¬ InRange (date.numDaysFromCe + n) := by
  rw [addDays]
  split_ifs with h
  · simp [h]
  · simp [h]

theorem numDaysFromMonday_weekday (date : NaiveDate) :
    date.weekday.numDaysFromMonday = (date.numDaysFromCe - 1) % 7 := by
  rw [weekday]
  split
  case h_7 mon tue wed thu fri sat =>
    change ¬ _ at mon tue wed thu fri sat
    change 6 = _
    omega
  all_goals
    next r => exact r.symm

end NaiveDate

/-- The range that the code compares with, by the numbers of its days. -/
def DateTag.bounds (d : Int) : DateTag → Int × Int
  | .today | .all => (d, d)
  | .tomorrow => (d + 1, d + 1)
  | .weekend => (min (mondayOf d + 5) d, mondayOf d + 6)
  | .week => (mondayOf d, mondayOf d + 6)

section
variable {tag : DateTag} {today : NaiveDate}

/-- On a Sunday the weekend began the day before, on any other day Saturday is ahead. -/
theorem dateTagRange_weekend (today : NaiveDate) : dateTagRange .weekend today =
    (today.addDays (5 - today.weekday.numDaysFromMonday)).bind fun sat =>
      (sat.addDays 1).bind fun sun => some (some (sat.min today, sun)) := by
  simp only [dateTagRange]
  cases today.weekday <;> rfl

theorem min_numDaysFromCe (a b : NaiveDate) :
    (a.min b).numDaysFromCe = min a.numDaysFromCe b.numDaysFromCe := by
  rw [NaiveDate.min]
  split_ifs <;> omega

theorem dateTagRange_spec {days : List Int} (h : tag.days today.numDaysFromCe = some days) :
    (∃ start stop : NaiveDate, dateTagRange tag today = some (some (start, stop)) ∧
      start.numDaysFromCe = (tag.bounds today.numDaysFromCe).1 ∧
      stop.numDaysFromCe = (tag.bounds today.numDaysFromCe).2 ∧ ∀ x ∈ days, NaiveDate.InRange x) ∨
    (dateTagRange tag today = none ∧ ∃ x ∈ days, ¬ NaiveDate.InRange x) := by
  have inRange := today.inRange
  cases tag with
  | all => cases h
  | today =>
      cases h
      exact .inl ⟨today, today, rfl, rfl, rfl, by simpa using inRange⟩
  | tomorrow =>
      cases h
      cases ht : today.addDays 1 with
      | none =>
          have out := NaiveDate.addDays_eq_none_iff.mp ht
          exact .inr ⟨by simp [dateTagRange, ht], _, List.mem_singleton_self _, out⟩
      | some t =>
          have number := NaiveDate.addDays_eq_some_iff.mp ht
          refine .inl ⟨t, t, by simp [dateTagRange, ht], number, number, ?_⟩
          intro x hx
          rw [List.mem_singleton.mp hx, ← number]
          exact t.inRange
  | weekend =>
      cases h
      rw [dateTagRange_weekend, NaiveDate.numDaysFromMonday_weekday]
      have saturday : today.numDaysFromCe + (5 - (today.numDaysFromCe - 1) % 7) =
          mondayOf today.numDaysFromCe + 5 := by rw [mondayOf]; omega
      cases hsat : today.addDays (5 - (today.numDaysFromCe - 1) % 7) with
      | none =>
          have out := NaiveDate.addDays_eq_none_iff.mp hsat
          rw [saturday] at out
          exact .inr ⟨rfl, _, List.mem_cons_self, out⟩
      | some sat =>
          have hsat := (NaiveDate.addDays_eq_some_iff.mp hsat).trans saturday
          rw [Option.bind_some]
          cases hsun : sat.addDays 1 with
          | none =>
              have out := NaiveDate.addDays_eq_none_iff.mp hsun
              rw [hsat, Int.add_assoc] at out
              exact .inr ⟨rfl, _, List.mem_cons_of_mem _ (List.mem_singleton_self _), out⟩
          | some sun =>
              have hsun := NaiveDate.addDays_eq_some_iff.mp hsun
              rw [hsat, Int.add_assoc] at hsun
              refine .inl ⟨sat.min today, sun, rfl, ?_, hsun, ?_⟩
              · rw [min_numDaysFromCe, hsat]
                rfl
              · intro x hx
                simp only [List.mem_cons, List.not_mem_nil, or_false] at hx
                obtain rfl | rfl := hx
                · exact hsat ▸ sat.inRange
                · exact hsun ▸ sun.inRange
  | week =>
      cases h
      simp only [dateTagRange, NaiveDate.numDaysFromMonday_weekday, List.mem_map]
      cases hmon : today.addDays (-((today.numDaysFromCe - 1) % 7)) with
      | none =>
          have out := NaiveDate.addDays_eq_none_iff.mp hmon
          exact .inr ⟨rfl, mondayOf today.numDaysFromCe, ⟨0, by decide, Int.add_zero _⟩, out⟩
      | some mon =>
          have hmon : mon.numDaysFromCe = mondayOf today.numDaysFromCe :=
            NaiveDate.addDays_eq_some_iff.mp hmon
          simp only [Option.bind_eq_bind, Option.bind_some, Option.pure_def]
          cases hsun : mon.addDays 6 with
          | none =>
              have out := NaiveDate.addDays_eq_none_iff.mp hsun
              rw [hmon] at out
              exact .inr ⟨rfl, mondayOf today.numDaysFromCe + 6, ⟨6, by decide, rfl⟩, out⟩
          | some sun =>
              have hsun := NaiveDate.addDays_eq_some_iff.mp hsun
              refine .inl ⟨mon, sun, rfl, hmon, by rw [hsun, hmon]; rfl, ?_⟩
              rintro x ⟨i, hi, rfl⟩
              have hi := List.mem_range.mp hi
              obtain ⟨first, _⟩ := mon.inRange
              obtain ⟨_, last⟩ := sun.inRange
              constructor
              · omega
              · omega

theorem bounds_ordered (d : Int) (tag : DateTag) : (tag.bounds d).1 ≤ (tag.bounds d).2 := by
  cases tag with
  | today | all | tomorrow => exact Int.le_refl _
  | weekend | week =>
      simp only [DateTag.bounds]
      omega

/-- Only the range of the weekend holds more than the days of the tag. -/
theorem mem_bounds_iff {d x : Int} {days : List Int} (h : tag.days d = some days) :
    (tag.bounds d).1 ≤ x ∧ x ≤ (tag.bounds d).2 ↔
      x ∈ days ∨ tag = .weekend ∧ d ≤ x ∧ x < mondayOf d + 5 := by
  cases tag with
  | all => cases h
  | today | tomorrow =>
      cases h
      simp only [DateTag.bounds, List.mem_singleton, reduceCtorEq, false_and, or_false]
      omega
  | weekend =>
      cases h
      simp only [DateTag.bounds, List.mem_cons, List.not_mem_nil, or_false, true_and]
      have : mondayOf d ≤ d ∧ d ≤ mondayOf d + 6 := by rw [mondayOf]; omega
      omega
  | week =>
      cases h
      simp only [DateTag.bounds, List.mem_map, List.mem_range, reduceCtorEq, false_and, or_false]
      constructor
      · intro within
        exact ⟨(x - mondayOf d).toNat, by omega, by omega⟩
      · rintro ⟨i, hi, rfl⟩
        omega

end

section
variable {parseDate : String → Option NaiveDate} {e : Event} {f : EventFilter}

theorem agrees_eq : f.agrees e = (scopeMatches f.country e.country &&
    scopeMatches f.city e.city && scopeMatches f.category e.category &&
    timeMatches f.timeOfDay e.timeOfDay) := by
  have scope : ∀ wanted field : Option String,
      scopeMatches wanted field = wanted.all (field == some ·) := by
    intro wanted field
    cases wanted <;> rfl
  have time : ∀ wanted field : Option String,
      timeMatches wanted field = wanted.all fun tod => field.all (· == tod) := by
    intro wanted field
    cases wanted <;> cases field <;> rfl
  rw [EventFilter.agrees, scope, scope, scope, time]

theorem isOn_of_interval {s t : NaiveDate} (h : eventInterval parseDate e = some (s, t))
    (x : Int) : e.isOn parseDate x = true ↔ s.numDaysFromCe ≤ x ∧ x ≤ t.numDaysFromCe := by
  unfold eventInterval at h
  unfold Event.isOn
  cases hs : e.dateStart.bind parseDate <;> cases ht : e.dateEnd.bind parseDate <;>
    simp only [hs, ht, reduceCtorEq, Option.some.injEq, Prod.mk.injEq] at h
  all_goals
    obtain ⟨rfl, rfl⟩ := h
    simp

theorem not_isOn_of_undated (h : eventInterval parseDate e = none) (x : Int) :
    e.isOn parseDate x = false := by
  unfold eventInterval at h
  unfold Event.isOn
  cases hs : e.dateStart.bind parseDate <;> cases ht : e.dateEnd.bind parseDate <;>
    simp only [hs, ht, reduceCtorEq] at h
  rfl

theorem interval_ordered {s t : NaiveDate} (ordered : e.Ordered parseDate)
    (h : eventInterval parseDate e = some (s, t)) : s.numDaysFromCe ≤ t.numDaysFromCe := by
  unfold eventInterval at h
  cases hs : e.dateStart.bind parseDate <;> cases ht : e.dateEnd.bind parseDate <;>
    simp only [hs, ht, reduceCtorEq, Option.some.injEq, Prod.mk.injEq] at h
  all_goals obtain ⟨rfl, rfl⟩ := h
  · exact Int.le_refl _
  · exact Int.le_refl _
  · exact ordered _ _ hs ht

theorem matchesFilter_iff {start stop : NaiveDate} (ordered : e.Ordered parseDate)
    (range : start.numDaysFromCe ≤ stop.numDaysFromCe) :
    matchesFilter parseDate e f (some (start, stop)) = true ↔
      f.agrees e = true ∧ ∃ x, (start.numDaysFromCe ≤ x ∧ x ≤ stop.numDaysFromCe) ∧
        e.isOn parseDate x = true := by
  rw [matchesFilter, ← agrees_eq, Bool.and_eq_true]
  apply and_congr_right
  intro _
  cases h : eventInterval parseDate e with
  | none => simp [not_isOn_of_undated h]
  | some interval =>
      obtain ⟨s, t⟩ := interval
      have st := interval_ordered ordered h
      simp only [isOn_of_interval h, Bool.not_eq_true', Bool.or_eq_false_iff,
        decide_eq_false_iff_not]
      constructor
      · intro overlap
        exact ⟨max start.numDaysFromCe s.numDaysFromCe, by omega, by omega⟩
      · rintro ⟨x, inside, on⟩
        omega

theorem wants_iff {d : Int} {tag : DateTag} {days : List Int} (hd : f.date = some tag)
    (h : tag.days d = some days) : f.wants parseDate d e = true ↔
      f.agrees e = true ∧ ∃ x ∈ days, e.isOn parseDate x = true := by
  simp only [EventFilter.wants, hd, Option.bind_some, h, Option.all_some, Bool.and_eq_true,
    List.any_eq_true]

theorem beforeWeekend_iff {d : Int} (hd : f.date = some .weekend) :
    f.beforeWeekend parseDate d e = true ↔ f.wants parseDate d e = false ∧
      f.agrees e = true ∧ ∃ x, (d ≤ x ∧ x < mondayOf d + 5) ∧ e.isOn parseDate x = true := by
  rw [← Bool.not_eq_true, wants_iff hd rfl]
  simp only [EventFilter.beforeWeekend, Bool.and_eq_true, List.any_eq_true, List.mem_range,
    Bool.not_eq_true', Bool.or_eq_false_iff, List.mem_cons, List.not_mem_nil, or_false]
  constructor
  · rintro ⟨⟨agrees, i, hi, on⟩, sat, sun⟩
    refine ⟨?_, agrees, d + i, by omega, on⟩
    rintro ⟨_, x, rfl | rfl, there⟩
    · cases sat.symm.trans there
    · rw [Int.add_assoc] at sun
      cases sun.symm.trans there
  · rintro ⟨off, agrees, x, ⟨lower, upper⟩, on⟩
    refine ⟨⟨agrees, (x - d).toNat, by omega, ?_⟩, ?_, ?_⟩
    · have there : d + ((x - d).toNat : Int) = x := by omega
      rwa [there]
    · exact Bool.eq_false_iff.mpr fun on => off ⟨agrees, _, .inl rfl, on⟩
    · rw [Int.add_assoc]
      exact Bool.eq_false_iff.mpr fun on => off ⟨agrees, _, .inr rfl, on⟩

theorem matchesFilter_ranged {d : Int} {tag : DateTag} {days : List Int} {start stop : NaiveDate}
    (hd : f.date = some tag) (h : tag.days d = some days)
    (hstart : start.numDaysFromCe = (tag.bounds d).1)
    (hstop : stop.numDaysFromCe = (tag.bounds d).2) (ordered : e.Ordered parseDate) :
    matchesFilter parseDate e f (some (start, stop)) = true ↔ f.wants parseDate d e = true ∨
      tag = .weekend ∧ f.beforeWeekend parseDate d e = true := by
  rw [matchesFilter_iff ordered (by rw [hstart, hstop]; exact bounds_ordered d tag), hstart, hstop]
  simp only [mem_bounds_iff h]
  constructor
  · rintro ⟨agrees, x, inside, on⟩
    cases wanted : f.wants parseDate d e with
    | true => exact .inl rfl
    | false =>
        obtain hx | ⟨rfl, before⟩ := inside
        · have := (wants_iff hd h).mpr ⟨agrees, x, hx, on⟩
          cases wanted.symm.trans this
        · exact .inr ⟨rfl, (beforeWeekend_iff hd).mpr ⟨wanted, agrees, x, before, on⟩⟩
  · rintro (wanted | ⟨rfl, before⟩)
    · obtain ⟨agrees, x, hx, on⟩ := (wants_iff hd h).mp wanted
      exact ⟨agrees, x, .inl hx, on⟩
    · obtain ⟨_, agrees, x, inside, on⟩ := (beforeWeekend_iff hd).mp before
      exact ⟨agrees, x, .inr ⟨rfl, inside⟩, on⟩

theorem takeLimit_filter_eq_iff {p q : Event → Bool} {l : List Event} {limit : Option Nat}
    (stricter : ∀ x ∈ l, q x = true → p x = true) :
    takeLimit limit (l.filter p) = takeLimit limit (l.filter q) ↔
      ¬ ∃ pre x post, l = pre ++ x :: post ∧ (p x = true ∧ q x = false) ∧
        ∀ n, limit = some n → (pre.filter q).length < n := by
  cases limit with
  | none =>
      rw [takeLimit, takeLimit, Selection.filter_eq_iff stricter]
      constructor
      · rintro all ⟨pre, x, post, rfl, ⟨hp, hq⟩, _⟩
        have := all x (List.mem_append_right _ List.mem_cons_self) hp
        cases hq.symm.trans this
      · intro none x hx hp
        obtain ⟨pre, post, rfl⟩ := List.append_of_mem hx
        by_contra hq
        have hq := Bool.eq_false_iff.mpr hq
        exact none ⟨pre, x, post, rfl, ⟨hp, hq⟩, fun _ h => by cases h⟩
  | some n =>
      rw [takeLimit, takeLimit, Selection.take_filter_eq_iff stricter]
      apply not_congr
      constructor
      · rintro ⟨pre, x, post, split, hp, hq, short⟩
        exact ⟨pre, x, post, split, ⟨hp, hq⟩, fun m h => Option.some.inj h ▸ short⟩
      · rintro ⟨pre, x, post, split, ⟨hp, hq⟩, short⟩
        exact ⟨pre, x, post, split, hp, hq, short n rfl⟩

theorem query_of_range {snap : DigestSnapshot} {today : NaiveDate}
    {range : Option (NaiveDate × NaiveDate)}
    (h : (f.date.elim (some none) fun tag => dateTagRange tag today) = some range) :
    snap.query parseDate f today = .returned (takeLimit f.limit
      (snap.digestData.events.filter fun e => matchesFilter parseDate e f range)) := by
  rw [DigestSnapshot.query, h]

theorem matchesFilter_none {d : Int} (h : f.date.bind (DateTag.days d) = none) :
    matchesFilter parseDate e f none = f.wants parseDate d e := by
  rw [matchesFilter, ← agrees_eq, EventFilter.wants, h]
  rfl

end

theorem query_means_tag_iff (parseDate : String → Option NaiveDate) (snap : DigestSnapshot)
    (f : EventFilter) (today : NaiveDate)
    (ordered : ∀ e ∈ snap.digestData.events, e.Ordered parseDate) :
    snap.query parseDate f today = .returned (takeLimit f.limit
        (snap.digestData.events.filter (f.wants parseDate today.numDaysFromCe))) ↔
      (∀ days, f.date.bind (DateTag.days today.numDaysFromCe) = some days →
        ∀ x ∈ days, NaiveDate.InRange x) ∧
      (f.date = some .weekend → ¬ snap.Intrudes parseDate f today.numDaysFromCe) := by
  cases hdays : f.date.bind (DateTag.days today.numDaysFromCe) with
  | none =>
      have range : (f.date.elim (some none) fun tag => dateTagRange tag today) = some none := by
        cases hd : f.date with
        | none => rfl
        | some tag =>
            rw [hd] at hdays
            cases tag with
            | all => rfl
            | _ => cases hdays
      rw [query_of_range range]
      refine iff_of_true ?_ ⟨fun _ h => (by cases h), fun hd => ?_⟩
      · simp only [matchesFilter_none hdays]
      · rw [hd] at hdays
        cases hdays
  | some days =>
      obtain ⟨tag, hd, h⟩ := Option.bind_eq_some_iff.mp hdays
      obtain ⟨start, stop, range, hstart, hstop, exist⟩ | ⟨panic, x, hx, out⟩ :=
        dateTagRange_spec h
      · have matching : ∀ e ∈ snap.digestData.events,
            matchesFilter parseDate e f (some (start, stop)) = true ↔
              f.wants parseDate today.numDaysFromCe e = true ∨
                tag = .weekend ∧ f.beforeWeekend parseDate today.numDaysFromCe e = true :=
          fun e he => matchesFilter_ranged hd h hstart hstop (ordered e he)
        have chosen : ∀ e ∈ snap.digestData.events,
            (matchesFilter parseDate e f (some (start, stop)) = true ∧
              f.wants parseDate today.numDaysFromCe e = false) ↔
            tag = .weekend ∧ f.beforeWeekend parseDate today.numDaysFromCe e = true := by
          intro e he
          rw [matching e he]
          constructor
          · rintro ⟨wanted | intruder, unwanted⟩
            · cases unwanted.symm.trans wanted
            · exact intruder
          · rintro ⟨rfl, before⟩
            exact ⟨.inr ⟨rfl, before⟩, ((beforeWeekend_iff hd).mp before).1⟩
        rw [query_of_range (by rw [hd]; exact range), Outcome.returned.injEq,
          takeLimit_filter_eq_iff fun e he wanted => (matching e he).mpr (.inl wanted)]
        constructor
        · intro clean
          refine ⟨fun _ same => Option.some.inj same ▸ exist, ?_⟩
          rintro weekend ⟨pre, e, post, split, before, short⟩
          obtain rfl := Option.some.inj (hd.symm.trans weekend)
          have he : e ∈ snap.digestData.events := split ▸ List.mem_append_right _ List.mem_cons_self
          exact clean ⟨pre, e, post, split, (chosen e he).mpr ⟨rfl, before⟩, short⟩
        · rintro ⟨_, clean⟩ ⟨pre, e, post, split, intruder, short⟩
          have he : e ∈ snap.digestData.events := split ▸ List.mem_append_right _ List.mem_cons_self
          obtain ⟨rfl, before⟩ := (chosen e he).mp intruder
          exact clean hd ⟨pre, e, post, split, before, short⟩
      · refine iff_of_false ?_ fun ok => out (ok.1 days rfl x hx)
        rw [DigestSnapshot.query, hd]
        simp [panic]

theorem not_intrudes_on_weekend {parseDate : String → Option NaiveDate} {snap : DigestSnapshot}
    {f : EventFilter} {d : Int} (h : mondayOf d + 5 ≤ d) : ¬ snap.Intrudes parseDate f d := by
  rintro ⟨_, e, _, _, before, _⟩
  have passed : (mondayOf d + 5 - d).toNat = 0 := by omega
  simp [EventFilter.beforeWeekend, passed] at before

def fairDay : NaiveDate := ⟨739756, by decide⟩

def fairSaturday : NaiveDate := ⟨739759, by decide⟩

def parseFairDay (s : String) : Option NaiveDate := if s = "2026-05-20" then some fairDay else none

def fair : Event :=
  { id := "a", title := "Book fair", description := "", country := none, city := none,
    category := none, dateStart := some "2026-05-20", dateEnd := none, timeOfDay := none,
    venue := none, url := none, imageUrl := none }

def fairDigest : DigestSnapshot := ⟨⟨1, "2026-05-16T00:00:00Z", []⟩, ⟨1, [fair]⟩⟩

theorem fair_ordered : ∀ e ∈ fairDigest.digestData.events, e.Ordered parseFairDay := by
  intro e he s t _ stop
  obtain rfl := List.mem_singleton.mp he
  cases stop

/-- Asked on the Saturday, the fair of that week is no weekend event. -/
theorem query_means_tag_iff_saturday :
    fairDigest.query parseFairDay { date := some .weekend } fairSaturday =
      .returned (takeLimit none (fairDigest.digestData.events.filter
        (EventFilter.wants parseFairDay { date := some .weekend } 739759))) :=
  (query_means_tag_iff parseFairDay fairDigest { date := some .weekend } fairSaturday
    fair_ordered).mpr ⟨fun days h x hx => by
      obtain rfl := Option.some.inj h
      revert x
      decide, fun _ => not_intrudes_on_weekend (by decide)⟩

/-- Asked on the Wednesday, the fair of that day is returned for the weekend. -/
theorem weekend_query_returns_wednesday :
    fairDigest.query parseFairDay { date := some .weekend } fairDay = .returned [fair] ∧
      fairDay.weekday = .wed ∧
      EventFilter.wants parseFairDay { date := some .weekend } 739756 fair = false ∧
      fairDigest.query parseFairDay { date := some .weekend } fairDay ≠
        .returned (takeLimit none (fairDigest.digestData.events.filter
          (EventFilter.wants parseFairDay { date := some .weekend } 739756))) := by
  have unwanted : EventFilter.wants parseFairDay { date := some .weekend } 739756 fair = false := by
    decide
  have returned : fairDigest.query parseFairDay { date := some .weekend } fairDay =
      .returned [fair] := rfl
  refine ⟨returned, rfl, unwanted, ?_⟩
  rw [returned, fairDigest, List.filter_cons_of_neg (by simp [unwanted])]
  intro same
  cases same

end EvoclawPluginWechat
