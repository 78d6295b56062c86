import EvoclawPluginWechat.Core.Caches
import EvoclawPluginWechat.Core.DigestCache

/-!
`DigestSnapshot::query`: the events of a digest that match a filter on a given day. Of
chrono's calendar only the count of days and the days of the week are modelled; its
parser is a parameter.
-/
namespace EvoclawPluginWechat

inductive Weekday
  | mon | tue | wed | thu | fri | sat | sun
  deriving DecidableEq

def Weekday.numDaysFromMonday : Weekday → Int
  | .mon => 0
  | .tue => 1
  | .wed => 2
  | .thu => 3
  | .fri => 4
  | .sat => 5
  | .sun => 6

/-- Between `NaiveDate::MIN` and `NaiveDate::MAX`, as `num_days_from_ce` counts. -/
def NaiveDate.InRange (n : Int) : Prop := -95746129 ≤ n ∧ n ≤ 95745399

instance (n : Int) : Decidable (NaiveDate.InRange n) := inferInstanceAs (Decidable (_ ∧ _))

structure NaiveDate where
  numDaysFromCe : Int
  inRange : NaiveDate.InRange numDaysFromCe
  deriving DecidableEq

namespace NaiveDate

/-- `date + Duration::days(n)`, which panics when there is no such date. -/
def addDays (date : NaiveDate) (n : Int) : Option NaiveDate :=
  if h : InRange (date.numDaysFromCe + n) then some ⟨date.numDaysFromCe + n, h⟩ else none

/-- The first day of the common era, which has the number 1, is a Monday. -/
def weekday (date : NaiveDate) : Weekday :=
  match (date.numDaysFromCe - 1) % 7 with
  | 0 => .mon
  | 1 => .tue
  | 2 => .wed
  | 3 => .thu
  | 4 => .fri
  | 5 => .sat
  | _ => .sun

/-- `Ord::min`. -/
def min (a b : NaiveDate) : NaiveDate := if b.numDaysFromCe < a.numDaysFromCe then b else a

end NaiveDate

inductive DateTag
  | today
  | tomorrow
  | weekend
  | week
  | all
  deriving DecidableEq

structure EventFilter where
  date : Option DateTag := none
  country : Option String := none
  city : Option String := none
  category : Option String := none
  timeOfDay : Option String := none
  limit : Option Nat := none

/-- The outer `none` is a panic of the calendar. -/
def dateTagRange (tag : DateTag) (today : NaiveDate) : Option (Option (NaiveDate × NaiveDate)) :=
  match tag with
  | .all => some none
  | .today => some (some (today, today))
  | .tomorrow => do
      let t ← today.addDays 1
      return some (t, t)
  | .weekend => do
      let dow := today.weekday
      let daysToSat :=
        match dow with
        | .mon => 5
        | .tue => 4
        | .wed => 3
        | .thu => 2
        | .fri => 1
        | .sat => 0
        | .sun => 6
      let sat ← today.addDays (if dow = .sun then -1 else daysToSat)
      let sun ← sat.addDays 1
      return some (sat.min today, sun)
  | .week => do
      let mon ← today.addDays (-today.weekday.numDaysFromMonday)
      let sun ← mon.addDays 6
      return some (mon, sun)

/-- `country`, `city` and `category`: an event without the field matches no tag. -/
def scopeMatches (wanted field : Option String) : Bool :=
  match wanted with
  | none => true
  | some tag => field == some tag

/-- `time_of_day`: an event without the field matches every tag. -/
def timeMatches (wanted field : Option String) : Bool :=
  match wanted, field with
  | some tod, some other => other == tod
  | _, _ => true

/-- The event's days, where it has only one end just that day. -/
def eventInterval (parseDate : String → Option NaiveDate) (e : Event) :
    Option (NaiveDate × NaiveDate) :=
  match e.dateStart.bind parseDate, e.dateEnd.bind parseDate with
  | some s, some t => some (s, t)
  | some s, none => some (s, s)
  | none, some t => some (t, t)
  | none, none => none

/-- `parseDate` is `NaiveDate::parse_from_str` with the format `%Y-%m-%d`. -/
def matchesFilter (parseDate : String → Option NaiveDate) (e : Event) (f : EventFilter)
    (dateRange : Option (NaiveDate × NaiveDate)) : Bool :=
  scopeMatches f.country e.country && scopeMatches f.city e.city &&
    scopeMatches f.category e.category && timeMatches f.timeOfDay e.timeOfDay &&
    match dateRange with
    | none => true
    | some (start, stop) =>
        match eventInterval parseDate e with
        | none => false
        | some (s, t) =>
            !(decide (t.numDaysFromCe < start.numDaysFromCe) ||
              decide (s.numDaysFromCe > stop.numDaysFromCe))

/-- `take(limit.unwrap_or(usize::MAX))`; no `Vec` is longer than `usize::MAX`. -/
def takeLimit {α : Type} : Option Nat → List α → List α
  | none, l => l
  | some limit, l => l.take limit

namespace DigestSnapshot

/-- `query`, on the day that the system clock gives. -/
def query (parseDate : String → Option NaiveDate) (snap : DigestSnapshot) (filter : EventFilter)
    (today : NaiveDate) : Outcome (List Event) :=
  match filter.date.elim (some none) fun tag => dateTagRange tag today with
  | none => .panicked
  | some dateRange =>
      .returned (takeLimit filter.limit
        (snap.digestData.events.filter fun e => matchesFilter parseDate e filter dateRange))

/-- The field `days_covered` of the meta file, `as u32`. -/
def daysCovered (snap : DigestSnapshot) : Nat :=
  match snap.digestMeta.extra.lookup "days_covered" with
  | some (.posInt n) => n % 2 ^ 32
  | _ => 1

end DigestSnapshot
end EvoclawPluginWechat
