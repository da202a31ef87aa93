import Mathlib
import ArgoTwin.Errors
/-!
# Points in time

A `datetime` keeps the wall clock it was written on and its offset from
UTC. Two of them are compared by the instant they name; the text columns
of the store and the texts in a payload keep the wall clock, so that they
compare as text. The calendar is the proleptic Gregorian one, unbounded.
-/

namespace ArgoTwin

/-- A point on the UTC time line, in microseconds since 0001-01-01. -/
abbrev Instant := Int

/-- A `datetime`: the wall clock in microseconds since 0001-01-01, and
the offset east of UTC, which a naive one lacks. -/
structure DateTime where
  wall : Int
  utcoffset : Option Int
  deriving DecidableEq, Repr

namespace DateTime

/-- The instant named; a naive wall clock is read as UTC. -/
def instant (d : DateTime) : Instant := d.wall - d.utcoffset.getD 0

/-- `d.tzinfo is None`. -/
def naive (d : DateTime) : Bool := d.utcoffset.isNone

/-- An instant as `datetime.now(UTC)` reads it. -/
def utc (t : Instant) : DateTime := ⟨t, some 0⟩

/-- `d.astimezone(UTC)`. -/
def astimezoneUtc (d : DateTime) : DateTime := utc d.instant

/-- `a == b`: of the same kind, aware or naive, and naming one instant. -/
def same (a b : DateTime) : Bool := a.naive == b.naive && a.instant == b.instant

/-- `a < b`; an aware time is not compared with a naive one. -/
def lt (a b : DateTime) : Except PyError Bool :=
  if a.naive ≠ b.naive then
    .error (.typeError "can't compare offset-naive and offset-aware datetimes")
  else .ok (a.instant < b.instant)

@[simp] theorem instant_utc (t : Instant) : (utc t).instant = t := by
  simp [utc, instant]

@[simp] theorem naive_utc (t : Instant) : (utc t).naive = false := rfl

@[simp] theorem instant_astimezoneUtc (d : DateTime) : d.astimezoneUtc.instant = d.instant := by
  simp [astimezoneUtc]

@[simp] theorem astimezoneUtc_astimezoneUtc (d : DateTime) :
    d.astimezoneUtc.astimezoneUtc = d.astimezoneUtc := by
  simp [astimezoneUtc]

@[simp] theorem naive_astimezoneUtc (d : DateTime) : d.astimezoneUtc.naive = false := rfl

theorem astimezoneUtc_utc (t : Instant) : (utc t).astimezoneUtc = utc t := by
  simp [astimezoneUtc]

/-! ## As text -/

/-- A number with leading zeros up to `width` digits. -/
def padded (width : Nat) (n : Nat) : String :=
  let digits := toString n
  String.ofList (List.replicate (width - digits.length) '0') ++ digits

/-- Year, month and day of the day number `days` since 0001-01-01. The
year is counted from March, so that the leap day ends it. -/
def civil (days : Int) : Int × Nat × Nat :=
  let z := days + 306
  let era := z / 146097
  let doe := (z % 146097).toNat
  let yoe := (doe - doe / 1460 + doe / 36524 - doe / 146096) / 365
  let doy := doe - (365 * yoe + yoe / 4 - yoe / 100)
  let mp := (5 * doy + 2) / 153
  let day := doy - (153 * mp + 2) / 5 + 1
  let month := if mp < 10 then mp + 3 else mp - 9
  let year := (yoe : Int) + era * 400 + (if month ≤ 2 then 1 else 0)
  (year, month, day)

/-- The day number of a date. -/
def ordinal (year : Int) (month day : Nat) : Int :=
  let y := if month ≤ 2 then year - 1 else year
  let era := y / 400
  let yoe := (y % 400).toNat
  let mp := if month ≤ 2 then month + 9 else month - 3
  let doy := (153 * mp + 2) / 5 + day - 1
  let doe := yoe * 365 + yoe / 4 - yoe / 100 + doy
  era * 146097 + doe - 306

def microsPerSecond : Int := 1000000

def microsPerDay : Int := 86400 * microsPerSecond

/-- The days of a `datetime`: those of the years 1 to 9999. -/
def dayCount : Int := 3652059

/-- A wall clock a `datetime` can show. -/
def Representable (wall : Int) : Prop := 0 ≤ wall ∧ wall < dayCount * microsPerDay

instance (wall : Int) : Decidable (Representable wall) := inferInstanceAs (Decidable (_ ∧ _))

/-- `HH:MM` of a span within a day, with `:SS` and microseconds where
`full` or where they do not vanish. -/
def clockText (micros : Nat) (full : Bool) : String :=
  let seconds := micros / 1000000
  let fraction := micros % 1000000
  padded 2 (seconds / 3600) ++ ":" ++ padded 2 (seconds / 60 % 60) ++
    (if full || seconds % 60 ≠ 0 || fraction ≠ 0 then ":" ++ padded 2 (seconds % 60) else "") ++
    (if fraction ≠ 0 then "." ++ padded 6 fraction else "")

/-- `d.isoformat()`. -/
def isoformat (d : DateTime) : String :=
  let (year, month, day) := civil (d.wall / microsPerDay)
  padded 4 year.toNat ++ "-" ++ padded 2 month ++ "-" ++ padded 2 day ++ "T" ++
    clockText (d.wall % microsPerDay).toNat true ++
    (match d.utcoffset with
      | none => ""
      | some offset =>
        (if offset < 0 then "-" else "+") ++ clockText offset.natAbs false)

/-- How `to_primitive` writes a time: in UTC, with `Z` for the offset. -/
def toPrimitive (d : DateTime) : String :=
  ({ d.astimezoneUtc with utcoffset := none } : DateTime).isoformat ++ "Z"

theorem toPrimitive_astimezoneUtc (d : DateTime) :
    d.astimezoneUtc.toPrimitive = d.toPrimitive := by
  simp [toPrimitive]

/-! ## From text -/

/-- A run of exactly `width` decimal digits. -/
def takeNumber (width : Nat) (cs : List Char) : Option (Nat × List Char) :=
  let digits := cs.take width
  if digits.length = width ∧ digits.all Char.isDigit then
    some (digits.foldl (fun n c => 10 * n + (c.toNat - 48)) 0, cs.drop width)
  else none

/-- One expected character. -/
def takeChar (c : Char) : List Char → Option (List Char)
  | d :: rest => if d = c then some rest else none
  | [] => none

def daysInMonth (year : Int) (month : Nat) : Nat :=
  if month = 2 then
    (if year % 4 = 0 ∧ (year % 100 ≠ 0 ∨ year % 400 = 0) then 29 else 28)
  else if month = 4 ∨ month = 6 ∨ month = 9 ∨ month = 11 then 30 else 31

/-- Up to six digits of a fraction of a second, in microseconds; further
digits are dropped. -/
def takeFraction (cs : List Char) : Option (Nat × List Char) :=
  let digits := cs.takeWhile Char.isDigit
  if digits = [] then none
  else
    let kept := digits.take 6
    let value := kept.foldl (fun n c => 10 * n + (c.toNat - 48)) 0
    some (value * 10 ^ (6 - kept.length), cs.drop digits.length)

/-- The separator before a part, where the format has separators. -/
def takeSeparator (c : Char) (separated : Bool) (cs : List Char) : Option (List Char) :=
  if separated then takeChar c cs else some cs

/-- Hours, minutes, seconds and microseconds. -/
abbrev Clock := Nat × Nat × Nat × Nat

def Clock.micros : Clock → Nat
  | (hour, minute, second, fraction) =>
    (hour * 3600 + minute * 60 + second) * 1000000 + fraction

/-- `HH[:MM[:SS[.ffffff]]]`, or the same without colons. -/
def parseClock (cs : List Char) : Option Clock := do
  let (hour, cs) ← takeNumber 2 cs
  if cs = [] then some (hour, 0, 0, 0)
  else
    let separated := cs.head? == some ':'
    let (minute, cs) ← takeNumber 2 (← takeSeparator ':' separated cs)
    if cs = [] then some (hour, minute, 0, 0)
    else
      let (second, cs) ← takeNumber 2 (← takeSeparator ':' separated cs)
      match cs with
      | [] => some (hour, minute, second, 0)
      | point :: cs =>
        let (fraction, cs) ← takeFraction cs
        if (point = '.' ∨ point = ',') ∧ cs = [] then some (hour, minute, second, fraction)
        else none

/-- The day number of an ISO week date; a year has 53 weeks where it begins
on a Thursday, or on a Wednesday and is a leap year. -/
def weekDate (year week day : Nat) : Option Int :=
  let first := ordinal year 1 1
  let weekday := first % 7
  let weeks := if weekday = 3 ∨ (weekday = 2 ∧ daysInMonth year 2 = 29) then 53 else 52
  let monday := first - weekday + (if 3 < weekday then 7 else 0)
  let days := monday + (week - 1) * 7 + (day - 1)
  if year = 0 ∨ week = 0 ∨ weeks < week ∨ day = 0 ∨ 7 < day ∨ dayCount ≤ days then none
  else some days

/-- `YYYY-MM-DD` or `YYYY-Www[-D]`, or the same without dashes. -/
def parseDate (cs : List Char) : Option Int := do
  let (year, cs) ← takeNumber 4 cs
  let separated := cs.head? == some '-'
  let cs ← takeSeparator '-' separated cs
  if cs.head? = some 'W' then
    let (week, cs) ← takeNumber 2 cs.tail
    if cs = [] then weekDate year week 1
    else
      let (day, cs) ← takeNumber 1 (← takeSeparator '-' separated cs)
      if cs = [] then weekDate year week day else none
  else
    let (month, cs) ← takeNumber 2 cs
    let (day, cs) ← takeNumber 2 (← takeSeparator '-' separated cs)
    if year = 0 ∨ month = 0 ∨ 12 < month ∨ day = 0 ∨ daysInMonth year month < day ∨ cs ≠ [] then none
    else some (ordinal year month day)

/-- Where the date ends. Of a week date without a day it is told from one
with a day by the digits that follow: those of a clock come in pairs. -/
def dateLength (cs : List Char) : Nat :=
  if cs.length = 7 then 7
  else if cs[4]? = some '-' then
    if cs[5]? = some 'W' then
      if cs[8]? = some '-' ∧ ¬ (cs[10]?.any Char.isDigit) then 10 else 8
    else 10
  else if cs[4]? = some 'W' then
    let digits := 7 + ((cs.drop 7).takeWhile Char.isDigit).length
    if digits < 9 then digits else if digits % 2 = 0 then 7 else 8
  else 8

/-- What follows a clock: nothing, `Z`, or a sign and an offset of less than
a day. -/
def parseOffset : List Char → Option (Option Int)
  | [] => some none
  | sign :: cs =>
    if sign = 'Z' then (if cs = [] then some (some 0) else none)
    else do
      let offset := (← parseClock cs).micros
      if 86400 * 1000000 ≤ offset then none
      else some (some (if sign = '-' then -(offset : Int) else offset))

/-- `datetime.fromisoformat`: a date, any one character, a clock and an
offset; a date alone names its midnight. -/
def fromIsoformat (value : String) : Option DateTime := do
  let cs := value.toList
  let midnight := (← parseDate (cs.take (dateLength cs))) * microsPerDay
  match cs.drop (dateLength cs) with
  | [] => some ⟨midnight, none⟩
  | _ :: cs =>
    let inClock := fun c : Char => c ≠ '+' ∧ c ≠ '-' ∧ c ≠ 'Z'
    let (hour, minute, second, fraction) ← parseClock (cs.takeWhile inClock)
    if 23 < hour ∨ 59 < minute ∨ 59 < second then none
    else
      let offset ← parseOffset (cs.dropWhile inClock)
      some ⟨midnight + Clock.micros (hour, minute, second, fraction), offset⟩

/-- `value.replace("Z", "+00:00")`. -/
def expandZ (value : String) : String :=
  String.ofList (value.toList.flatMap fun c =>
    if c = 'Z' then ['+', '0', '0', ':', '0', '0'] else [c])

end DateTime

/-- `parse_time`: a text with an offset, in UTC, where UTC can show it. -/
def parseTime (value : String) : Except PyError DateTime :=
  match DateTime.fromIsoformat (DateTime.expandZ value) with
  | none => .error (.valueError "Invalid isoformat string")
  | some parsed =>
    if parsed.naive then .error (.invariantViolation "timestamps must include an offset")
    else if ¬ DateTime.Representable parsed.instant then
      .error (.overflowError "date value out of range")
    else .ok parsed.astimezoneUtc

example : (DateTime.utc 63902822400000000).isoformat = "2026-01-01T00:00:00+00:00" := by decide

example : (parseTime "2026-01-01T05:30:00.5+05:30").toOption =
    some (DateTime.utc 63902822400500000) := by decide

example : parseTime "2026W014 053000,5+0530" = parseTime "20260101T000000.5Z" := by decide

end ArgoTwin
