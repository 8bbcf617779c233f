import ClusterWatch.Text.Characters

/-! # Time

Instants, the dates that they fall on, and their texts.
-/
namespace ClusterWatch.Time
open Text

/-! ## Instants

A moment on the UTC scale, to the nanosecond. A leap second is the second before it with a fraction
that has passed one.
-/

/-- Whole seconds since 1970-01-01T00:00:00Z and the nanoseconds after them. -/
structure Instant where
  seconds : Int
  nanos : Nat
deriving DecidableEq, Repr, Inhabited

/-- The milliseconds from the epoch to an instant, a started millisecond not counted. -/
def Instant.milliseconds (t : Instant) : Int := t.seconds * 1000 + (t.nanos / 1000000 : Nat)

def Instant.ofMicroseconds (n : Nat) : Instant := ⟨(n / 1000000 : Nat), n % 1000000 * 1000⟩

/-! ## The calendar

Dates of the Gregorian calendar and their distance in days from 1970-01-01. The year is taken to begin
in March, so that the leap day is its last day.
-/

structure Date where
  year : Int
  month : Nat
  day : Nat
deriving DecidableEq, Repr

def isLeapYear (year : Int) : Bool :=
  year % 4 = 0 && (year % 100 ≠ 0 || year % 400 = 0)

def daysInMonth (year : Int) (month : Nat) : Nat :=
  match month with
  | 2 => if isLeapYear year then 29 else 28
  | 4 | 6 | 9 | 11 => 30
  | _ => 31

def Date.isValid (d : Date) : Bool :=
  1 ≤ d.month && d.month ≤ 12 && 1 ≤ d.day && d.day ≤ daysInMonth d.year d.month

/-- The days from 1970-01-01 to a date. -/
def Date.toDays (d : Date) : Int :=
  let year := if d.month ≤ 2 then d.year - 1 else d.year
  let era := year / 400
  let yearOfEra := year % 400
  let month := (d.month + 9) % 12
  let dayOfYear : Int := (153 * month + 2) / 5 + d.day - 1
  era * 146097 + (yearOfEra * 365 + yearOfEra / 4 - yearOfEra / 100 + dayOfYear) - 719468

/-- The date that is so many days from 1970-01-01. -/
def Date.ofDays (days : Int) : Date :=
  let shifted := days + 719468
  let era := shifted / 146097
  let dayOfEra := shifted % 146097
  let yearOfEra := (dayOfEra - dayOfEra / 1460 + dayOfEra / 36524 - dayOfEra / 146096) / 365
  let dayOfYear := (dayOfEra - (365 * yearOfEra + yearOfEra / 4 - yearOfEra / 100)).toNat
  let month := (5 * dayOfYear + 2) / 153
  let day := dayOfYear - (153 * month + 2) / 5 + 1
  let month := if month < 10 then month + 3 else month - 9
  ⟨era * 400 + yearOfEra + (if month ≤ 2 then 1 else 0), month, day⟩

/-! ## Time stamps

The text of an instant as RFC 3339 has it. It is written in UTC with as many digits of the fraction as
needed, in groups of three. The reader takes any offset and is lenient: it skips white space before
each part, takes parts with fewer digits, and years of more digits after a sign.
-/

/-- A number with a digit in front for each missing one. -/
def padded (width n : Nat) : List Char :=
  let digits := Nat.toDigits 10 n
  List.replicate (width - digits.length) '0' ++ digits

/-- The written year: four digits, with a sign outside of the years 0 to 9999. -/
def yearText (year : Int) : List Char :=
  if 0 ≤ year ∧ year ≤ 9999 then padded 4 year.toNat
  else (if year < 0 then '-' else '+') :: padded 4 year.natAbs

def fractionText (nanos : Nat) : List Char :=
  if nanos = 0 then []
  else if nanos % 1000000 = 0 then '.' :: padded 3 (nanos / 1000000)
  else if nanos % 1000 = 0 then '.' :: padded 6 (nanos / 1000)
  else '.' :: padded 9 nanos

def secondsOfDay : Nat := 86400

/-- The written instant. A leap second is the sixtieth of its minute. -/
def Instant.toChars (t : Instant) : List Char :=
  let date := Date.ofDays (t.seconds / secondsOfDay)
  let second := (t.seconds % secondsOfDay).toNat
  let leap := 1000000000 ≤ t.nanos
  yearText date.year ++ '-' :: padded 2 date.month ++ '-' :: padded 2 date.day ++
    'T' :: padded 2 (second / 3600) ++ ':' :: padded 2 (second / 60 % 60) ++
    ':' :: padded 2 (second % 60 + (if leap then 1 else 0)) ++
    fractionText (t.nanos % 1000000000) ++ ['Z']

def upTo? (most : Nat) (cs : List Char) : Option (Nat × List Char) :=
  let digits := (cs.take most).takeWhile Char.isDigit
  if digits.isEmpty then none else some (valueFrom 0 digits, cs.drop digits.length)

/-- Reads a number of any length that needs no more than 63 bits. -/
def anyLength? (cs : List Char) : Option (Nat × List Char) :=
  let digits := cs.takeWhile Char.isDigit
  if digits.isEmpty then none
  else (naturalBelow? 0x8000000000000000 digits).map (·, cs.drop digits.length)

def year? (cs : List Char) : Option (Int × List Char) :=
  match trimStart cs with
  | '-' :: cs => (anyLength? cs).map fun (n, cs) => (-(n : Int), cs)
  | '+' :: cs => (anyLength? cs).map fun (n, cs) => ((n : Int), cs)
  | cs => (upTo? 4 cs).map fun (n, cs) => ((n : Int), cs)

def two? (cs : List Char) : Option (Nat × List Char) := upTo? 2 (trimStart cs)

def mark? (mark : Char) (cs : List Char) : Option (List Char) :=
  match trimStart cs with
  | c :: rest => if c = mark then some rest else none
  | [] => none

/-- Reads the fraction of a second, if there is one, in nanoseconds. Digits after the ninth are left
out. -/
def fraction? : List Char → Option (Nat × List Char)
  | '.' :: cs =>
    let digits := cs.takeWhile Char.isDigit
    if digits.isEmpty then none
    else
      let kept := digits.take 9
      some (valueFrom 0 kept * Nat.pow 10 (9 - kept.length), cs.drop digits.length)
  | cs => some (0, cs)

def isMinus (c : Char) : Bool := c == '-' || c == '\u2212'

/-- Reads an offset from UTC, in seconds: hours and minutes of two digits each. -/
def signedOffset? (cs : List Char) : Option (Int × List Char) :=
  match cs with
  | sign :: a :: b :: rest =>
    match rest.dropWhile fun c => c == ':' || isBlank c with
    | c :: d :: rest =>
      if !(sign == '+' || isMinus sign) then none
      else if [a, b, c, d].all Char.isDigit && c.toNat < '6'.toNat then
        let seconds : Int := (valueFrom 0 [a, b] * 3600 + valueFrom 0 [c, d] * 60 : Nat)
        some (if isMinus sign then -seconds else seconds, rest)
      else none
    | _ => none
  | _ => none

def offset? (cs : List Char) : Option (Int × List Char) :=
  match cs with
  | c :: rest =>
    if (cs.take 3).map Char.toUpper = ['U', 'T', 'C'] then some (0, cs.drop 3)
    else if c = 'Z' ∨ c = 'z' then some (0, rest)
    else signedOffset? cs
  | [] => none

def date? (cs : List Char) : Option (Date × List Char) := do
  let (year, cs) ← year? cs
  let (month, cs) ← two? (← mark? '-' cs)
  let (day, cs) ← two? (← mark? '-' cs)
  return (⟨year, month, day⟩, cs)

/-- Reads a time of the day: its second, and its nanoseconds, which pass one second in a leap
second. -/
def timeOfDay? (cs : List Char) : Option (Nat × Nat × List Char) := do
  let (hour, cs) ← two? cs
  let (minute, cs) ← two? (← mark? ':' cs)
  let (second, cs) ← two? (← mark? ':' cs)
  let (nanos, cs) ← fraction? cs
  if hour ≤ 23 ∧ minute ≤ 59 ∧ second ≤ 60 then
    let leap := if second = 60 then 1 else 0
    return (hour * 3600 + minute * 60 + second - leap, nanos + leap * 1000000000, cs)
  else none

def isYearInRange (year : Int) : Bool := -262143 ≤ year && year ≤ 262142

def Instant.ofChars? (cs : List Char) : Option Instant := do
  let (date, cs) ← date? cs
  let cs ← match cs with
    | c :: cs => if c = 'T' ∨ c = 't' ∨ c = ' ' then some cs else none
    | [] => none
  let (second, nanos, cs) ← timeOfDay? cs
  let (offset, cs) ← offset? (trimStart cs)
  if (trimStart cs).isEmpty && date.isValid && isYearInRange date.year &&
      offset.natAbs < secondsOfDay then
    let seconds := date.toDays * secondsOfDay + second - offset
    if isYearInRange (Date.ofDays (seconds / secondsOfDay)).year then some ⟨seconds, nanos⟩ else none
  else none

end ClusterWatch.Time
