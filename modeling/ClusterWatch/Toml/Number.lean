import ClusterWatch.Decimal.Reading
import ClusterWatch.Json.Reader
import ClusterWatch.Time.Basic
import ClusterWatch.Toml.Value

/-! # Numbers and moments of TOML

Integers of 64 bits in four bases, reals, and moments: dates, times of the day, or both, perhaps with
an offset. Single underscores may stand between digits.
-/
namespace ClusterWatch.Toml
open Decimal Text Time

/-- Digits as far as they go, with single underscores before any of them, and what follows. -/
def moreDigits (isDigit : Char → Bool) : List Char → List Char × List Char
  | '_' :: c :: cs =>
    if isDigit c then
      let (digits, rest) := moreDigits isDigit cs
      (c :: digits, rest)
    else ([], '_' :: c :: cs)
  | c :: cs =>
    if isDigit c then
      let (digits, rest) := moreDigits isDigit cs
      (c :: digits, rest)
    else ([], c :: cs)
  | [] => ([], [])

def digits? (isDigit : Char → Bool) : List Char → Option (List Char × List Char)
  | c :: cs => if isDigit c then some (moreDigits isDigit (c :: cs)) else none
  | [] => none

def integer? (n : Int) : Option TomlValue :=
  if -0x8000000000000000 ≤ n ∧ n < 0x8000000000000000 then some (.integer n) else none

def readBased? (base : Nat) (cs : List Char) : Option (TomlValue × List Char) := do
  let (digits, cs) ← digits? (fun c => ((JsonValue.hexDigit? c).any (· < base))) cs
  let values ← digits.mapM JsonValue.hexDigit?
  return (← integer? (values.foldl (fun n d => base * n + d) 0 : Nat), cs)

def readPlaces? : List Char → Option (Option (List Char) × List Char)
  | '.' :: cs => (digits? Char.isDigit cs).map fun (digits, cs) => (some digits, cs)
  | cs => some (none, cs)

def readExponent? : List Char → Option (Option Int × List Char)
  | c :: cs =>
    if c = 'e' ∨ c = 'E' then
      let negative := cs.head? = some '-'
      let cs := if negative ∨ cs.head? = some '+' then cs.tail else cs
      (digits? Char.isDigit cs).map fun (digits, cs) =>
        let n : Int := valueFrom 0 digits
        (some (if negative then -n else n), cs)
    else some (none, c :: cs)
  | [] => some (none, [])

/-- Reads a decimal number without its sign. Zero alone starts with a zero. A number that rounds to
positive infinity is refused. -/
def readDecimal? (negative : Bool) (cs : List Char) : Option (TomlValue × List Char) := do
  let (whole, cs) ← digits? Char.isDigit cs
  if 1 < whole.length ∧ whole.head? = some '0' then none
  else
    let (places, cs) ← readPlaces? cs
    let (exponent, cs) ← readExponent? cs
    if places.isNone && exponent.isNone then
      let n : Int := valueFrom 0 whole
      return (← integer? (if negative then -n else n), cs)
    else
      let x := joinPlaces negative whole (places.getD []) (exponent.getD 0)
      if x = .infinity false then none else some (.real x, cs)

/-- Reads a number. Only decimal numbers have signs. -/
def readNumber? (cs : List Char) : Option (TomlValue × List Char) :=
  let negative := cs.head? = some '-'
  let signed := negative ∨ cs.head? = some '+'
  match if signed then cs.tail else cs with
  | 'i' :: 'n' :: 'f' :: cs => some (.real (.infinity negative), cs)
  | 'n' :: 'a' :: 'n' :: cs => some (.real .nan, cs)
  | '0' :: 'x' :: cs => if signed then none else readBased? 16 cs
  | '0' :: 'o' :: cs => if signed then none else readBased? 8 cs
  | '0' :: 'b' :: cs => if signed then none else readBased? 2 cs
  | cs => readDecimal? negative cs

def readFixed? (n : Nat) (cs : List Char) : Option (Nat × List Char) :=
  let digits := cs.take n
  if digits.length = n ∧ digits.all Char.isDigit then some (valueFrom 0 digits, cs.drop n) else none

def after? (c : Char) : List Char → Option (List Char)
  | d :: cs => if d = c then some cs else none
  | [] => none

def afterDate? (cs : List Char) : Option (List Char) := do
  let (year, cs) ← readFixed? 4 cs
  let (month, cs) ← readFixed? 2 (← after? '-' cs)
  let (day, cs) ← readFixed? 2 (← after? '-' cs)
  if Date.isValid ⟨year, month, day⟩ then some cs else none

def afterMinutes? (cs : List Char) : Option (List Char) := do
  let (hour, cs) ← readFixed? 2 cs
  let (minute, cs) ← readFixed? 2 (← after? ':' cs)
  if hour ≤ 23 ∧ minute ≤ 59 then some cs else none

def afterFraction : List Char → List Char
  | '.' :: c :: cs => if c.isDigit then cs.dropWhile Char.isDigit else '.' :: c :: cs
  | cs => cs

def afterTime? (cs : List Char) : Option (List Char) := do
  let cs ← after? ':' (← afterMinutes? cs)
  let (second, cs) ← readFixed? 2 cs
  if second ≤ 60 then some (afterFraction cs) else none

def afterOffset (cs : List Char) : List Char :=
  match cs with
  | c :: rest =>
    if c = 'Z' ∨ c = 'z' then rest
    else if c = '+' ∨ c = '-' then (afterMinutes? rest).getD cs
    else cs
  | [] => []

/-- What follows a time of the day that comes after a date, and its offset, if it is there. -/
def afterTimePart (cs : List Char) : List Char :=
  match cs with
  | c :: rest =>
    if c = 'T' ∨ c = 't' ∨ c = ' ' then ((afterTime? rest).map afterOffset).getD cs else cs
  | [] => []

def afterMoment? (cs : List Char) : Option (List Char) :=
  match afterDate? cs with
  | some rest => some (afterTimePart rest)
  | none => afterTime? cs

def readMoment? (cs : List Char) : Option (TomlValue × List Char) :=
  (afterMoment? cs).map fun rest => (.moment (cs.take (cs.length - rest.length)), rest)

end ClusterWatch.Toml
