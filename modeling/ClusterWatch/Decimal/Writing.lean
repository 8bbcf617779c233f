import ClusterWatch.Decimal.Binary64

/-! # Texts of doubles

The shortest decimal of a double as JSON has it, and its text with two decimal places.
-/
namespace ClusterWatch.Decimal

/-! ## Shortest decimals

`shortest` gives a positive finite double the decimal with the fewest digits among those that lie in
the interval of numbers rounding to it, and of these the one nearest to the double.
-/

structure Scaled where
  digits : Nat
  exponent : Int
deriving DecidableEq, Repr

def digitCount (n : Nat) : Nat := (Nat.toDigits 10 n).length

/-- Division by ten as often as it leaves no remainder, at most `fuel` times. -/
def Scaled.stripZeros : Nat → Scaled → Scaled
  | 0, s => s
  | fuel + 1, s =>
    if s.digits ≠ 0 ∧ s.digits % 10 = 0 then stripZeros fuel ⟨s.digits / 10, s.exponent + 1⟩ else s

/-- The numbers that round to the double of a magnitude code, in half units: the midpoints to its two
neighbours, which belong to the interval when the code is even. -/
structure RoundingInterval where
  low : Nat
  high : Nat
  closed : Bool

def RoundingInterval.ofCode (code : Nat) : RoundingInterval where
  low := Binary64.unitsOfCode (code - 1) + Binary64.unitsOfCode code
  high := Binary64.unitsOfCode code + Binary64.unitsOfCode (code + 1)
  closed := code % 2 == 0

/-- Whether `n / d` half units lie in the interval. -/
def RoundingInterval.contains (i : RoundingInterval) (n d : Nat) : Bool :=
  if i.closed then i.low * d ≤ n && n ≤ i.high * d else i.low * d < n && n < i.high * d

/-- The exponent of the leading decimal digit of `units`. -/
def leadingExponent (units : Nat) : Int :=
  (digitCount (units * Nat.pow 10 350 / Binary64.unitsInOne) : Int) - 351

/-- The point of the grid of multiples of `10^exponent` that rounds to the code and is the nearest to
its value, if one of the two points around the value does. -/
def onGrid? (code : Nat) (exponent : Int) : Option Scaled :=
  let units := Binary64.unitsOfCode code
  let up := Nat.pow 10 (-exponent).toNat
  let step := Binary64.unitsInOne * Nat.pow 10 exponent.toNat
  let below := units * up / step
  let above := below + 1
  let interval := RoundingInterval.ofCode code
  let fits (k : Nat) := interval.contains (2 * k * step) up
  let nearest := roundDiv (units * up) step
  if fits nearest then some ⟨nearest, exponent⟩
  else if fits below then some ⟨below, exponent⟩
  else if fits above then some ⟨above, exponent⟩
  else none

/-- The shortest decimal of a positive finite double: grids of one digit, two digits and so on, to
seventeen, on which every double has a decimal. -/
def shortest (x : Binary64) : Scaled :=
  let lead := leadingExponent (Binary64.unitsOfCode x.code)
  let found := (List.range 17).findSome? fun (n : Nat) => onGrid? x.code (lead - n)
  (found.getD ⟨0, 0⟩).stripZeros 17

/-! ## Numbers as JSON texts

The shortest decimal of a double, written so that it is a JSON number that is no integer: positional
while the point is not far from the digits, with an exponent otherwise. JSON has no text for infinities
and NaN.
-/

/-- The digits of a decimal with a point after so many of them; the point may lie outside. -/
def placePoint (digits : List Char) (point : Int) : List Char :=
  if point ≤ 0 then '0' :: '.' :: List.replicate (-point).toNat '0' ++ digits
  else if point.toNat < digits.length then
    digits.take point.toNat ++ '.' :: digits.drop point.toNat
  else digits ++ List.replicate (point.toNat - digits.length) '0' ++ ['.', '0']

/-- The digits with a point after the first, if there are more, and an exponent. -/
def withExponent (digits : List Char) (exponent : Int) : List Char :=
  let mantissa := match digits with
    | d :: e :: ds => d :: '.' :: e :: ds
    | ds => ds
  let sign := if exponent < 0 then '-' else '+'
  mantissa ++ 'e' :: sign :: Nat.toDigits 10 exponent.natAbs

/-- The text of a positive decimal: positional if the point comes before the sixth digit left of the
digits and not after the sixteenth. -/
def Scaled.toChars (s : Scaled) : List Char :=
  let digits := Nat.toDigits 10 s.digits
  let point := s.exponent + digits.length
  if -5 < point ∧ point ≤ 16 then placePoint digits point else withExponent digits (point - 1)

def jsonNumber? (x : Binary64) : Option (List Char) :=
  match x.value with
  | .nan | .infinite _ => none
  | .finite negative units =>
    let magnitude := if units = 0 then ['0', '.', '0'] else (shortest x).toChars
    some (if negative then '-' :: magnitude else magnitude)

/-! ## Two decimal places

`fixedTwo` writes a double with two places after the point. The exact binary value is rounded, a half
going to the even neighbour; a negative number that rounds to zero keeps its sign.
-/

def hundredths (n : Nat) : String :=
  let places := n % 100
  s!"{n / 100}." ++ (if places < 10 then s!"0{places}" else s!"{places}")

def fixedTwo (x : Binary64) : String :=
  match x.value with
  | .nan => "NaN"
  | .infinite negative => if negative then "-inf" else "inf"
  | .finite negative units =>
    (if negative then "-" else "") ++ hundredths (roundDiv (units * 100) Binary64.unitsInOne)

end ClusterWatch.Decimal
