import ClusterWatch.Decimal.Binary64
import ClusterWatch.Text.Characters

/-! # Reading decimals

`figure?` reads digits with at most one point among them, the form in which nodes report amounts.
`decimal?` also reads a sign, an exponent and the names of the infinities and of NaN. Both round the
decimal once, to the nearest double.
-/
namespace ClusterWatch.Decimal
open Text

/-- The digits before and after the point, as one number and the exponent that places the point. -/
def joinPlaces (negative : Bool) (whole places : List Char) (exponent : Int) : Binary64 :=
  .ofDecimal negative (valueFrom (valueFrom 0 whole) places) (exponent - places.length)

/-- A number without sign and exponent: digits with at most one point, and at least one digit. -/
def figure? (cs : List Char) : Option Binary64 :=
  let (whole, rest) := cs.span Char.isDigit
  match rest with
  | [] => if whole.isEmpty then none else some (joinPlaces false whole [] 0)
  | '.' :: places =>
    if places.all Char.isDigit && !(whole.isEmpty && places.isEmpty) then
      some (joinPlaces false whole places 0)
    else none
  | _ => none

def exponent? : List Char → Option Int
  | '-' :: cs => (natural? cs).map fun n => -(n : Int)
  | '+' :: cs => (natural? cs).map fun n => (n : Int)
  | cs => (natural? cs).map fun n => (n : Int)

def unsigned? (negative : Bool) (cs : List Char) : Option Binary64 :=
  let name := String.ofList (cs.map Char.toLower)
  if name = "inf" ∨ name = "infinity" then some (.infinity negative)
  else if name = "nan" then some .nan
  else
    let (mantissa, rest) := cs.span fun c => c != 'e' && c != 'E'
    let exponent := match rest with
      | [] => some 0
      | _ :: e => exponent? e
    let (whole, tail) := mantissa.span Char.isDigit
    let places := match tail with
      | [] => some []
      | '.' :: ps => if ps.all Char.isDigit then some ps else none
      | _ => none
    match exponent, places with
    | some e, some ps =>
      if whole.isEmpty && ps.isEmpty then none else some (joinPlaces negative whole ps e)
    | _, _ => none

/-- A decimal: optional sign, digits with at most one point, optional exponent; or the name of an
infinity or of NaN, in letters of either case. -/
def decimal? : List Char → Option Binary64
  | '-' :: cs => unsigned? true cs
  | '+' :: cs => unsigned? false cs
  | cs => unsigned? false cs

end ClusterWatch.Decimal
