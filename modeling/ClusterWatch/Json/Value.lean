import ClusterWatch.Decimal.Binary64
import ClusterWatch.Text.Characters

/-! # JSON

Numbers and values as JSON texts spell them.
-/
namespace ClusterWatch
open Decimal Text

/-! ## JSON numbers

The value of a JSON number. An integer that fits into 64 bits is itself. Any other number is a double
that is worked out in two steps: the leading digits that fit into 64 bits are rounded to a double, and
this is multiplied or divided by a power of ten. The result is not always the nearest double. A number
beyond the largest double is refused.
-/

structure NumberText where
  negative : Bool
  whole : List Char
  places : Option (List Char)
  /-- The sign of the exponent, negative or not, and its digits. -/
  exponent : Option (Bool × List Char)
deriving DecidableEq, Repr

inductive JsonNumber
  | natural (n : UInt64)
  | negative (n : Int)
  | real (x : Binary64)
deriving DecidableEq, Repr

namespace JsonNumber

/-- Takes digits in as long as the number made of them fits into 64 bits; gives the number and the
digits that are left. -/
def significand (n : Nat) : List Char → Nat × List Char
  | [] => (n, [])
  | c :: cs =>
    if 10 * n + digitValue c < UInt64.size then significand (10 * n + digitValue c) cs else (n, c :: cs)

/-- Multiplies a double by a power of ten, in steps of `10^308` downward; the fuel bounds their
number. -/
def scale : (fuel : Nat) → Binary64 → Int → Option Binary64
  | 0, _, _ => some (.zero false)
  | fuel + 1, x, exponent =>
    if exponent.natAbs ≤ 308 then
      if 0 ≤ exponent then
        let y := x.mul (.ofDecimal false 1 exponent)
        if y.isFinite then some y else none
      else some (x.div (.ofDecimal false 1 (-exponent)))
    else if x = .zero false then some x
    else if 0 ≤ exponent then none
    else scale fuel (x.div (.ofDecimal false 1 308)) (exponent + 308)

/-- The double of a significand and an exponent. A double is zero after five steps at the most. -/
def real? (negative : Bool) (significand : Nat) (exponent : Int) : Option Binary64 :=
  (scale 8 (.ofNat significand) exponent).map fun x => if negative then x.neg else x

def largestExponent : Nat := 0x7fffffff

/-- An exponent, if it is not too large to be worked out. -/
def exponentOf? (e : Bool × List Char) : Option Int :=
  let n := valueFrom 0 e.2
  if n ≤ largestExponent then some (if e.1 then -(n : Int) else n) else none

/-- An exponent of 32 bits, at its bounds if it would leave them. -/
def saturate (e : Int) : Int := max (-0x80000000) (min e 0x7fffffff)

def withExponent? (negative : Bool) (significand : Nat) (dropped : Int)
    (exponent : Option (Bool × List Char)) : Option Binary64 :=
  match exponent with
  | none => real? negative significand dropped
  | some e =>
    match exponentOf? e with
    | some n => real? negative significand (saturate (dropped + n))
    | none =>
      if significand ≠ 0 ∧ !e.1 then none else some (.zero negative)

def ofText? (t : NumberText) : Option JsonNumber :=
  let (n, dropped) := significand 0 t.whole
  match t.places with
  | some places =>
    let (m, rest) := significand n places
    let used := places.length - rest.length
    (withExponent? t.negative m ((dropped.length : Int) - used) t.exponent).map .real
  | none =>
    if t.exponent.isSome || !dropped.isEmpty then
      (withExponent? t.negative n dropped.length t.exponent).map .real
    else if !t.negative then some (.natural (UInt64.ofNat n))
    else if n = 0 ∨ 0x8000000000000000 < n then some (.real (Binary64.ofNat n).neg)
    else some (.negative (-(n : Int)))

end JsonNumber

/-! ## JSON values

A value as it is read: a string that holds half of a surrogate pair is no text, and a number may be
out of range. `JsonValue.isProper` says that neither occurs.
-/

/-- A JSON value. A string is `none` where its text is no sequence of characters. -/
inductive JsonValue
  | null
  | bool (b : Bool)
  | number (n : NumberText)
  | string (s : Option (List Char))
  | array (items : List JsonValue)
  | object (fields : List (Option (List Char) × JsonValue))
deriving Repr, Inhabited

namespace JsonValue

mutual

/-- All strings of the value are texts and all its numbers are in range. -/
def isProper : JsonValue → Bool
  | .null | .bool _ => true
  | .number n => (JsonNumber.ofText? n).isSome
  | .string s => s.isSome
  | .array items => areProper items
  | .object fields => areProperFields fields

def areProper : List JsonValue → Bool
  | [] => true
  | v :: vs => isProper v && areProper vs

def areProperFields : List (Option (List Char) × JsonValue) → Bool
  | [] => true
  | (name, v) :: fields => name.isSome && isProper v && areProperFields fields

end

mutual

/-- The number of arrays and objects that stand within each other. -/
def depth : JsonValue → Nat
  | .array items => depthOf items + 1
  | .object fields => depthOfFields fields + 1
  | _ => 0

def depthOf : List JsonValue → Nat
  | [] => 0
  | v :: vs => max (depth v) (depthOf vs)

def depthOfFields : List (Option (List Char) × JsonValue) → Nat
  | [] => 0
  | (_, v) :: fields => max (depth v) (depthOfFields fields)

end

end JsonValue

end ClusterWatch
