/-! # Doubles

Double precision numbers as counts of the least one, and the rounding of a quotient that their arithmetic needs.
-/
namespace ClusterWatch.Decimal

/-! ## Rounding a quotient

`roundDiv n d` is the integer nearest to `n / d`; of two integers equally near it is the even one.
`roundDiv_le` and `le_roundDiv` say that it is the floor of the quotient or the next integer.
-/

/-- The integer nearest to `n / d`, a half going to the even neighbour. -/
def roundDiv (n d : Nat) : Nat :=
  let q := n / d
  let r := n % d
  if d < 2 * r || (2 * r == d && q % 2 == 1) then q + 1 else q

theorem le_roundDiv (n d : Nat) : n / d ≤ roundDiv n d := by
  unfold roundDiv
  dsimp only
  split <;> omega

theorem roundDiv_le (n d : Nat) : roundDiv n d ≤ n / d + 1 := by
  unfold roundDiv
  dsimp only
  split <;> omega

theorem roundDiv_mul {d : Nat} (q : Nat) (hd : 0 < d) : roundDiv (q * d) d = q := by
  have hq : q * d / d = q := Nat.mul_div_cancel q hd
  have hr : q * d % d = 0 := Nat.mul_mod_left q d
  unfold roundDiv
  dsimp only
  rw [hq, hr]
  split
  case isTrue h =>
    rw [Bool.or_eq_true, Bool.and_eq_true, decide_eq_true_eq, beq_iff_eq] at h
    omega
  case isFalse => rfl

/-- Twice the distance to the quotient is at most the divisor. -/
theorem roundDiv_near (n : Nat) {d : Nat} (hd : 0 < d) :
    2 * (roundDiv n d * d) ≤ 2 * n + d ∧ 2 * n ≤ 2 * (roundDiv n d * d) + d := by
  have hn := Nat.div_add_mod n d
  have hr := Nat.mod_lt n hd
  rw [Nat.mul_comm] at hn
  unfold roundDiv
  dsimp only
  split
  case isTrue h =>
    rw [Bool.or_eq_true, Bool.and_eq_true, decide_eq_true_eq, beq_iff_eq] at h
    rw [Nat.add_mul]
    omega
  case isFalse h =>
    rw [Bool.or_eq_true, Bool.and_eq_true, decide_eq_true_eq, beq_iff_eq] at h
    omega

/-! ## Double precision numbers

A `Binary64` is the 64 bits of an IEEE 754 double. Every finite double is an integral multiple of
the *unit* 2⁻¹⁰⁷⁴, so the arithmetic here is exact arithmetic on counts of units, rounded once, to
nearest with ties to even. The magnitudes, read as numbers of 63 bits, have the order of the values:
the code `e · 2⁵² + q` stands for `q · 2ᵉ` units, for every `q < 2⁵³` that is below `2⁵²` only when
`e` is zero.
-/

/-- The bits of a double: sign, exponent of 11 bits, fraction of 52 bits. -/
structure Binary64 where
  bits : UInt64
deriving DecidableEq, Repr, Inhabited

namespace Binary64

/-- What the bits stand for; a finite value is given in units of 2⁻¹⁰⁷⁴. -/
inductive Value
  | nan
  | infinite (negative : Bool)
  | finite (negative : Bool) (units : Nat)
deriving DecidableEq, Repr

def infiniteCode : Nat := 0x7ff0000000000000

/-- The number of units that a magnitude code below infinity stands for. -/
def unitsOfCode (code : Nat) : Nat :=
  let exponent := code / 0x10000000000000
  let fraction := code % 0x10000000000000
  if exponent = 0 then fraction else (0x10000000000000 + fraction) <<< (exponent - 1)

/-- The magnitude code nearest to `n / d` units, infinity included. -/
def nearestCode (n d : Nat) : Nat :=
  let e := (n / d).log2 - 52
  min (e * 0x10000000000000 + roundDiv n (d <<< e)) infiniteCode

def ofCode (negative : Bool) (code : Nat) : Binary64 :=
  ⟨UInt64.ofNat (if negative then 0x8000000000000000 + code else code)⟩

/-- The double nearest to `n / d` units, with the given sign. -/
def ofUnits (negative : Bool) (n d : Nat) : Binary64 := ofCode negative (nearestCode n d)

def code (x : Binary64) : Nat := x.bits.toNat % 0x8000000000000000

def isNegative (x : Binary64) : Bool := 0x8000000000000000 ≤ x.bits.toNat

def value (x : Binary64) : Value :=
  if x.code < infiniteCode then .finite x.isNegative (unitsOfCode x.code)
  else if x.code = infiniteCode then .infinite x.isNegative
  else .nan

def nan : Binary64 := ⟨0x7ff8000000000000⟩

def infinity (negative : Bool) : Binary64 := ofCode negative infiniteCode

def zero (negative : Bool) : Binary64 := ofCode negative 0

def unitsInOne : Nat := 1 <<< 1074

/-- The double nearest to a natural number. -/
def ofNat (n : Nat) : Binary64 := ofUnits false (n * unitsInOne) 1

/-- The double nearest to `n · 10^exponent`, with the given sign. An exponent that alone takes the
value out of the range of doubles is not worked out. -/
def ofDecimal (negative : Bool) (n : Nat) (exponent : Int) : Binary64 :=
  if n = 0 then zero negative
  else if 310 < exponent then infinity negative
  else if exponent < -(330 + (n.log2 : Int)) then zero negative
  else if 0 ≤ exponent then ofUnits negative (n * Nat.pow 10 exponent.toNat * unitsInOne) 1
  else ofUnits negative (n * unitsInOne) (Nat.pow 10 (-exponent).toNat)

def signedUnits (negative : Bool) (units : Nat) : Int :=
  if negative then -(units : Int) else units

/-- The sum, rounded once. A zero sum is negative only if both terms are. -/
def add (x y : Binary64) : Binary64 :=
  match x.value, y.value with
  | .nan, _ | _, .nan => nan
  | .infinite s, .infinite t => if s = t then infinity s else nan
  | .infinite s, .finite _ _ | .finite _ _, .infinite s => infinity s
  | .finite s m, .finite t n =>
    let sum := signedUnits s m + signedUnits t n
    if sum = 0 then zero (s && t) else ofUnits (decide (sum < 0)) sum.natAbs 1

def mul (x y : Binary64) : Binary64 :=
  match x.value, y.value with
  | .nan, _ | _, .nan => nan
  | .infinite s, .infinite t => infinity (s != t)
  | .infinite s, .finite t n | .finite t n, .infinite s =>
    if n = 0 then nan else infinity (s != t)
  | .finite s m, .finite t n => ofUnits (s != t) (m * n) unitsInOne

def div (x y : Binary64) : Binary64 :=
  match x.value, y.value with
  | .nan, _ | _, .nan => nan
  | .infinite _, .infinite _ => nan
  | .infinite s, .finite t _ => infinity (s != t)
  | .finite s _, .infinite t => zero (s != t)
  | .finite s m, .finite t n =>
    if n = 0 then if m = 0 then nan else infinity (s != t)
    else ofUnits (s != t) (m * unitsInOne) n

def neg (x : Binary64) : Binary64 := ⟨x.bits ^^^ 0x8000000000000000⟩

def isFinite (x : Binary64) : Bool := x.code < infiniteCode

theorem unitsOfCode_of_lt {code : Nat} (h : code < 0x10000000000000) : unitsOfCode code = code := by
  simp only [unitsOfCode, Nat.div_eq_of_lt h, Nat.mod_eq_of_lt h, ↓reduceIte]

end Binary64

end ClusterWatch.Decimal
