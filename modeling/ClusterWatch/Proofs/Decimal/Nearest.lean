import ClusterWatch.Decimal.Binary64
import Mathlib.Order.Monotone.Basic
import Mathlib.Tactic.Linarith
import Mathlib.Tactic.Ring

/-!
# Rounding to the nearest double

The magnitude codes have the order of the values that they stand for (`strictMono_unitsOfCode`), beyond
infinity too if the exponent is thought to go on. Among all of them one is the nearest to a quotient of
units, a tie going to the even code, and there is only one such code (`IsNearest.unique`). `nearestCode`
finds it, with every code from infinity on counted as infinity (`isNearest_roundCode`).
-/

namespace ClusterWatch.Decimal

/-! ## The rounded quotient -/

theorem roundDiv_even_of_tie {n d : Nat} (hd : 0 < d)
    (h : 2 * (roundDiv n d * d - n : Int).natAbs = d) : roundDiv n d % 2 = 0 := by
  have hn : n / d * d + n % d = n := Nat.div_add_mod' n d
  have hr := Nat.mod_lt n hd
  simp only [roundDiv] at h ⊢
  generalize n / d = q at hn h ⊢
  generalize n % d = r at hn h hr ⊢
  have hcast : (q * d : Int) = (q * d : Nat) := (Int.natCast_mul q d).symm
  split at h
  case isTrue hup =>
    rw [if_pos hup]
    simp only [Bool.or_eq_true, Bool.and_eq_true, decide_eq_true_eq, beq_iff_eq] at hup
    rw [Int.natCast_add, Int.add_mul, hcast] at h
    omega
  case isFalse hdown =>
    rw [if_neg hdown]
    simp only [Bool.or_eq_true, Bool.and_eq_true, decide_eq_true_eq, beq_iff_eq] at hdown
    rw [hcast] at h
    omega

/-- No other multiple of the divisor is nearer, and one that is as near makes a tie. -/
theorem roundDiv_nearest (n : Nat) {d : Nat} (hd : 0 < d) {j : Nat} (hj : j ≠ roundDiv n d) :
    (roundDiv n d * d - n : Int).natAbs ≤ (j * d - n : Int).natAbs ∧
      ((roundDiv n d * d - n : Int).natAbs = (j * d - n : Int).natAbs → roundDiv n d % 2 = 0) := by
  have hnear := roundDiv_near n hd
  have htie := roundDiv_even_of_tie (n := n) hd
  generalize roundDiv n d = k at hj hnear htie ⊢
  have hapart : j * d + d ≤ k * d ∨ k * d + d ≤ j * d := by
    rcases Nat.lt_or_gt_of_ne hj with hlt | hlt
    · exact .inl (by simpa [Nat.succ_mul] using Nat.mul_le_mul_right d hlt)
    · exact .inr (by simpa [Nat.succ_mul] using Nat.mul_le_mul_right d hlt)
  have hcast (m : Nat) : (m * d : Int) = (m * d : Nat) := (Int.natCast_mul m d).symm
  rw [hcast] at htie ⊢
  rw [hcast]
  generalize k * d = a at hnear htie hapart ⊢
  generalize j * d = b at hapart ⊢
  constructor
  · omega
  · intro heq
    apply htie
    omega

namespace Binary64

/-! ## Magnitude codes -/

/-- The code `e · 2⁵² + q` stands for `q · 2ᵉ` units. -/
theorem unitsOfCode_scaled {e q : Nat} (hq : q ≤ 0x20000000000000)
    (hlow : 0x10000000000000 ≤ q ∨ e = 0) :
    unitsOfCode (e * 0x10000000000000 + q) = q * 2 ^ e := by
  simp only [unitsOfCode]
  rcases Nat.lt_or_ge q 0x10000000000000 with hsmall | hbig
  · obtain rfl : e = 0 := by omega
    rw [if_pos (by omega)]
    omega
  · rw [if_neg (by omega), Nat.shiftLeft_eq]
    rcases Nat.lt_or_ge q 0x20000000000000 with hlt | hge
    · have hdiv : (e * 0x10000000000000 + q) / 0x10000000000000 - 1 = e := by omega
      have hmod : 0x10000000000000 + (e * 0x10000000000000 + q) % 0x10000000000000 = q := by omega
      rw [hdiv, hmod]
    · have hdiv : (e * 0x10000000000000 + q) / 0x10000000000000 - 1 = e + 1 := by omega
      have hmod : (e * 0x10000000000000 + q) % 0x10000000000000 = 0 := by omega
      obtain rfl : q = 0x20000000000000 := by omega
      rw [hdiv, hmod, Nat.pow_succ]
      ring

theorem exists_scaled (code : Nat) : ∃ e q, q < 0x20000000000000 ∧
    (0x10000000000000 ≤ q ∨ e = 0) ∧ code = e * 0x10000000000000 + q := by
  rcases Nat.lt_or_ge code 0x10000000000000 with hsmall | hbig
  · exact ⟨0, code, by omega, .inr rfl, by omega⟩
  · exact ⟨code / 0x10000000000000 - 1, 0x10000000000000 + code % 0x10000000000000, by omega,
      .inl (by omega), by omega⟩

theorem strictMono_unitsOfCode : StrictMono unitsOfCode := by
  refine strictMono_nat_of_lt_succ fun code => ?_
  obtain ⟨e, q, hq, hlow, rfl⟩ := exists_scaled code
  rw [unitsOfCode_scaled (by omega) hlow, Nat.add_assoc, unitsOfCode_scaled (by omega) (by omega)]
  exact Nat.mul_lt_mul_of_pos_right (Nat.lt_succ_self q) (Nat.two_pow_pos e)

/-- How far the value of a magnitude code is from `n / d` units, as a multiple of `1 / d`. -/
def distance (n d code : Nat) : Nat := (unitsOfCode code * d - n : Int).natAbs

/-- No code is nearer to `n / d` units, and if another one is as near, the code is even. -/
structure IsNearest (n d code : Nat) : Prop where
  near (other : Nat) : distance n d code ≤ distance n d other
  even (other : Nat) : other ≠ code → distance n d code = distance n d other → code % 2 = 0

theorem IsNearest.unique {n d a b : Nat} (hd : 0 < d) (ha : IsNearest n d a) (hb : IsNearest n d b) :
    a = b := by
  by_contra hne
  wlog hlt : a < b generalizing a b
  · exact this hb ha (Ne.symm hne) (by omega)
  have heq := Nat.le_antisymm (ha.near b) (hb.near a)
  have hodd := ha.even b (Ne.symm hne) heq
  have heven := hb.even a hne heq.symm
  -- The code between the two would be nearer than both.
  have hmid := ha.near (a + 1)
  have hlow : unitsOfCode a * d < unitsOfCode (a + 1) * d :=
    Nat.mul_lt_mul_of_pos_right (strictMono_unitsOfCode (Nat.lt_succ_self a)) hd
  have hhigh : unitsOfCode (a + 1) * d < unitsOfCode b * d :=
    Nat.mul_lt_mul_of_pos_right (strictMono_unitsOfCode (by omega)) hd
  simp only [distance] at heq hmid
  simp only [← Int.natCast_mul] at heq hmid
  omega

/-! ## The nearest code -/

/-- The magnitude code nearest to `n / d` units if there were no infinity. -/
def roundCode (n d : Nat) : Nat :=
  ((n / d).log2 - 52) * 0x10000000000000 + roundDiv n (d <<< ((n / d).log2 - 52))

theorem nearestCode_eq (n d : Nat) : nearestCode n d = min (roundCode n d) infiniteCode := rfl

/-- The exponent is chosen so that the quotient has 53 bits, or fewer if it is zero. -/
theorem scaled_bounds {n d e : Nat} (he : e = (n / d).log2 - 52) :
    n / (d * 2 ^ e) < 0x20000000000000 ∧ (0x10000000000000 ≤ n / (d * 2 ^ e) ∨ e = 0) := by
  rw [← Nat.div_div_eq_div_mul]
  have hlt : n / d < 2 ^ ((n / d).log2 + 1) := Nat.lt_log2_self
  rcases Nat.lt_or_ge (n / d).log2 52 with hsmall | hbig
  · obtain rfl : e = 0 := by omega
    have hpow : 2 ^ ((n / d).log2 + 1) ≤ 2 ^ 52 := Nat.pow_le_pow_right (by decide) hsmall
    refine ⟨?_, .inr rfl⟩
    rw [Nat.pow_zero, Nat.div_one]
    omega
  · have hexp : (n / d).log2 = e + 52 := by omega
    have hne : n / d ≠ 0 := by
      intro hzero
      rw [hzero] at hbig
      exact absurd hbig (by decide)
    have hge : 2 ^ (n / d).log2 ≤ n / d := Nat.log2_self_le hne
    rw [hexp] at hlt hge
    constructor
    · apply Nat.div_lt_of_lt_mul
      calc n / d < 2 ^ (e + 52 + 1) := hlt
        _ = 2 ^ e * 0x20000000000000 := by ring
    · refine .inl ((Nat.le_div_iff_mul_le (Nat.two_pow_pos e)).2 ?_)
      calc 0x10000000000000 * 2 ^ e = 2 ^ (e + 52) := by ring
        _ ≤ n / d := hge

theorem distance_scaled {n d code j e : Nat} (h : unitsOfCode code = j * 2 ^ e) :
    distance n d code = (j * (d * 2 ^ e : Nat) - n : Int).natAbs := by
  rw [distance, h]
  congr 2
  push_cast
  ring

/-- A code with a smaller exponent is not near to a quotient of 53 bits. -/
theorem distance_of_small {n d e f q : Nat} (hd : 0 < d) (hf : f < e) (hq : q < 0x20000000000000)
    (hn : 0x10000000000000 * (d * 2 ^ e) ≤ n) :
    (0x10000000000000 * (d * 2 ^ e : Nat) - n : Int).natAbs < (q * (d * 2 ^ f : Nat) - n : Int).natAbs := by
  have hlt : q * (d * 2 ^ f) < 0x10000000000000 * (d * 2 ^ e) := by
    have hpos : 0 < d * 2 ^ f := Nat.mul_pos hd (Nat.two_pow_pos f)
    calc q * (d * 2 ^ f) < 0x20000000000000 * (d * 2 ^ f) := Nat.mul_lt_mul_of_pos_right hq hpos
      _ = 0x10000000000000 * (d * 2 ^ (f + 1)) := by ring
      _ ≤ 0x10000000000000 * (d * 2 ^ e) :=
        Nat.mul_le_mul_left _ (Nat.mul_le_mul_left d (Nat.pow_le_pow_right (by decide) hf))
  rw [← Int.natCast_mul]
  generalize q * (d * 2 ^ f) = a at hlt ⊢
  generalize d * 2 ^ e = b at hlt hn ⊢
  omega

/-- Rounding finds the nearest of all codes. -/
theorem isNearest_roundCode (n : Nat) {d : Nat} (hd : 0 < d) : IsNearest n d (roundCode n d) := by
  generalize he : (n / d).log2 - 52 = e
  have hbounds := scaled_bounds he.symm
  have hD : 0 < d * 2 ^ e := Nat.mul_pos hd (Nat.two_pow_pos e)
  have hle := roundDiv_le n (d * 2 ^ e)
  have hge := le_roundDiv n (d * 2 ^ e)
  have hcode : roundCode n d = e * 0x10000000000000 + roundDiv n (d * 2 ^ e) := by
    rw [roundCode, he, Nat.shiftLeft_eq]
  have hunits : unitsOfCode (roundCode n d) = roundDiv n (d * 2 ^ e) * 2 ^ e := by
    rw [hcode]
    exact unitsOfCode_scaled (by omega) (by omega)
  have hother (other : Nat) (hne : other ≠ roundCode n d) :
      distance n d (roundCode n d) ≤ distance n d other ∧
        (distance n d (roundCode n d) = distance n d other → roundCode n d % 2 = 0) := by
    obtain ⟨f, q, hq, hlow, hscaled⟩ := exists_scaled other
    have hvalue : unitsOfCode other = q * 2 ^ f := hscaled ▸ unitsOfCode_scaled (by omega) hlow
    rw [distance_scaled hunits]
    rcases Nat.lt_or_ge f e with hsmall | hbig
    · have hn : 0x10000000000000 * (d * 2 ^ e) ≤ n :=
        (Nat.le_div_iff_mul_le hD).1 (hbounds.2.resolve_right (by omega))
      have hfar := distance_of_small hd hsmall hq hn
      rw [distance_scaled hvalue]
      have hnear : (roundDiv n (d * 2 ^ e) * (d * 2 ^ e : Nat) - n : Int).natAbs ≤
          (0x10000000000000 * (d * 2 ^ e : Nat) - n : Int).natAbs := by
        by_cases hk : 0x10000000000000 = roundDiv n (d * 2 ^ e)
        · rw [← hk]
          rfl
        · exact (roundDiv_nearest n hD hk).1
      exact ⟨Nat.le_of_lt (Nat.lt_of_le_of_lt hnear hfar), fun heq => absurd heq
        (Nat.ne_of_lt (Nat.lt_of_le_of_lt hnear hfar))⟩
    · have hvalue' : unitsOfCode other = q * 2 ^ (f - e) * 2 ^ e := by
        rw [hvalue, Nat.mul_assoc, ← Nat.pow_add, Nat.sub_add_cancel hbig]
      rw [distance_scaled hvalue']
      have hj : q * 2 ^ (f - e) ≠ roundDiv n (d * 2 ^ e) := by
        intro hj
        rw [hj, ← hunits] at hvalue'
        exact hne (strictMono_unitsOfCode.injective hvalue')
      refine (roundDiv_nearest n hD hj).imp_right fun heven heq => ?_
      have hk := heven heq
      omega
  constructor
  · intro other
    by_cases hne : other = roundCode n d
    · rw [hne]
    · exact (hother other hne).1
  · exact fun other hne => (hother other hne).2

/-! ## Decimals -/

/-- The double is the one that `n / d` is rounded to: the nearest one, or infinity beyond all of them. -/
def Rounds (x : Binary64) (n d : Nat) : Prop :=
  ∃ code, IsNearest (n * unitsInOne) d code ∧ x = ofCode false (min code infiniteCode)

theorem rounds_iff {x : Binary64} {n d : Nat} (hd : 0 < d) :
    x.Rounds n d ↔ x = ofUnits false (n * unitsInOne) d := by
  have hround := isNearest_roundCode (n * unitsInOne) hd
  constructor
  · rintro ⟨code, hcode, rfl⟩
    rw [hcode.unique hd hround]
    rfl
  · rintro rfl
    exact ⟨_, hround, rfl⟩

theorem nearestCode_of_small {n d : Nat} (h : 2 * n < d) : nearestCode n d = 0 := by
  have hdiv : n / d = 0 := Nat.div_eq_of_lt (by omega)
  have hmod : n % d = n := Nat.mod_eq_of_lt (by omega)
  have hround : roundDiv n d = 0 := by
    simp only [roundDiv]
    rw [hdiv, hmod, if_neg]
    simp only [Bool.or_eq_true, Bool.and_eq_true, decide_eq_true_eq, beq_iff_eq]
    omega
  rw [nearestCode, hdiv]
  simpa using .inl hround

/-- A decimal that is not worked out because it is too small lies below half a unit. -/
theorem decimal_small {n places : Nat} (hplaces : 330 + n.log2 < places) :
    2 * (n * unitsInOne) < 10 ^ places := by
  have hn : n < 2 ^ (n.log2 + 1) := Nat.lt_log2_self
  have hpower (k : Nat) : 1 <<< k = 2 ^ k := (Nat.shiftLeft_eq 1 k).trans (Nat.one_mul _)
  have hunits : unitsInOne = 2 ^ 1074 := hpower 1074
  have hconst : 2 ^ (1074 + 2) ≤ 10 ^ 331 := by decide +kernel
  have hlt (k : Nat) : 2 * (n * 2 ^ k) < 2 ^ n.log2 * 2 ^ (k + 2) := by
    have hmul := Nat.mul_lt_mul_of_pos_right hn (Nat.two_pow_pos k)
    calc 2 * (n * 2 ^ k) < 2 * (2 ^ (n.log2 + 1) * 2 ^ k) := Nat.mul_lt_mul_of_pos_left hmul (by decide)
      _ = 2 ^ n.log2 * 2 ^ (k + 2) := by ring
  have hsum (k : Nat) : 10 ^ n.log2 * 10 ^ k = 10 ^ (n.log2 + k) := (Nat.pow_add 10 n.log2 k).symm
  rw [hunits]
  calc 2 * (n * 2 ^ 1074) < 2 ^ n.log2 * 2 ^ (1074 + 2) := hlt 1074
    _ ≤ 10 ^ n.log2 * 10 ^ 331 := Nat.mul_le_mul (Nat.pow_le_pow_left (by decide) _) hconst
    _ = 10 ^ (n.log2 + 331) := hsum 331
    _ ≤ 10 ^ places := Nat.pow_le_pow_right (by decide) (by omega)

/-- A decimal with places after the point is rounded to the nearest double. -/
theorem rounds_ofDecimal {x : Binary64} {n places : Nat} :
    x.Rounds n (10 ^ places) ↔ x = ofDecimal false n (-places) := by
  have hpos : 0 < 10 ^ places := Nat.pow_pos (by decide)
  rw [rounds_iff hpos]
  suffices h : ofUnits false (n * unitsInOne) (10 ^ places) = ofDecimal false n (-places) by rw [h]
  rw [ofDecimal]
  split
  case isTrue hzero =>
    rw [ofUnits, hzero, Nat.zero_mul, nearestCode_of_small hpos]
    rfl
  case isFalse hn =>
    rw [if_neg (by omega)]
    split
    case isTrue hsmall =>
      rw [ofUnits, nearestCode_of_small (decimal_small (by omega))]
      rfl
    case isFalse =>
      split
      case isTrue hwhole =>
        obtain rfl : places = 0 := by omega
        rw [Int.toNat_neg_natCast, Nat.pow_eq, Nat.pow_zero, Nat.mul_one]
      case isFalse => rw [Int.neg_neg, Int.toNat_natCast, Nat.pow_eq]

end Binary64

end ClusterWatch.Decimal
