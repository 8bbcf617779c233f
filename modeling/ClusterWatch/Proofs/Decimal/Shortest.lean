import ClusterWatch.Decimal.Writing
import ClusterWatch.Proofs.Decimal.Range
import Mathlib.Algebra.Order.Field.Power
import Mathlib.Data.Nat.Digits.Defs
import Mathlib.Data.Rat.Cast.Order
import Mathlib.Tactic.FieldSimp
import Mathlib.Tactic.Positivity

/-!
# Bounds on shortest decimals

The shortest decimal of a finite double has at most eighteen digits (`digits_shortest_le`) and is not beyond the
largest double (`value_shortest_le`). It comes from the interval of the numbers that round to the double, and
only the interval of the largest double goes beyond it; what is found there is looked at on its own.
-/

namespace ClusterWatch.Decimal
open Binary64

namespace Scaled

/-- The number that a decimal stands for. -/
def value (s : Scaled) : ℚ := s.digits * 10 ^ s.exponent

/-- A decimal by its integral power and its integral divisor. -/
theorem value_eq (s : Scaled) :
    s.value = s.digits * 10 ^ s.exponent.toNat / 10 ^ (-s.exponent).toNat := by
  rw [value, mul_div_assoc]
  congr 1
  rcases le_total 0 s.exponent with h | h
  · obtain ⟨e, he⟩ := Int.eq_ofNat_of_zero_le h
    simp [he]
  · obtain ⟨e, he⟩ := Int.eq_ofNat_of_zero_le (Int.neg_nonneg_of_nonpos h)
    obtain he : s.exponent = -e := by omega
    simp [he]

theorem value_le_iff {s : Scaled} {n : Nat} :
    s.value ≤ n ↔ s.digits * 10 ^ s.exponent.toNat ≤ n * 10 ^ (-s.exponent).toNat := by
  rw [value_eq, div_le_iff₀ (by positivity)]
  exact_mod_cast Iff.rfl

/-- Without its last zeros a decimal stands for the same number. -/
theorem value_stripZeros (fuel : Nat) (s : Scaled) : (stripZeros fuel s).value = s.value := by
  induction fuel generalizing s with
  | zero => rfl
  | succ fuel ih =>
    rw [stripZeros]
    split
    case isTrue h =>
      have hdigits : s.digits = s.digits / 10 * 10 := by omega
      rw [ih]
      calc (s.digits / 10 : Nat) * (10 : ℚ) ^ (s.exponent + 1)
          = (s.digits / 10 * 10 : Nat) * (10 : ℚ) ^ s.exponent := by
            rw [zpow_add_one₀ (by norm_num)]
            push_cast
            ring
        _ = s.digits * (10 : ℚ) ^ s.exponent := by rw [← hdigits]
    case isFalse => rfl

theorem digits_stripZeros_le (fuel : Nat) (s : Scaled) : (stripZeros fuel s).digits ≤ s.digits := by
  induction fuel generalizing s with
  | zero => exact le_rfl
  | succ fuel ih =>
    rw [stripZeros]
    split
    case isTrue => exact (ih _).trans (Nat.div_le_self _ _)
    case isFalse => exact le_rfl

theorem stripZeros_pos (fuel : Nat) {s : Scaled} (h : 0 < s.digits) : 0 < (stripZeros fuel s).digits := by
  induction fuel generalizing s with
  | zero => exact h
  | succ fuel ih =>
    rw [stripZeros]
    split
    case isTrue hten => exact ih (by dsimp only; omega)
    case isFalse => exact h

end Scaled

/-! ## One grid -/

/-- What a grid gives is in the interval, and is the point below the value or the next one. -/
theorem onGrid?_eq_some {code : Nat} {exponent : Int} {s : Scaled} (h : onGrid? code exponent = some s) :
    let up := Nat.pow 10 (-exponent).toNat
    let step := unitsInOne * Nat.pow 10 exponent.toNat
    s.exponent = exponent ∧ s.digits ≤ unitsOfCode code * up / step + 1 ∧
      (RoundingInterval.ofCode code).contains (2 * s.digits * step) up = true := by
  intro up step
  rw [onGrid?] at h
  dsimp only at h
  split at h
  case isTrue hfits =>
    cases h
    exact ⟨rfl, roundDiv_le _ _, hfits⟩
  split at h
  case isTrue hfits =>
    cases h
    exact ⟨rfl, Nat.le_succ _, hfits⟩
  split at h
  case isTrue hfits =>
    cases h
    exact ⟨rfl, le_rfl, hfits⟩
  case isFalse => cases h

theorem le_high_of_contains {i : RoundingInterval} {n d : Nat} (h : i.contains n d = true) : n ≤ i.high * d := by
  rw [RoundingInterval.contains] at h
  split at h
  all_goals
    simp only [Bool.and_eq_true, decide_eq_true_eq] at h
    omega

theorem low_le_of_contains {i : RoundingInterval} {n d : Nat} (h : i.contains n d = true) : i.low * d ≤ n := by
  rw [RoundingInterval.contains] at h
  split at h
  all_goals
    simp only [Bool.and_eq_true, decide_eq_true_eq] at h
    omega

/-- A number with so many digits before a point that is moved by `k` places, with the point at another place. -/
theorem lt_of_digitCount {units unit k count up down n : Nat} (hunit : 0 < unit)
    (hcount : digitCount (units * Nat.pow 10 k / unit) = count) (h : count + up = n + down + k) :
    units * 10 ^ up < 10 ^ n * (unit * 10 ^ down) := by
  have hpos : 0 < count := hcount ▸ Nat.length_toDigits_pos
  have hlead : units * 10 ^ k < 10 ^ count * unit := by
    rw [← Nat.div_lt_iff_lt_mul hunit, ← Nat.length_toDigits_le_iff (by decide) hpos]
    exact hcount.le
  refine Nat.lt_of_mul_lt_mul_right (a := 10 ^ k) ?_
  calc units * 10 ^ up * 10 ^ k
      = units * 10 ^ k * 10 ^ up := Nat.mul_right_comm ..
    _ < 10 ^ count * unit * 10 ^ up := Nat.mul_lt_mul_of_pos_right hlead (by positivity)
    _ = 10 ^ (count + up) * unit := by rw [Nat.pow_add, Nat.mul_right_comm]
    _ = 10 ^ (n + down + k) * unit := by rw [h]
    _ = 10 ^ n * (unit * 10 ^ down) * 10 ^ k := by
      rw [Nat.pow_add, Nat.pow_add]
      ac_rfl

/-- The grid that is `n` places finer than the leading digit has fewer than `10 ^ (n + 1)` points up to the
value. -/
theorem points_lt {units n : Nat} {exponent : Int} (he : exponent = leadingExponent units - n) :
    units * Nat.pow 10 (-exponent).toNat / (unitsInOne * Nat.pow 10 exponent.toNat) < 10 ^ (n + 1) := by
  have hunit : 0 < unitsInOne := by decide
  have hstep : 0 < unitsInOne * 10 ^ exponent.toNat := Nat.mul_pos hunit (Nat.pow_pos (by decide))
  obtain ⟨count, hcount⟩ : ∃ count, digitCount (units * Nat.pow 10 350 / unitsInOne) = count := ⟨_, rfl⟩
  have hpos : 0 < count := hcount ▸ Nat.length_toDigits_pos
  refine (Nat.div_lt_iff_lt_mul hstep).2 (lt_of_digitCount hunit hcount ?_)
  rw [leadingExponent, hcount] at he
  clear hcount
  omega

/-! ## All grids -/

/-- The shortest decimal is the one of a grid, without its last zeros. -/
theorem shortest_cases (x : Binary64) : shortest x = ⟨0, 0⟩ ∨
    ∃ n < 17, ∃ s, onGrid? x.code (leadingExponent (unitsOfCode x.code) - (n : Nat)) = some s ∧
      shortest x = s.stripZeros 17 := by
  rw [shortest]
  generalize hfound : (List.range 17).findSome? _ = found
  cases found with
  | none => exact .inl rfl
  | some s =>
    obtain ⟨n, hn, hgrid⟩ := List.exists_of_findSome?_eq_some hfound
    exact .inr ⟨n, List.mem_range.1 hn, s, hgrid, rfl⟩

theorem digits_shortest_le (x : Binary64) : (shortest x).digits ≤ 10 ^ 17 := by
  rcases shortest_cases x with h | ⟨n, hn, s, hgrid, h⟩
  · rw [h]
    exact Nat.zero_le _
  · rw [h]
    calc (s.stripZeros 17).digits ≤ s.digits := s.digits_stripZeros_le 17
      _ ≤ 10 ^ (n + 1) := (onGrid?_eq_some hgrid).2.1.trans (Nat.succ_le_of_lt (points_lt rfl))
      _ ≤ 10 ^ 17 := Nat.pow_le_pow_right (by decide) hn

/-- The shortest decimal of a double that is not zero is not zero, unless none is found. -/
theorem shortest_eq_zero_or_pos {x : Binary64} (h : x.code ≠ 0) : shortest x = ⟨0, 0⟩ ∨ 0 < (shortest x).digits := by
  rcases shortest_cases x with hzero | ⟨n, hn, s, hgrid, hs⟩
  · exact .inl hzero
  refine .inr (hs ▸ Scaled.stripZeros_pos 17 (Nat.pos_of_ne_zero fun hdigits => ?_))
  have hlow := low_le_of_contains (onGrid?_eq_some hgrid).2.2
  have hunits : 0 < unitsOfCode x.code := (Nat.zero_le _).trans_lt (strictMono_unitsOfCode (Nat.pos_of_ne_zero h))
  rw [hdigits, Nat.mul_zero, Nat.zero_mul, Nat.le_zero, Nat.mul_eq_zero] at hlow
  rcases hlow with hlow | hup
  · simp only [RoundingInterval.ofCode] at hlow
    omega
  · exact absurd hup (Nat.pow_pos (by decide)).ne'

theorem value_le_of_onGrid? {code : Nat} (hcode : code < infiniteCode - 1) {exponent : Int} {s : Scaled}
    (h : onGrid? code exponent = some s) : s.value ≤ largest := by
  obtain ⟨rfl, -, hfits⟩ := onGrid?_eq_some h
  have hunit : 0 < 2 * unitsInOne := by decide
  have hhigh : unitsOfCode code + unitsOfCode (code + 1) ≤ 2 * (largest * unitsInOne) := by
    have hcode' := strictMono_unitsOfCode.monotone hcode.le
    have hnext := strictMono_unitsOfCode.monotone (show code + 1 ≤ infiniteCode - 1 by omega)
    rw [units_largest] at hcode' hnext
    omega
  have hle := (le_high_of_contains hfits).trans (Nat.mul_le_mul_right _ hhigh)
  rw [Scaled.value_le_iff]
  refine Nat.le_of_mul_le_mul_left ?_ hunit
  calc 2 * unitsInOne * (s.digits * 10 ^ s.exponent.toNat)
      = 2 * s.digits * (unitsInOne * 10 ^ s.exponent.toNat) := by ac_rfl
    _ ≤ 2 * (largest * unitsInOne) * 10 ^ (-s.exponent).toNat := hle
    _ = 2 * unitsInOne * (largest * 10 ^ (-s.exponent).toNat) := by ac_rfl

/-- Above the largest double its interval has no decimal of seventeen digits or fewer that is nearer. -/
theorem shortest_largest : shortest (ofCode false (infiniteCode - 1)) = ⟨17976931348623157, 292⟩ := by decide +kernel

theorem shortest_of_code {x y : Binary64} (h : x.code = y.code) : shortest x = shortest y := by
  rw [shortest, shortest, h]

/-- The shortest decimal of a finite double is not larger than the largest of them. -/
theorem value_shortest_le {x : Binary64} (h : x.isFinite = true) : (shortest x).value ≤ largest := by
  rw [isFinite, decide_eq_true_eq] at h
  by_cases hlast : x.code = infiniteCode - 1
  · have hcode : x.code = (ofCode false (infiniteCode - 1)).code := by
      rw [hlast, code_ofCode false (Nat.sub_le ..)]
    rw [shortest_of_code hcode, shortest_largest, Scaled.value_le_iff]
    decide +kernel
  · rcases shortest_cases x with hzero | ⟨n, hn, s, hgrid, hs⟩
    · rw [hzero, Scaled.value_le_iff]
      exact (Nat.zero_mul _).le.trans (Nat.zero_le _)
    · rw [hs, Scaled.value_stripZeros]
      exact value_le_of_onGrid? (by omega) hgrid

end ClusterWatch.Decimal
