import ClusterWatch.Proofs.Decimal.Nearest

/-!
# The range of the doubles

Rounding is monotone (`IsNearest.le`), so what is rounded to a finite double is all that lies below one bound,
half way between the largest double and the one that would follow it (`Rounds.isFinite_iff`). The bound itself
is a tie, and goes to infinity, whose code is even.
-/

namespace ClusterWatch.Decimal.Binary64

/-! ## Codes -/

theorem code_ofCode {code : Nat} (negative : Bool) (h : code ≤ infiniteCode) : (ofCode negative code).code = code := by
  have hbound : infiniteCode < 0x8000000000000000 := by decide
  have hsize : UInt64.size = 0x10000000000000000 := rfl
  simp only [ofCode, Binary64.code, UInt64.toNat_ofNat']
  cases negative
  all_goals
    simp only [Bool.false_eq_true, if_true, if_false]
    omega

theorem isFinite_ofCode {code : Nat} (negative : Bool) (h : code ≤ infiniteCode) :
    (ofCode negative code).isFinite = true ↔ code < infiniteCode := by
  rw [isFinite, code_ofCode negative h, decide_eq_true_eq]

theorem value_of_isFinite {x : Binary64} (h : x.isFinite = true) :
    x.value = .finite x.isNegative (unitsOfCode x.code) := by
  rw [isFinite, decide_eq_true_eq] at h
  exact if_pos h

theorem value_of_not_isFinite {x : Binary64} (h : x.isFinite = false) :
    x.value = .nan ∨ ∃ negative, x.value = .infinite negative := by
  rw [isFinite, decide_eq_false_iff_not] at h
  rw [value, if_neg h]
  split
  · exact .inr ⟨_, rfl⟩
  · exact .inl rfl

/-! ## Larger quotients -/

/-- Of two quotients the larger one has no smaller nearest code. -/
theorem IsNearest.le {n m d a b : Nat} (hd : 0 < d) (ha : IsNearest n d a) (hb : IsNearest m d b) (h : n ≤ m) :
    a ≤ b := by
  by_contra hlt
  have hunits : unitsOfCode b * d < unitsOfCode a * d :=
    Nat.mul_lt_mul_of_pos_right (strictMono_unitsOfCode (by omega)) hd
  have hnear := ha.near b
  have hnear' := hb.near a
  simp only [distance, ← Int.natCast_mul] at hnear hnear'
  -- Both quotients would lie half way between the two codes.
  have heq : n = m := by omega
  subst heq
  exact hlt (ha.unique hd hb).le

theorem roundCode_mono {n m d : Nat} (hd : 0 < d) (h : n ≤ m) : roundCode n d ≤ roundCode m d :=
  (isNearest_roundCode n hd).le hd (isNearest_roundCode m hd) h

theorem isFinite_ofUnits {negative : Bool} {n d : Nat} :
    (ofUnits negative n d).isFinite = true ↔ roundCode n d < infiniteCode := by
  rw [ofUnits, nearestCode_eq, isFinite_ofCode negative (Nat.min_le_right _ _)]
  omega

theorem isFinite_ofUnits_mono {n m d : Nat} (hd : 0 < d) (h : n ≤ m) {s t : Bool}
    (hm : (ofUnits t m d).isFinite = true) : (ofUnits s n d).isFinite = true := by
  rw [isFinite_ofUnits] at hm ⊢
  exact (roundCode_mono hd h).trans_lt hm

/-- The value of a finite rounded quotient. -/
theorem value_ofUnits {negative : Bool} {n d : Nat} (h : (ofUnits negative n d).isFinite = true) :
    (ofUnits negative n d).value = .finite (ofUnits negative n d).isNegative (unitsOfCode (roundCode n d)) := by
  have hcode : (ofUnits negative n d).code = roundCode n d := by
    rw [ofUnits, code_ofCode negative (nearestCode_eq n d ▸ Nat.min_le_right _ _), nearestCode_eq,
      Nat.min_eq_left (isFinite_ofUnits.1 h).le]
  rw [value_of_isFinite h, hcode]

/-- Smaller factors do not take a product out of the range. -/
theorem isFinite_mul_mono {a a' b b' : Nat} (ha' : (ofNat a').isFinite = true) (hb' : (ofNat b').isFinite = true)
    (h : ((ofNat a').mul (ofNat b')).isFinite = true) (ha : a ≤ a') (hb : b ≤ b') :
    ((ofNat a).mul (ofNat b)).isFinite = true := by
  have hunit : 0 < unitsInOne := by decide
  have hunits {n m : Nat} (hle : n ≤ m) : n * unitsInOne ≤ m * unitsInOne := Nat.mul_le_mul_right _ hle
  have hmono {n m : Nat} (hle : n ≤ m) : unitsOfCode (roundCode n 1) ≤ unitsOfCode (roundCode m 1) :=
    strictMono_unitsOfCode.monotone (roundCode_mono Nat.one_pos hle)
  have hvalue {n m : Nat} (hle : n ≤ m) (hm : (ofNat m).isFinite = true) :
      (ofNat n).value = .finite (ofNat n).isNegative (unitsOfCode (roundCode (n * unitsInOne) 1)) :=
    value_ofUnits (isFinite_ofUnits_mono Nat.one_pos (hunits hle) hm)
  rw [mul, hvalue le_rfl ha', hvalue le_rfl hb'] at h
  rw [mul, hvalue ha ha', hvalue hb hb']
  exact isFinite_ofUnits_mono hunit (Nat.mul_le_mul (hmono (hunits ha)) (hmono (hunits hb))) h

/-! ## The bound -/

/-- Half way between the largest double and the power of two that would follow it. -/
def overflowBound : Nat := 0x3fffffffffffff <<< 970

/-- The largest double, which is an integer. -/
def largest : Nat := 0x1fffffffffffff <<< 971

theorem units_largest : unitsOfCode (infiniteCode - 1) = largest * unitsInOne := by decide +kernel

theorem units_overflowBound :
    unitsOfCode (infiniteCode - 1) + unitsOfCode infiniteCode = 2 * (overflowBound * unitsInOne) := by decide +kernel

/-- Rounding stays at or below an odd code exactly for what is less than the midpoint above it. -/
theorem IsNearest.le_iff_of_odd {n d code odd : Nat} (hd : 0 < d) (h : IsNearest n d code) (hodd : odd % 2 = 1) :
    code ≤ odd ↔ 2 * n < (unitsOfCode odd + unitsOfCode (odd + 1)) * d := by
  have hnext : unitsOfCode odd * d < unitsOfCode (odd + 1) * d :=
    Nat.mul_lt_mul_of_pos_right (strictMono_unitsOfCode (Nat.lt_succ_self odd)) hd
  have hmono {a b : Nat} (hab : a ≤ b) : unitsOfCode a * d ≤ unitsOfCode b * d :=
    Nat.mul_le_mul_right d (strictMono_unitsOfCode.monotone hab)
  rw [Nat.add_mul]
  constructor
  · intro hle
    have hnear := h.near (odd + 1)
    have hcode := hmono hle
    by_cases heq : code = odd
    · subst heq
      have heven := h.even (code + 1) (Nat.succ_ne_self code)
      simp only [distance, ← Int.natCast_mul] at hnear heven
      omega
    · have hlt : unitsOfCode code * d < unitsOfCode odd * d :=
        Nat.mul_lt_mul_of_pos_right (strictMono_unitsOfCode (by omega)) hd
      simp only [distance, ← Int.natCast_mul] at hnear
      omega
  · intro hlt
    by_contra hgt
    have hnear := h.near odd
    have hcode := hmono (show odd + 1 ≤ code by omega)
    simp only [distance, ← Int.natCast_mul] at hnear
    omega

/-- What is rounded to a double is rounded to a finite one if and only if it is below the bound. -/
theorem Rounds.isFinite_iff {x : Binary64} {n d : Nat} (hd : 0 < d) (h : x.Rounds n d) :
    x.isFinite = true ↔ n < overflowBound * d := by
  obtain ⟨code, hcode, rfl⟩ := h
  have hodd : (infiniteCode - 1) % 2 = 1 := by decide
  have hlast : infiniteCode - 1 + 1 = infiniteCode := by decide
  have hle := hcode.le_iff_of_odd hd hodd
  rw [hlast, units_overflowBound] at hle
  have hcancel : 2 * (n * unitsInOne) < 2 * (overflowBound * unitsInOne) * d ↔ n < overflowBound * d := by
    have hleft : 2 * (n * unitsInOne) = n * (2 * unitsInOne) := by ring
    have hright : 2 * (overflowBound * unitsInOne) * d = overflowBound * d * (2 * unitsInOne) := by ring
    rw [hleft, hright]
    exact Nat.mul_lt_mul_right (by decide)
  rw [isFinite_ofCode false (Nat.min_le_right _ _), ← hcancel, ← hle]
  omega

end ClusterWatch.Decimal.Binary64
