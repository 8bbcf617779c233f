import ClusterWatch.Proofs.Decimal.Shortest
import ClusterWatch.Proofs.Json.Values

/-!
# Doubles written as JSON

Every finite double is written as a JSON number that is read as a number (`exists_writes_real`); an infinity or NaN
is written as null, which is none. The reader works out a significand of at most seventeen digits and a power of ten
by a product of two doubles, so it may refuse a number next to the largest double: it does not refuse one that is not
beyond it (`isSome_ofText?`), and no shortest decimal is.
-/

namespace ClusterWatch
open Decimal Binary64 Text Line

namespace JsonNumber

/-! ## Ranges -/

theorem pow_ten_mono {a b : Nat} (h : a ≤ b) : Nat.pow 10 a ≤ Nat.pow 10 b := Nat.pow_le_pow_right (by decide) h

theorem ofDecimal_one {e : Nat} (he : e ≤ 308) : ofDecimal false 1 e = ofNat (Nat.pow 10 e) := by
  have hlarge : ¬ (310 : Int) < e := by omega
  have hsmall : ¬ (e : Int) < -(330 + ((1 : Nat).log2 : Int)) := by omega
  rw [ofDecimal, if_neg (by decide), if_neg hlarge, if_neg hsmall, if_pos (Int.natCast_nonneg e), Nat.one_mul,
    Int.toNat_natCast, ofNat]

/-- With the largest powers of ten, the significand can be as large as the range allows, although the power and
the product are both rounded. -/
theorem isFinite_mul_of_large : ∀ k < 17,
    (ofNat (largest / Nat.pow 10 (292 + k))).isFinite = true ∧ (ofNat (Nat.pow 10 (292 + k))).isFinite = true ∧
      ((ofNat (largest / Nat.pow 10 (292 + k))).mul (ofNat (Nat.pow 10 (292 + k)))).isFinite = true := by
  decide +kernel

theorem isFinite_mul_of_small : ∃ k, 291 ≤ k ∧
    (ofNat (Nat.pow 10 17)).isFinite = true ∧ (ofNat (Nat.pow 10 k)).isFinite = true ∧
      ((ofNat (Nat.pow 10 17)).mul (ofNat (Nat.pow 10 k))).isFinite = true :=
  ⟨291, by decide +kernel⟩

/-- A significand of seventeen digits and a power of ten are multiplied without leaving the range, if their exact
product does not leave it. -/
theorem isFinite_mul {m e : Nat} (hm : m ≤ Nat.pow 10 17) (he : e ≤ 308) (hle : m * Nat.pow 10 e ≤ largest) :
    ((ofNat m).mul (ofDecimal false 1 e)).isFinite = true := by
  rw [ofDecimal_one he]
  rcases Nat.lt_or_ge e 292 with hsmall | hlarge
  · obtain ⟨k, hk, hsignificand, hpower, hproduct⟩ := isFinite_mul_of_small
    exact isFinite_mul_mono hsignificand hpower hproduct hm (pow_ten_mono (by omega))
  · obtain ⟨hsignificand, hpower, hproduct⟩ := isFinite_mul_of_large (e - 292) (by omega)
    rw [Nat.add_sub_cancel' hlarge] at hsignificand hpower hproduct
    have hquotient : m ≤ largest / Nat.pow 10 e := (Nat.le_div_iff_mul_le (Nat.pow_pos (by decide))).2 hle
    exact isFinite_mul_mono hsignificand hpower hproduct hquotient le_rfl

theorem isSome_scale_of_neg (fuel : Nat) (x : Binary64) {e : Int} (h : e < 0) : (scale fuel x e).isSome = true := by
  induction fuel generalizing x e with
  | zero => rfl
  | succ fuel ih =>
    rw [scale]
    split
    case isTrue =>
      rw [if_neg (by omega)]
      rfl
    case isFalse hfar =>
      split
      case isTrue => rfl
      case isFalse =>
        rw [if_neg (by omega)]
        exact ih _ (by omega)

/-- Only zero can be multiplied by a power of ten that is out of range. -/
theorem eq_zero_of_far {m e : Nat} (he : 308 < e) (hle : m * Nat.pow 10 e ≤ largest) : m = 0 := by
  by_contra hne
  obtain ⟨k, hk, hlarge⟩ : ∃ k ≤ 309, largest < Nat.pow 10 k := ⟨309, by decide +kernel⟩
  have hpow : Nat.pow 10 k ≤ Nat.pow 10 e := pow_ten_mono (by omega)
  have hfactor := Nat.le_mul_of_pos_left (Nat.pow 10 e) (Nat.pos_of_ne_zero hne)
  exact absurd (hpow.trans (hfactor.trans hle)) hlarge.not_ge

theorem isSome_scale {m : Nat} {e : Int} (hm : m ≤ Nat.pow 10 17) (hle : 0 ≤ e → m * Nat.pow 10 e.toNat ≤ largest)
    (fuel : Nat) : (scale (fuel + 1) (ofNat m) e).isSome = true := by
  rcases Int.lt_or_le e 0 with hneg | hnonneg
  · exact isSome_scale_of_neg _ _ hneg
  obtain ⟨e, rfl⟩ := Int.eq_ofNat_of_zero_le hnonneg
  have hle := hle hnonneg
  rw [Int.toNat_natCast] at hle
  rw [scale, Int.natAbs_natCast]
  by_cases hnear : e ≤ 308
  · rw [if_pos hnear, if_pos hnonneg]
    dsimp only
    rw [if_pos (isFinite_mul hm hnear hle)]
    rfl
  · have hofNat : ofNat 0 = .zero false := by decide +kernel
    rw [if_neg hnear, eq_zero_of_far (by omega) hle, if_pos hofNat]
    rfl

theorem isSome_real? (negative : Bool) {m : Nat} {e : Int} (hm : m ≤ Nat.pow 10 17)
    (hle : 0 ≤ e → m * Nat.pow 10 e.toNat ≤ largest) : (real? negative m e).isSome = true := by
  rw [real?, Option.isSome_map]
  exact isSome_scale hm hle 7

end JsonNumber

/-! ## Numbers with places or an exponent -/

namespace NumberText

/-- The digits of a number before and after the point, as one number. -/
def significand (t : NumberText) : Nat := valueFrom 0 (t.whole ++ t.places.getD [])

/-- The power of ten that is written as an exponent. -/
def writtenPower (t : NumberText) : Int :=
  match t.exponent with
  | none => 0
  | some (negative, ds) => if negative then -(valueFrom 0 ds : Int) else valueFrom 0 ds

/-- The power of ten that the significand is multiplied by. -/
def power (t : NumberText) : Int := t.writtenPower - (t.places.getD []).length

end NumberText

namespace JsonNumber

theorem ofText?_of_fits {t : NumberText} (hform : t.places.isSome = true ∨ t.exponent.isSome = true)
    (hfits : t.significand < UInt64.size) :
    ofText? t = (withExponent? t.negative t.significand (-((t.places.getD []).length : Int)) t.exponent).map .real := by
  obtain ⟨negative, whole, places, exponent⟩ := t
  have happend (ds : List Char) : valueFrom 0 (whole ++ ds) = valueFrom (valueFrom 0 whole) ds := List.foldl_append ..
  have hwhole : valueFrom 0 whole < UInt64.size := by
    refine Nat.lt_of_le_of_lt ?_ hfits
    rw [NumberText.significand, happend]
    exact le_valueFrom _ _
  simp only [ofText?, significand_of_lt hwhole]
  cases places with
  | none =>
    have hexponent : exponent.isSome = true := by simpa using hform
    simp [NumberText.significand, hexponent]
  | some ds =>
    have hall := hfits
    rw [NumberText.significand, happend] at hall
    have hread : significand (valueFrom 0 whole) ds = (valueFrom (valueFrom 0 whole) ds, []) := significand_of_lt hall
    simp [NumberText.significand, happend, hread]

/-- A number of not too many places is in range if its significand has at most seventeen digits, and is not
larger than the largest double. -/
theorem isSome_withExponent? {t : NumberText} (hm : t.significand ≤ Nat.pow 10 17)
    (hplaces : (t.places.getD []).length ≤ 1000)
    (hle : 0 ≤ t.power → t.significand * Nat.pow 10 t.power.toNat ≤ largest) :
    (withExponent? t.negative t.significand (-((t.places.getD []).length : Int)) t.exponent).isSome = true := by
  have hpower : t.power = t.writtenPower - (t.places.getD []).length := rfl
  generalize (t.places.getD []).length = dropped at hplaces hpower
  cases hexponent : t.exponent with
  | none =>
    have hwritten : t.writtenPower = 0 := by rw [NumberText.writtenPower, hexponent]
    rw [hwritten, Int.zero_sub] at hpower
    rw [hpower] at hle
    exact isSome_real? _ hm hle
  | some e =>
    obtain ⟨sign, ds⟩ := e
    have hwritten : t.writtenPower = if sign then -(valueFrom 0 ds : Int) else valueFrom 0 ds := by
      rw [NumberText.writtenPower, hexponent]
    rw [withExponent?]
    by_cases hfits : valueFrom 0 ds ≤ largestExponent
    · have hread : exponentOf? (sign, ds) = some t.writtenPower := by rw [exponentOf?, if_pos hfits, hwritten]
      have hsum : -(dropped : Int) + t.writtenPower = t.power := by omega
      rw [hread]
      dsimp only
      rw [hsum]
      refine isSome_real? _ hm fun hnonneg => ?_
      have hpow : Nat.pow 10 (saturate t.power).toNat ≤ Nat.pow 10 t.power.toNat :=
        pow_ten_mono (by rw [saturate] at *; omega)
      exact (Nat.mul_le_mul_left _ hpow).trans (hle (by rw [saturate] at hnonneg; omega))
    · have hread : exponentOf? (sign, ds) = none := by rw [exponentOf?, if_neg hfits]
      rw [hread]
      dsimp only
      cases sign with
      | true =>
        rw [if_neg (by simp)]
        rfl
      | false =>
        rw [largestExponent] at hfits
        rw [if_neg Bool.false_ne_true] at hwritten
        have hzero := eq_zero_of_far (by omega) (hle (by omega))
        rw [if_neg (by simp [hzero])]
        rfl

theorem isSome_ofText? {t : NumberText} (hform : t.places.isSome = true ∨ t.exponent.isSome = true)
    (hm : t.significand ≤ Nat.pow 10 17) (hplaces : (t.places.getD []).length ≤ 1000)
    (hle : 0 ≤ t.power → t.significand * Nat.pow 10 t.power.toNat ≤ largest) : (ofText? t).isSome = true := by
  rw [ofText?_of_fits hform (hm.trans_lt (by decide)), Option.isSome_map]
  exact isSome_withExponent? hm hplaces hle

end JsonNumber

/-! ## Texts of decimals -/

theorem valueFrom_zeros (k : Nat) (cs : List Char) : valueFrom 0 (List.replicate k '0' ++ cs) = valueFrom 0 cs := by
  induction k with
  | zero => rfl
  | succ k ih => exact ih

theorem valueFrom_lt {cs : List Char} (h : ∀ c ∈ cs, c.isDigit = true) : valueFrom 0 cs < 10 ^ cs.length := by
  rw [valueFrom_zero, numeral, ← List.length_map (f := digitValue), ← List.length_reverse]
  refine Nat.ofDigits_lt_base_pow_length (by decide) fun d hd => ?_
  obtain ⟨c, hc, rfl⟩ := List.mem_map.1 (List.mem_reverse.1 hd)
  have hdigit := toNat_of_isDigit (h c hc)
  have hzero : '0'.toNat = 0x30 := rfl
  rw [digitValue, hzero]
  omega

/-- The text of a number that is in range, with a sign. -/
def IsNumberText (negative : Bool) (text : List Char) : Prop :=
  ∃ t : NumberText, t.IsWritten ∧ t.toChars = (if negative then ['-'] else []) ++ text ∧
    (JsonNumber.ofText? t).isSome = true

theorem isNumeral_append {cs ds : List Char} (h : IsNumeral cs) (h' : ∀ c ∈ ds, c.isDigit = true) :
    IsNumeral (cs ++ ds) :=
  ⟨by simp [h.nonempty], fun c hc => (List.mem_append.1 hc).elim (h.digits c) (h' c)⟩

theorem isDigit_zeros {k : Nat} : ∀ c ∈ List.replicate k '0', c.isDigit = true := by
  intro c hc
  rw [List.eq_of_mem_replicate hc]
  rfl

/-- A number with a point, its digits before and behind the point. -/
theorem isNumberText_point (negative : Bool) {whole places : List Char} (hwhole : IsNumeral whole)
    (hleading : whole.length = 1 ∨ whole.head? ≠ some '0') (hplaces : IsNumeral places)
    (hlength : places.length ≤ 1000) (hvalue : valueFrom 0 (whole ++ places) ≤ Nat.pow 10 17) :
    IsNumberText negative (whole ++ '.' :: places) := by
  refine ⟨⟨negative, whole, some places, none⟩, ⟨hwhole, hleading, ?_, ?_⟩, ?_, ?_⟩
  · rintro ds ⟨⟩
    exact hplaces
  · rintro e ⟨⟩
  · simp [NumberText.toChars]
  · refine JsonNumber.isSome_ofText? (.inl rfl) hvalue hlength fun hpower => ?_
    have hpos := List.length_pos_iff.2 hplaces.nonempty
    simp only [NumberText.power, NumberText.writtenPower, Option.getD_some] at hpower
    omega

section Point

variable {digits : List Char}

/-- Zeros stand between the point and the digits. -/
theorem isNumberText_before (negative : Bool) (hdigits : IsNumeral digits)
    (hvalue : valueFrom 0 digits ≤ Nat.pow 10 17) {zeros : Nat} (hlength : zeros + digits.length ≤ 1000) :
    IsNumberText negative ('0' :: '.' :: (List.replicate zeros '0' ++ digits)) := by
  have hplaces : IsNumeral (List.replicate zeros '0' ++ digits) :=
    ⟨by simp [hdigits.nonempty], fun c hc => (List.mem_append.1 hc).elim (isDigit_zeros c) (hdigits.digits c)⟩
  have hsum : valueFrom 0 (['0'] ++ (List.replicate zeros '0' ++ digits)) = valueFrom 0 digits :=
    valueFrom_zeros (zeros + 1) digits
  refine isNumberText_point negative ⟨by simp, by simp⟩ (.inl rfl) hplaces ?_ (hsum ▸ hvalue)
  rwa [List.length_append, List.length_replicate]

/-- The point stands among the digits. -/
theorem isNumberText_inside (negative : Bool) (hdigits : IsNumeral digits)
    (hvalue : valueFrom 0 digits ≤ Nat.pow 10 17) (hlength : digits.length ≤ 1000) (hhead : digits.head? ≠ some '0')
    {n : Nat} (hpos : 0 < n) (hn : n < digits.length) :
    IsNumberText negative (digits.take n ++ '.' :: digits.drop n) := by
  have htake : IsNumeral (digits.take n) :=
    ⟨by simp [hdigits.nonempty]; omega, fun c hc => hdigits.digits c (List.mem_of_mem_take hc)⟩
  have hdrop : IsNumeral (digits.drop n) :=
    ⟨by simpa using hn, fun c hc => hdigits.digits c (List.mem_of_mem_drop hc)⟩
  have hleading : (digits.take n).head? ≠ some '0' := by rwa [List.head?_take, if_neg (by omega)]
  refine isNumberText_point negative htake (.inr hleading) hdrop ?_ ?_
  · rw [List.length_drop]
    omega
  · rwa [List.take_append_drop]

/-- Zeros stand between the digits and the point. -/
theorem isNumberText_beyond (negative : Bool) (hdigits : IsNumeral digits) {zeros : Nat}
    (hlength : digits.length + zeros ≤ 16) (hhead : digits.length + zeros = 1 ∨ digits.head? ≠ some '0') :
    IsNumberText negative (digits ++ List.replicate zeros '0' ++ ['.', '0']) := by
  have hwhole := isNumeral_append hdigits (isDigit_zeros (k := zeros))
  have hlengthWhole : (digits ++ List.replicate zeros '0').length = digits.length + zeros := by
    rw [List.length_append, List.length_replicate]
  refine isNumberText_point negative hwhole ?_ ⟨by simp, by simp⟩ (by decide) ?_
  · rwa [hlengthWhole, List.head?_append_of_ne_nil _ hdigits.nonempty]
  · have hall : IsNumeral (_ ++ ['0']) := isNumeral_append hwhole (by simp)
    refine (valueFrom_lt hall.digits).le.trans (JsonNumber.pow_ten_mono ?_)
    rw [List.length_append, hlengthWhole, List.length_singleton]
    omega

end Point

/-- The digits of a decimal with the point next to them or among them. -/
theorem isNumberText_placePoint (negative : Bool) {s : Scaled} (hm : s.digits ≤ Nat.pow 10 17)
    (hzero : s.digits = 0 → s.exponent = 0) {point : Int}
    (hpoint : point = s.exponent + (Nat.toDigits 10 s.digits).length) (hlow : -5 < point) (hhigh : point ≤ 16) :
    IsNumberText negative (placePoint (Nat.toDigits 10 s.digits) point) := by
  have hdigits := (spells_toDigits s.digits).isNumeral
  have hvalue : valueFrom 0 (Nat.toDigits 10 s.digits) ≤ Nat.pow 10 17 := (valueFrom_toDigits s.digits).symm ▸ hm
  have hlength : (Nat.toDigits 10 s.digits).length ≤ 18 :=
    (Nat.length_toDigits_le_iff (by decide) (by decide)).2 (hm.trans_lt (by decide))
  have hhead (h : 0 < s.digits) := head?_toDigits h
  have hnonempty := List.length_pos_iff.2 hdigits.nonempty
  have hone : s.digits = 0 → (Nat.toDigits 10 s.digits).length = 1 := by
    intro h
    rw [h]
    rfl
  generalize Nat.toDigits 10 s.digits = digits at *
  rw [placePoint]
  split
  case isTrue hbefore => exact isNumberText_before negative hdigits hvalue (by omega)
  case isFalse hafter =>
    split
    case isTrue hinside =>
      exact isNumberText_inside negative hdigits hvalue (by omega) (hhead (by omega)) (by omega) hinside
    case isFalse hbeyond =>
      refine isNumberText_beyond negative hdigits (by omega) ?_
      by_cases hnone : s.digits = 0
      · have hexponent := hzero hnone
        have hlengthOne := hone hnone
        exact .inl (by omega)
      · exact .inr (hhead (Nat.pos_of_ne_zero hnone))

/-- The places behind the first digit, if there are more. -/
theorem exists_places (d : Char) {ds : List Char} (h : ∀ c ∈ ds, c.isDigit = true) (e : Int) :
    ∃ places : Option (List Char), places.getD [] = ds ∧ (∀ cs ∈ places, IsNumeral cs) ∧
      withExponent (d :: ds) e = [d] ++ (places.elim [] ('.' :: ·) ++
        'e' :: (if decide (e < 0) then '-' else '+') :: Nat.toDigits 10 e.natAbs) := by
  cases ds with
  | nil =>
    refine ⟨none, rfl, ?_, ?_⟩
    · rintro cs ⟨⟩
    · simp [withExponent]
  | cons c ds =>
    refine ⟨some (c :: ds), rfl, ?_, ?_⟩
    · rintro cs ⟨⟩
      exact ⟨List.cons_ne_nil c ds, h⟩
    · simp [withExponent]

/-- The digits of a decimal with an exponent. -/
theorem isNumberText_withExponent (negative : Bool) {s : Scaled} (hm : s.digits ≤ Nat.pow 10 17)
    (hle : s.value ≤ largest) {point : Int} (hpoint : point = s.exponent + (Nat.toDigits 10 s.digits).length) :
    IsNumberText negative (withExponent (Nat.toDigits 10 s.digits) (point - 1)) := by
  have hspells := spells_toDigits s.digits
  have hvalue := valueFrom_toDigits s.digits
  have hlength : (Nat.toDigits 10 s.digits).length ≤ 18 :=
    (Nat.length_toDigits_le_iff (by decide) (by decide)).2 (hm.trans_lt (by decide))
  generalize Nat.toDigits 10 s.digits = digits at *
  obtain ⟨d, ds, rfl⟩ := List.exists_cons_of_ne_nil hspells.nonempty
  have hd : IsNumeral [d] := ⟨List.cons_ne_nil d [], by simpa using hspells.digits d List.mem_cons_self⟩
  obtain ⟨places, hplaces, hnumeral, htext⟩ :=
    exists_places d (fun c hc => hspells.digits c (List.mem_cons_of_mem d hc)) (point - 1)
  let t : NumberText :=
    ⟨negative, [d], places, some (decide (point - 1 < 0), Nat.toDigits 10 (point - 1).natAbs)⟩
  have hsignificand : t.significand = s.digits := by
    rw [NumberText.significand, hplaces]
    exact hvalue
  have hpower : t.power = s.exponent := by
    have hwritten : t.writtenPower = point - 1 := by
      show (if decide (point - 1 < 0) then -(valueFrom 0 (Nat.toDigits 10 (point - 1).natAbs) : Int)
        else valueFrom 0 (Nat.toDigits 10 (point - 1).natAbs)) = point - 1
      rw [valueFrom_toDigits]
      simp only [decide_eq_true_eq]
      split <;> omega
    rw [NumberText.power, hwritten, hplaces, hpoint, List.length_cons]
    omega
  refine ⟨t, ⟨hd, .inl rfl, hnumeral, ?_⟩, ?_, JsonNumber.isSome_ofText? (.inr rfl) (hsignificand ▸ hm) ?_ ?_⟩
  · rintro e ⟨⟩
    exact (spells_toDigits _).isNumeral
  · rw [htext]
    rfl
  · rw [hplaces]
    rw [List.length_cons] at hlength
    omega
  · intro hnonneg
    rw [hsignificand, hpower]
    rw [hpower] at hnonneg
    have hnat := Scaled.value_le_iff.1 hle
    rw [Int.toNat_of_nonpos (by omega : -s.exponent ≤ 0), pow_zero, mul_one] at hnat
    exact hnat

/-- A decimal is written as a number in range if it has at most seventeen digits and is not larger than the largest
double. -/
theorem isNumberText_toChars (negative : Bool) {s : Scaled} (hm : s.digits ≤ Nat.pow 10 17)
    (hzero : s.digits = 0 → s.exponent = 0) (hle : s.value ≤ largest) : IsNumberText negative s.toChars := by
  rw [Scaled.toChars]
  split
  case isTrue hpositional => exact isNumberText_placePoint negative hm hzero rfl hpositional.1 hpositional.2
  case isFalse => exact isNumberText_withExponent negative hm hle rfl

/-! ## Doubles -/

/-- A finite double is written as a number in range. -/
theorem exists_jsonNumber? {x : Binary64} (h : x.isFinite = true) :
    ∃ text, jsonNumber? x = some ((if x.isNegative then ['-'] else []) ++ text) ∧ IsNumberText x.isNegative text := by
  rw [jsonNumber?, value_of_isFinite h]
  dsimp only
  by_cases hzero : unitsOfCode x.code = 0
  · have hdigit : IsNumeral ['0'] := ⟨by simp, by simp⟩
    refine ⟨['0'] ++ '.' :: ['0'], ?_, isNumberText_point _ hdigit (.inl rfl) hdigit (by decide) (by decide)⟩
    rw [if_pos hzero]
    cases x.isNegative <;> rfl
  · have hcode : x.code ≠ 0 := by
      intro hcode
      rw [hcode] at hzero
      exact hzero rfl
    refine ⟨(shortest x).toChars, ?_,
      isNumberText_toChars _ (digits_shortest_le x) (fun hdigits => ?_) (value_shortest_le h)⟩
    · rw [if_neg hzero]
      cases x.isNegative <;> rfl
    · rcases shortest_eq_zero_or_pos hcode with hnone | hpos
      · rw [hnone]
      · omega

/-- A double is written as a value, which is read as a number if and only if the double is finite. -/
theorem JsonValue.exists_writes_real (x : Binary64) :
    ∃ v : JsonValue, Writes (jsonReal x) v ∧ v.depth = 0 ∧ v.real?.isSome = x.isFinite := by
  cases hfinite : x.isFinite with
  | true =>
    obtain ⟨text, htext, t, hwritten, hchars, hvalue⟩ := exists_jsonNumber? hfinite
    have hreal : jsonReal x = t.toChars := by rw [jsonReal, htext, hchars]; rfl
    refine ⟨.number t, hreal ▸ writes_number hwritten hvalue, rfl, ?_⟩
    obtain ⟨n, hn⟩ := Option.isSome_iff_exists.1 hvalue
    rw [real?, hn]
    cases n <;> rfl
  | false =>
    have hreal : jsonReal x = "null".toList := by
      have hvalue := value_of_not_isFinite hfinite
      rw [jsonReal, jsonNumber?]
      rcases hvalue with hvalue | ⟨negative, hvalue⟩
      all_goals
        rw [hvalue]
        rfl
    exact ⟨.null, hreal ▸ writes_null, rfl, rfl⟩

end ClusterWatch
