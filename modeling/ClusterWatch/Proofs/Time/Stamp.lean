import ClusterWatch.Proofs.Line.Values
import ClusterWatch.Proofs.Time.Calendar
import ClusterWatch.Time.Basic

/-!
# Reading written time stamps

The text of an instant of the years 0 to 9999 that is no leap second leads back to the instant
(`Instant.ofChars?_toChars`): each part is written with as many digits as its reader takes, and the parts with
marks between them that are no digits.
-/

namespace ClusterWatch.Time
open Text Line

/-! ## Numbers of a fixed width -/

theorem valueFrom_zeros (k : Nat) (cs : List Char) :
    valueFrom 0 (List.replicate k '0' ++ cs) = valueFrom 0 cs := by
  induction k with
  | zero => rfl
  | succ k ih => exact ih

theorem isDigit_padded (width n : Nat) : ∀ c ∈ padded width n, c.isDigit = true := by
  intro c hc
  rcases List.mem_append.1 hc with hzero | hdigit
  · rw [List.eq_of_mem_replicate hzero]
    rfl
  · exact (spells_toDigits n).digits c hdigit

theorem valueFrom_padded (width n : Nat) : valueFrom 0 (padded width n) = n :=
  (valueFrom_zeros _ _).trans (valueFrom_toDigits n)

theorem length_padded {width n : Nat} (hwidth : 0 < width) (h : n < 10 ^ width) :
    (padded width n).length = width := by
  have hlength : (Nat.toDigits 10 n).length ≤ width := (Nat.length_toDigits_le_iff (by decide) hwidth).2 h
  simp only [padded, List.length_append, List.length_replicate]
  omega

theorem padded_ne_nil (width n : Nat) : padded width n ≠ [] := fun h =>
  Nat.toDigits_ne_nil (List.append_eq_nil_iff.1 h).2

/-- A text that a number starts begins with a digit. -/
theorem exists_digit_padded (width n : Nat) (rest : List Char) :
    ∃ d ds, padded width n ++ rest = d :: ds ∧ d.isDigit = true := by
  obtain ⟨d, ds, htext⟩ := List.exists_cons_of_ne_nil (padded_ne_nil width n)
  refine ⟨d, ds ++ rest, by rw [htext, List.cons_append], ?_⟩
  exact isDigit_padded width n d (htext ▸ List.mem_cons_self)

theorem isBlank_of_isDigit {c : Char} (h : c.isDigit = true) : isBlank c = false := by
  have hrange := toNat_of_isDigit h
  simp only [isBlank, Bool.or_eq_false_iff, Bool.and_eq_false_iff, decide_eq_false_iff_not, beq_eq_false_iff_ne]
  omega

theorem trimStart_padded (width n : Nat) (rest : List Char) :
    trimStart (padded width n ++ rest) = padded width n ++ rest := by
  obtain ⟨d, ds, htext, hd⟩ := exists_digit_padded width n rest
  rw [htext, trimStart, List.dropWhile_cons_of_neg (by simp [isBlank_of_isDigit hd])]

theorem upTo?_padded {width n : Nat} (hwidth : 0 < width) (h : n < 10 ^ width) (rest : List Char) :
    upTo? width (padded width n ++ rest) = some (n, rest) := by
  have hlength := length_padded hwidth h
  have hdigits : ((padded width n ++ rest).take width).takeWhile Char.isDigit = padded width n := by
    rw [List.take_left' hlength, ← List.append_nil (padded width n),
      List.takeWhile_append_of_pos (isDigit_padded width n), List.takeWhile_nil]
  have hne : (padded width n).isEmpty = false := List.isEmpty_eq_false_iff.2 (padded_ne_nil width n)
  rw [upTo?, hdigits, hne, valueFrom_padded, List.drop_left]
  rfl

theorem two?_padded {n : Nat} (h : n < 100) (rest : List Char) :
    two? (padded 2 n ++ rest) = some (n, rest) := by
  rw [two?, trimStart_padded]
  exact upTo?_padded (by decide) h rest

theorem mark?_self {mark : Char} (h : isBlank mark = false) (rest : List Char) :
    mark? mark (mark :: rest) = some rest := by
  simp [mark?, trimStart, h]

theorem year?_yearText {year : Int} (h : 0 ≤ year) (h' : year ≤ 9999) (rest : List Char) :
    year? (yearText year ++ rest) = some (year, rest) := by
  have hread := @upTo?_padded 4 year.toNat (by decide) (by omega) rest
  obtain ⟨d, ds, htext, hd⟩ := exists_digit_padded 4 year.toNat rest
  rw [yearText, if_pos ⟨h, h'⟩, year?, trimStart_padded]
  rw [htext] at hread ⊢
  split
  case h_1 heq =>
    cases heq
    cases hd
  case h_2 heq =>
    cases heq
    cases hd
  case h_3 =>
    rw [hread]
    show some ((year.toNat : Int), rest) = some (year, rest)
    rw [Int.toNat_of_nonneg h]

/-! ## Fractions -/

/-- A fraction of a written width, with as many zeros behind it as are missing to nanoseconds. -/
theorem fraction?_padded {width n : Nat} (hwidth : 0 < width) (hnine : width ≤ 9) (h : n < 10 ^ width)
    {rest : List Char} (hrest : ∀ c, rest.head? = some c → c.isDigit = false) :
    fraction? ('.' :: (padded width n ++ rest)) = some (n * 10 ^ (9 - width), rest) := by
  have hlength := length_padded hwidth h
  have hsplit := span_digits (isDigit_padded width n) hrest
  rw [List.span_eq_takeWhile_dropWhile, Prod.mk.injEq] at hsplit
  have hne : (padded width n).isEmpty = false := List.isEmpty_eq_false_iff.2 (padded_ne_nil width n)
  have hkept : (padded width n).take 9 = padded width n := List.take_of_length_le (by omega)
  simp only [fraction?, hsplit.1, hne, hkept, valueFrom_padded, hlength, List.drop_left' hlength]
  rfl

theorem fraction?_fractionText {nanos : Nat} (h : nanos < 1000000000) {c : Char} (hc : c.isDigit = false)
    (hpoint : c ≠ '.') (rest : List Char) :
    fraction? (fractionText nanos ++ c :: rest) = some (nanos, c :: rest) := by
  have hrest : ∀ a, (c :: rest).head? = some a → a.isDigit = false := by
    rintro a ⟨⟩
    exact hc
  rw [fractionText]
  split
  case isTrue hzero =>
    subst hzero
    rw [List.nil_append, fraction?]
    rintro cs ⟨⟩
    exact hpoint rfl
  case isFalse =>
    split
    case isTrue hmilli =>
      refine (@fraction?_padded 3 _ (by decide) (by decide) (by omega) _ hrest).trans ?_
      simp only [Option.some.injEq, Prod.mk.injEq, and_true]
      omega
    case isFalse =>
      split
      case isTrue hmicro =>
        refine (@fraction?_padded 6 _ (by decide) (by decide) (by omega) _ hrest).trans ?_
        simp only [Option.some.injEq, Prod.mk.injEq, and_true]
        omega
      case isFalse =>
        refine (@fraction?_padded 9 _ (by decide) (by decide) (by omega) _ hrest).trans ?_
        simp

/-! ## Parts -/

theorem date?_written {d : Date} (hyear : 0 ≤ d.year ∧ d.year ≤ 9999) (hmonth : d.month < 100) (hday : d.day < 100)
    (rest : List Char) :
    date? (yearText d.year ++ '-' :: (padded 2 d.month ++ '-' :: (padded 2 d.day ++ rest))) = some (d, rest) := by
  simp only [date?, year?_yearText hyear.1 hyear.2, mark?_self (show isBlank '-' = false by decide),
    two?_padded hmonth, two?_padded hday, Option.pure_def, Option.bind_eq_bind, Option.bind_some]

theorem timeOfDay?_written {second nanos : Nat} (hsecond : second < secondsOfDay) (hnanos : nanos < 1000000000)
    (rest : List Char) :
    timeOfDay? (padded 2 (second / 3600) ++ ':' :: (padded 2 (second / 60 % 60) ++ ':' ::
      (padded 2 (second % 60) ++ (fractionText nanos ++ 'Z' :: rest)))) = some (second, nanos, 'Z' :: rest) := by
  simp only [secondsOfDay] at hsecond
  have hhour : second / 3600 < 100 := by omega
  have hminute : second / 60 % 60 < 100 := by omega
  have hrest : second % 60 < 100 := by omega
  have hclock : second / 3600 ≤ 23 ∧ second / 60 % 60 ≤ 59 ∧ second % 60 ≤ 60 := by omega
  have hleap : ¬ second % 60 = 60 := by omega
  have hsum : second / 3600 * 3600 + second / 60 % 60 * 60 + second % 60 = second := by omega
  simp only [timeOfDay?, two?_padded hhour, two?_padded hminute, two?_padded hrest,
    mark?_self (show isBlank ':' = false by decide),
    fraction?_fractionText hnanos (show 'Z'.isDigit = false by decide) (show 'Z' ≠ '.' by decide),
    Option.pure_def, Option.bind_eq_bind, Option.bind_some, if_pos hclock, if_neg hleap, hsum, Nat.sub_zero,
    Nat.zero_mul, Nat.add_zero]

/-! ## Instants -/

/-- Months and days of the calendar have two digits. -/
theorem ofDays_lt (days : Int) : (Date.ofDays days).month < 100 ∧ (Date.ofDays days).day < 100 := by
  have hvalid := isValid_ofDays days
  have hlast : daysInMonth (Date.ofDays days).year (Date.ofDays days).month ≤ 31 := by
    unfold daysInMonth
    split
    case h_1 => split <;> omega
    all_goals omega
  simp only [Date.isValid, Bool.and_eq_true, decide_eq_true_eq] at hvalid
  omega

/-- The year of an instant, in UTC. -/
def Instant.year (t : Instant) : Int := (Date.ofDays (t.seconds / secondsOfDay)).year

/-- An instant of the years 0 to 9999 that is no leap second. -/
structure Instant.IsPlain (t : Instant) : Prop where
  year : 0 ≤ t.year ∧ t.year ≤ 9999
  fraction : t.nanos < 1000000000

theorem toChars_eq {t : Instant} (h : t.IsPlain) :
    let date := Date.ofDays (t.seconds / secondsOfDay)
    let second := (t.seconds % secondsOfDay).toNat
    t.toChars = yearText date.year ++ '-' :: (padded 2 date.month ++ '-' :: (padded 2 date.day ++
      'T' :: (padded 2 (second / 3600) ++ ':' :: (padded 2 (second / 60 % 60) ++ ':' ::
        (padded 2 (second % 60) ++ (fractionText t.nanos ++ ['Z'])))))) := by
  have hleap : ¬ 1000000000 ≤ t.nanos := Nat.not_le.2 h.fraction
  simp only [Instant.toChars, if_neg hleap, Nat.mod_eq_of_lt h.fraction, Nat.add_zero, List.append_assoc,
    List.cons_append]

/-- A written instant of a plain year is read back. -/
theorem Instant.ofChars?_toChars {t : Instant} (h : t.IsPlain) : Instant.ofChars? t.toChars = some t := by
  have hvalid := isValid_ofDays (t.seconds / secondsOfDay)
  have hdays := toDays_ofDays (t.seconds / secondsOfDay)
  have hyear : isYearInRange (Date.ofDays (t.seconds / secondsOfDay)).year = true := by
    have := h.year
    simp only [Instant.year] at this
    simp only [isYearInRange, Bool.and_eq_true, decide_eq_true_eq]
    omega
  have hsecond : (t.seconds % secondsOfDay).toNat < secondsOfDay := by
    simp only [secondsOfDay]
    omega
  obtain ⟨hmonth, hday⟩ := ofDays_lt (t.seconds / secondsOfDay)
  have hback : t.seconds / secondsOfDay * secondsOfDay + (t.seconds % secondsOfDay).toNat = t.seconds := by
    simp only [secondsOfDay]
    omega
  have hoffset : offset? (trimStart ['Z']) = some (0, []) := by decide
  rw [toChars_eq h, Instant.ofChars?]
  simp only [date?_written h.year hmonth hday, timeOfDay?_written hsecond h.fraction, hoffset, Option.bind_eq_bind,
    Option.bind_some, hvalid, hyear, hdays, hback, Int.sub_zero, Bool.and_true, true_or, if_true]
  rfl

end ClusterWatch.Time
