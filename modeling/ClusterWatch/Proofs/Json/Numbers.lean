import ClusterWatch.Json.Event
import ClusterWatch.Proofs.Line.Values
import Mathlib.Data.List.Basic

/-!
# Reading written numbers

A number is written from its parts (`NumberText.toChars`) and read with them again, whatever may stand after a
value (`number?_toChars`). Its value is worked out exactly as long as the digits fit into 64 bits
(`significand_of_lt`); a natural number of 64 bits is read as itself.
-/

namespace ClusterWatch
open Text Line

/-! ## Texts of numbers -/

/-- The text of a number with these parts. -/
def NumberText.toChars (t : NumberText) : List Char :=
  (if t.negative then ['-'] else []) ++ (t.whole ++ (t.places.elim [] ('.' :: ·) ++
    t.exponent.elim [] fun e => 'e' :: (if e.1 then '-' else '+') :: e.2))

/-- Each part has digits, and before the point no zero stands in front of others. -/
structure NumberText.IsWritten (t : NumberText) : Prop where
  whole : IsNumeral t.whole
  leading : t.whole.length = 1 ∨ t.whole.head? ≠ some '0'
  places : ∀ ds ∈ t.places, IsNumeral ds
  exponent : ∀ e ∈ t.exponent, IsNumeral e.2

/-- What a number begins with. -/
theorem NumberText.IsWritten.exists_cons {t : NumberText} (h : t.IsWritten) :
    ∃ c cs, t.toChars = c :: cs ∧ (c = '-' ∨ c.isDigit = true) := by
  obtain ⟨d, ds, hwhole⟩ := List.exists_cons_of_ne_nil h.whole.nonempty
  rw [toChars, hwhole]
  cases t.negative with
  | false => exact ⟨d, _, rfl, .inr (h.whole.digits d (hwhole ▸ List.mem_cons_self))⟩
  | true => exact ⟨'-', _, rfl, .inl rfl⟩

theorem NumberText.IsWritten.printable {t : NumberText} (h : t.IsWritten) : ∀ c ∈ t.toChars, 0x20 ≤ c.toNat := by
  have hdigits {ds : List Char} (hds : IsNumeral ds) (c) (hc : c ∈ ds) : 0x20 ≤ c.toNat := by
    have hdigit := toNat_of_isDigit (hds.digits c hc)
    omega
  intro c hc
  rw [toChars, List.mem_append, List.mem_append, List.mem_append] at hc
  rcases hc with hsign | hwhole | hplaces | hexponent
  · split at hsign
    case isTrue =>
      rw [List.mem_singleton.1 hsign]
      decide
    case isFalse => cases hsign
  · exact hdigits h.whole c hwhole
  · cases hplaces' : t.places with
    | none =>
      rw [hplaces'] at hplaces
      cases hplaces
    | some ds =>
      rw [hplaces'] at hplaces
      rcases List.mem_cons.1 hplaces with rfl | hplaces
      · decide
      · exact hdigits (h.places ds hplaces') c hplaces
  · cases hexponent' : t.exponent with
    | none =>
      rw [hexponent'] at hexponent
      cases hexponent
    | some e =>
      rw [hexponent'] at hexponent
      rcases List.mem_cons.1 hexponent with rfl | hexponent
      · decide
      rcases List.mem_cons.1 hexponent with rfl | hexponent
      · split <;> decide
      · exact hdigits (h.exponent e hexponent') c hexponent

namespace JsonValue

/-- What may come after a value: nothing, a comma, or the end of an object. -/
def Ends (rest : List Char) : Prop := ∀ c, rest.head? = some c → c = ',' ∨ c = '}'

theorem Ends.isDigit_head {rest : List Char} (h : Ends rest) : ∀ c, rest.head? = some c → c.isDigit = false := by
  intro c hc
  rcases h c hc with rfl | rfl <;> rfl

theorem digits?_append {ds rest : List Char} (h : IsNumeral ds)
    (hrest : ∀ c, rest.head? = some c → c.isDigit = false) : digits? (ds ++ rest) = some (ds, rest) := by
  have hspan := span_digits h.digits hrest
  rw [List.span_eq_takeWhile_dropWhile, Prod.mk.injEq] at hspan
  rw [digits?, hspan.1, List.isEmpty_eq_false_iff.2 h.nonempty, List.drop_left]
  rfl

theorem whole?_append {ds rest : List Char} (h : IsNumeral ds) (hleading : ds.length = 1 ∨ ds.head? ≠ some '0')
    (hrest : ∀ c, rest.head? = some c → c.isDigit = false) : whole? (ds ++ rest) = some (ds, rest) := by
  rw [whole?, digits?_append h hrest]
  exact Option.filter_some_pos (by simpa using hleading)

/-- The sign is taken off. -/
theorem sign_append {negative : Bool} {whole : List Char} (h : IsNumeral whole) (rest : List Char) :
    let text := (if negative then ['-'] else []) ++ (whole ++ rest)
    decide (text.head? = some '-') = negative ∧
      (if text.head? = some '-' then text.tail else text) = whole ++ rest := by
  have hminus : (whole ++ rest).head? ≠ some '-' := by
    rw [List.head?_append_of_ne_nil _ h.nonempty]
    exact fun hhead => h.not_mem rfl (List.mem_of_head? hhead)
  cases negative with
  | false => exact ⟨decide_eq_false hminus, if_neg hminus⟩
  | true => exact ⟨rfl, rfl⟩

/-- A written number is read with its parts. -/
theorem number?_toChars {t : NumberText} (h : t.IsWritten) {rest : List Char} (hrest : Ends rest) :
    number? (t.toChars ++ rest) = some (t, rest) := by
  obtain ⟨negative, whole, places, exponent⟩ := t
  obtain ⟨hwhole, hleading, hplaces, hexponent⟩ := h
  dsimp only at hwhole hleading hplaces hexponent
  simp only [NumberText.toChars, List.append_assoc]
  rw [number?, (sign_append hwhole _).1, (sign_append hwhole _).2]
  cases places with
  | none =>
    cases exponent with
    | none =>
      simp only [Option.elim_none, List.nil_append, whole?_append hwhole hleading hrest.isDigit_head]
      cases rest with
      | nil => rfl
      | cons c rest => rcases hrest c rfl with rfl | rfl <;> rfl
    | some e =>
      obtain ⟨sign, es⟩ := e
      have hes := digits?_append (hexponent _ rfl) hrest.isDigit_head
      simp only [Option.elim_none, Option.elim_some, List.nil_append, List.cons_append]
      rw [whole?_append hwhole hleading (by rintro c ⟨⟩; rfl)]
      cases sign <;> simp [hes]
  | some ds =>
    cases exponent with
    | none =>
      have hds := digits?_append (hplaces ds rfl) hrest.isDigit_head
      simp only [Option.elim_none, Option.elim_some, List.nil_append, List.cons_append]
      rw [whole?_append hwhole hleading (by rintro c ⟨⟩; rfl)]
      simp only [hds, Option.map_some, Option.bind_eq_bind, Option.bind_some]
      cases rest with
      | nil => rfl
      | cons c rest => rcases hrest c rfl with rfl | rfl <;> rfl
    | some e =>
      obtain ⟨sign, es⟩ := e
      have hes := digits?_append (hexponent _ rfl) hrest.isDigit_head
      have hds (cs : List Char) : digits? (ds ++ 'e' :: cs) = some (ds, 'e' :: cs) :=
        digits?_append (hplaces ds rfl) (by rintro c ⟨⟩; rfl)
      simp only [Option.elim_some, List.cons_append]
      rw [whole?_append hwhole hleading (by rintro c ⟨⟩; rfl)]
      cases sign <;> simp [hes, hds]

end JsonValue

/-! ## Values of numbers -/

theorem le_valueFrom (n : Nat) (cs : List Char) : n ≤ valueFrom n cs := by
  rw [valueFrom_eq]
  exact (Nat.le_mul_of_pos_left n (Nat.pow_pos (by decide))).trans (Nat.le_add_right ..)

theorem JsonNumber.significand_of_lt {n : Nat} {cs : List Char} (h : valueFrom n cs < UInt64.size) :
    significand n cs = (valueFrom n cs, []) := by
  induction cs generalizing n with
  | nil => rfl
  | cons c cs ih =>
    have hfits : 10 * n + digitValue c < UInt64.size := (le_valueFrom _ cs).trans_lt h
    rw [significand, if_pos hfits]
    exact ih h

/-! ## Natural numbers -/

theorem head?_toDigits {n : Nat} (h : 0 < n) : (Nat.toDigits 10 n).head? ≠ some '0' := by
  induction n using Nat.strongRecOn with
  | ind n ih =>
    by_cases hn : n < 10
    · have hdigit : ∀ m < 10, 0 < m → Nat.digitChar m ≠ '0' := by decide
      rw [Nat.toDigits_of_lt_base hn]
      intro hzero
      exact hdigit n hn h (Option.some.inj hzero)
    · rw [Nat.toDigits_of_base_le (by decide) (by omega), List.head?_append_of_ne_nil _ Nat.toDigits_ne_nil]
      exact ih (n / 10) (by omega) (by omega)

namespace JsonValue

/-- The parts of a natural number. -/
def naturalText (n : Nat) : NumberText := ⟨false, Nat.toDigits 10 n, none, none⟩

theorem toChars_naturalText (n : Nat) : (naturalText n).toChars = jsonNatural n := by
  simp [NumberText.toChars, naturalText, jsonNatural]

theorem isWritten_naturalText (n : Nat) : (naturalText n).IsWritten where
  whole := (spells_toDigits n).isNumeral
  leading := by
    cases n with
    | zero => exact .inl rfl
    | succ n => exact .inr (head?_toDigits (Nat.succ_pos n))
  places := by rintro ds ⟨⟩
  exponent := by rintro e ⟨⟩

theorem ofText?_naturalText {n : Nat} (h : n < UInt64.size) :
    JsonNumber.ofText? (naturalText n) = some (.natural (UInt64.ofNat n)) := by
  have hsignificand := @JsonNumber.significand_of_lt 0 (Nat.toDigits 10 n) (by rwa [valueFrom_toDigits])
  rw [valueFrom_toDigits] at hsignificand
  simp [JsonNumber.ofText?, naturalText, hsignificand]

theorem word64?_written (n : UInt64) : (number (naturalText n.toNat)).word64? = some n := by
  rw [word64?, ofText?_naturalText n.toNat_lt, UInt64.ofNat_toNat]

theorem word32?_written (n : UInt32) : (number (naturalText n.toNat)).word32? = some n := by
  have hfits : n.toNat < UInt64.size := n.toNat_lt.trans (by decide)
  rw [word32?, word64?, ofText?_naturalText hfits]
  simp [Option.filter, n.toNat_lt]

end JsonValue

end ClusterWatch
