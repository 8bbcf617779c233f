import ClusterWatch.Decimal.Reading
import ClusterWatch.Proofs.Decimal.Nearest
import Mathlib.Data.List.TakeDrop
import Mathlib.Data.Nat.Digits.Defs

/-!
# What captures spell

A number is spelled by ASCII digits, at least one, and an amount by ASCII digits with at most one point
among them. `Spells` and `SpellsAmount` say so without a reader; the readers find the value that is spelled,
if it fits, and nothing else (`word32?_eq_some_iff`, `word64?_eq_some_iff`, `figure?_eq_some_iff`).
-/

namespace ClusterWatch.Line
open Text Decimal

/-- The number that a row of digits stands for. -/
def numeral (cs : List Char) : Nat := Nat.ofDigits 10 (cs.map digitValue).reverse

/-- The digits spell the number. -/
structure Spells (cs : List Char) (n : Nat) : Prop where
  nonempty : cs ≠ []
  digits : ∀ c ∈ cs, c.isDigit = true
  value : n = numeral cs

/-- A row of ASCII digits. -/
structure IsNumeral (cs : List Char) : Prop where
  nonempty : cs ≠ []
  digits : ∀ c ∈ cs, c.isDigit = true

theorem Spells.isNumeral {cs : List Char} {n : Nat} (h : Spells cs n) : IsNumeral cs :=
  ⟨h.nonempty, h.digits⟩

theorem IsNumeral.not_mem {cs : List Char} (h : IsNumeral cs) {a : Char} (ha : a.isDigit = false) :
    a ∉ cs := fun hmem => by
  rw [h.digits a hmem] at ha
  cases ha

/-- The digits, with at most one point among them, spell the amount: the double to which the decimal is
rounded. -/
def SpellsAmount (cs : List Char) (x : Binary64) : Prop :=
  ∃ whole places, (∀ c ∈ whole ++ places, c.isDigit = true) ∧ whole ++ places ≠ [] ∧
    (cs = whole ++ '.' :: places ∨ cs = whole ∧ places = []) ∧
    x.Rounds (numeral (whole ++ places)) (10 ^ places.length)

theorem valueFrom_eq (acc : Nat) (cs : List Char) :
    valueFrom acc cs = 10 ^ cs.length * acc + numeral cs := by
  induction cs generalizing acc with
  | nil => simp [valueFrom, numeral]
  | cons c cs ih =>
    have hcons : numeral (c :: cs) = 10 ^ cs.length * digitValue c + numeral cs := by
      rw [numeral]
      rw [List.map_cons, List.reverse_cons, Nat.ofDigits_append, Nat.ofDigits_singleton,
        List.length_reverse, List.length_map]
      exact Nat.add_comm _ _
    calc valueFrom acc (c :: cs)
        = valueFrom (10 * acc + digitValue c) cs := rfl
      _ = 10 ^ cs.length * (10 * acc + digitValue c) + numeral cs := ih _
      _ = 10 ^ (c :: cs).length * acc + numeral (c :: cs) := by
        rw [hcons, List.length_cons, Nat.pow_succ, Nat.mul_add, Nat.mul_assoc, Nat.add_assoc]

theorem valueFrom_zero (cs : List Char) : valueFrom 0 cs = numeral cs := by
  rw [valueFrom_eq, Nat.mul_zero, Nat.zero_add]

theorem natural?_eq_some_iff {cs : List Char} {n : Nat} : natural? cs = some n ↔ Spells cs n := by
  rw [natural?]
  rw [valueFrom_zero, Option.ite_none_right_eq_some, Bool.and_eq_true, Bool.not_eq_true',
    List.isEmpty_eq_false_iff, List.all_eq_true, Option.some.injEq]
  exact ⟨fun h => ⟨h.1.1, h.1.2, h.2.symm⟩, fun h => ⟨⟨h.nonempty, h.digits⟩, h.value.symm⟩⟩

theorem naturalBelow?_eq_some_iff {bound : Nat} {cs : List Char} {n : Nat} :
    naturalBelow? bound cs = some n ↔ Spells cs n ∧ n < bound := by
  rw [naturalBelow?, Option.filter_eq_some_iff, natural?_eq_some_iff, decide_eq_true_eq]

/-- A number of 32 bits is read if and only if the digits spell it. -/
theorem word32?_eq_some_iff {cs : List Char} {n : UInt32} :
    word32? cs = some n ↔ Spells cs n.toNat := by
  rw [word32?, Option.map_eq_some_iff]
  constructor
  · rintro ⟨m, hm, rfl⟩
    obtain ⟨hspells, hlt⟩ := naturalBelow?_eq_some_iff.1 hm
    rwa [UInt32.toNat_ofNat_of_lt' hlt]
  · intro h
    exact ⟨n.toNat, naturalBelow?_eq_some_iff.2 ⟨h, n.toNat_lt⟩, UInt32.ofNat_toNat⟩

/-- A number of 64 bits is read if and only if the digits spell it. -/
theorem word64?_eq_some_iff {cs : List Char} {n : UInt64} :
    word64? cs = some n ↔ Spells cs n.toNat := by
  rw [word64?, Option.map_eq_some_iff]
  constructor
  · rintro ⟨m, hm, rfl⟩
    obtain ⟨hspells, hlt⟩ := naturalBelow?_eq_some_iff.1 hm
    rwa [UInt64.toNat_ofNat_of_lt' hlt]
  · intro h
    exact ⟨n.toNat, naturalBelow?_eq_some_iff.2 ⟨h, n.toNat_lt⟩, UInt64.ofNat_toNat⟩

theorem spells_toDigits (n : Nat) : Spells (Nat.toDigits 10 n) n where
  nonempty := Nat.toDigits_ne_nil
  digits _ hc := Nat.isDigit_of_mem_toDigits (by decide) (by decide) hc
  value := by
    rw [← valueFrom_zero]
    exact Nat.ofDigitChars_ten_toDigits.symm

theorem valueFrom_toDigits (n : Nat) : valueFrom 0 (Nat.toDigits 10 n) = n :=
  (valueFrom_zero _).trans (spells_toDigits n).value.symm

theorem toNat_of_isDigit {c : Char} (h : c.isDigit = true) : 0x30 ≤ c.toNat ∧ c.toNat ≤ 0x39 := by
  rw [Char.isDigit, Bool.and_eq_true, decide_eq_true_eq, decide_eq_true_eq] at h
  exact h

/-! ## Amounts -/

theorem rounds_joinPlaces {x : Binary64} (whole places : List Char) :
    x.Rounds (numeral (whole ++ places)) (10 ^ places.length) ↔ x = joinPlaces false whole places 0 := by
  have hvalue : valueFrom (valueFrom 0 whole) places = numeral (whole ++ places) := by
    rw [← valueFrom_zero]
    exact (List.foldl_append ..).symm
  rw [Binary64.rounds_ofDecimal, joinPlaces, hvalue, Int.zero_sub]

/-- Digits are split from what is no digit. -/
theorem span_digits {whole rest : List Char} (hwhole : ∀ c ∈ whole, c.isDigit = true)
    (hrest : ∀ c, rest.head? = some c → c.isDigit = false) :
    (whole ++ rest).span Char.isDigit = (whole, rest) := by
  have hstop : rest.takeWhile Char.isDigit = [] ∧ rest.dropWhile Char.isDigit = rest := by
    cases rest with
    | nil => exact ⟨rfl, rfl⟩
    | cons c rest => simp [hrest c rfl]
  rw [List.span_eq_takeWhile_dropWhile, List.takeWhile_append_of_pos hwhole,
    List.dropWhile_append_of_pos hwhole, hstop.1, hstop.2, List.append_nil]

theorem figure?_of_spellsAmount {cs : List Char} {x : Binary64} (h : SpellsAmount cs x) :
    figure? cs = some x := by
  obtain ⟨whole, places, hdigits, hne, hform, hrounds⟩ := h
  have hwhole (c) (hc : c ∈ whole) : c.isDigit = true := hdigits c (List.mem_append_left _ hc)
  have hplaces (c) (hc : c ∈ places) : c.isDigit = true := hdigits c (List.mem_append_right _ hc)
  rw [(rounds_joinPlaces whole places).1 hrounds, figure?]
  rcases hform with rfl | ⟨rfl, rfl⟩
  · rw [span_digits hwhole (by rintro c ⟨⟩; rfl)]
    have hgood : (places.all Char.isDigit && !(whole.isEmpty && places.isEmpty)) = true := by
      have hall : places.all Char.isDigit = true := List.all_eq_true.2 hplaces
      rw [hall, Bool.true_and]
      cases whole with
      | nil => cases places with
        | nil => exact absurd rfl hne
        | cons c places => rfl
      | cons c whole => rfl
    exact if_pos hgood
  · have hspan : (cs ++ []).span Char.isDigit = (cs, []) := span_digits hwhole (by simp)
    rw [List.append_nil] at hspan hne
    rw [hspan]
    exact if_neg (by simpa using hne)

theorem spellsAmount_of_figure? {cs : List Char} {x : Binary64} (h : figure? cs = some x) :
    SpellsAmount cs x := by
  have hsplit : cs.takeWhile Char.isDigit ++ cs.dropWhile Char.isDigit = cs :=
    List.takeWhile_append_dropWhile
  have hwhole : ∀ c ∈ cs.takeWhile Char.isDigit, c.isDigit = true :=
    List.all_eq_true.1 List.all_takeWhile
  rw [figure?, List.span_eq_takeWhile_dropWhile] at h
  generalize cs.takeWhile Char.isDigit = whole at h hsplit hwhole
  generalize cs.dropWhile Char.isDigit = rest at h hsplit
  dsimp only at h
  split at h
  case h_1 =>
    split at h
    case isTrue => cases h
    case isFalse hne =>
      cases h
      rw [List.append_nil] at hsplit
      refine ⟨whole, [], ?_, ?_, .inr ⟨hsplit.symm, rfl⟩, (rounds_joinPlaces whole []).2 rfl⟩
      · simpa using hwhole
      · simpa using hne
  case h_2 places =>
    split at h
    case isFalse => cases h
    case isTrue hgood =>
      cases h
      rw [Bool.and_eq_true, List.all_eq_true, Bool.not_eq_true'] at hgood
      refine ⟨whole, places, ?_, ?_, .inl hsplit.symm, (rounds_joinPlaces whole places).2 rfl⟩
      · intro c hc
        exact (List.mem_append.1 hc).elim (hwhole c) (hgood.1 c)
      · intro hnil
        obtain ⟨rfl, rfl⟩ := List.append_eq_nil_iff.1 hnil
        exact absurd hgood.2 (by decide)
  case h_3 => cases h

/-- An amount is read if and only if the digits and the point spell it. -/
theorem figure?_eq_some_iff {cs : List Char} {x : Binary64} :
    figure? cs = some x ↔ SpellsAmount cs x :=
  ⟨spellsAmount_of_figure?, figure?_of_spellsAmount⟩

end ClusterWatch.Line
