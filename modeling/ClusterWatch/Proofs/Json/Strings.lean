import ClusterWatch.Json.Event
import ClusterWatch.Json.Reader
import Mathlib.Tactic.SplitIfs

/-!
# Reading written strings

A string is read as it was written, whatever its characters are (`readString_written`): quotes, backslashes and
control characters are written as escapes and read as themselves. So no control character is written, and a
string stays within its line (`le_toNat_of_mem_jsonString`).
-/

namespace ClusterWatch.JsonValue

/-- A character is written as an escape with a letter, as an escape with its number, or as it is. -/
theorem jsonChar_cases (c : Char) :
    (∃ letter, jsonChar c = ['\\', letter] ∧ escaped? letter = some c) ∨
      (c.toNat < 0x20 ∧
        jsonChar c = ['\\', 'u', '0', '0', lowerHexDigit (c.toNat / 16), lowerHexDigit (c.toNat % 16)]) ∨
      (c ≠ '"' ∧ c ≠ '\\' ∧ ¬ c.toNat < 0x20 ∧ jsonChar c = [c]) := by
  unfold jsonChar
  split_ifs with hquote hslash hfeed hreturn htab hback hform hcontrol
  case pos => exact .inl ⟨'"', rfl, by rw [hquote]; rfl⟩
  case pos => exact .inl ⟨'\\', rfl, by rw [hslash]; rfl⟩
  case pos => exact .inl ⟨'n', rfl, by rw [hfeed]; rfl⟩
  case pos => exact .inl ⟨'r', rfl, by rw [hreturn]; rfl⟩
  case pos => exact .inl ⟨'t', rfl, by rw [htab]; rfl⟩
  case pos => exact .inl ⟨'b', rfl, by rw [hback]; rfl⟩
  case pos => exact .inl ⟨'f', rfl, by rw [hform]; rfl⟩
  case pos => exact .inr (.inl ⟨hcontrol, rfl⟩)
  case neg => exact .inr (.inr ⟨hquote, hslash, hcontrol, rfl⟩)

/-- A letter after a backslash is read as the character that it stands for. -/
theorem readString_escaped {letter c : Char} (h : escaped? letter = some c) (rest : List Char) :
    readString ('\\' :: letter :: rest) = (readString rest).map (prepend c) := by
  have hletter : letter ≠ 'u' := by
    rintro rfl
    cases h
  rw [readString, h]
  case x_1 => exact fun _ _ _ _ _ _ _ _ _ hu => absurd hu hletter
  case x_2 => exact fun _ _ _ _ _ hu => absurd hu hletter

/-- A number after a backslash is read as its character, unless it is half of a pair. -/
theorem readString_unit {a b c d : Char} {n : Nat} (h : hexUnit? a b c d = some n)
    (hhigh : isHighHalf n = false) (hlow : isLowHalf n = false) (rest : List Char) :
    readString ('\\' :: 'u' :: a :: b :: c :: d :: rest) = (readString rest).map (prepend (Char.ofNat n)) := by
  -- A second number is looked for behind the first, even if the first needs none.
  by_cases hnext : ∃ e f g i cs, rest = '\\' :: 'u' :: e :: f :: g :: i :: cs
  · obtain ⟨e, f, g, i, cs, rfl⟩ := hnext
    rw [readString]
    simp only [h, hhigh, hlow]
    rfl
  · rw [readString]
    · simp only [h, hhigh, hlow]
      rfl
    · intro e f g i cs heq
      exact hnext ⟨e, f, g, i, cs, heq⟩

theorem readString_plain {c : Char} (hquote : c ≠ '"') (hslash : c ≠ '\\') (hcontrol : ¬ c.toNat < 0x20)
    (rest : List Char) : readString (c :: rest) = (readString rest).map (prepend c) := by
  rw [readString, if_neg hcontrol]
  case x_1 => exact hquote
  case x_2 => exact fun _ _ _ _ _ _ _ _ _ heq => absurd heq hslash
  case x_3 => exact fun _ _ _ _ _ heq => absurd heq hslash
  case x_4 => exact fun _ _ heq => absurd heq hslash

theorem hexUnit?_control : ∀ n < 0x20, hexUnit? '0' '0' (lowerHexDigit (n / 16)) (lowerHexDigit (n % 16)) = some n ∧
    isHighHalf n = false ∧ isLowHalf n = false := by
  decide +kernel

theorem readString_jsonChar (c : Char) (rest : List Char) :
    readString (jsonChar c ++ rest) = (readString rest).map (prepend c) := by
  rcases jsonChar_cases c with ⟨letter, hc, hletter⟩ | ⟨hcontrol, hc⟩ | ⟨hquote, hslash, hcontrol, hc⟩
  · rw [hc]
    exact readString_escaped hletter rest
  · obtain ⟨hunit, hhigh, hlow⟩ := hexUnit?_control c.toNat hcontrol
    have hread := readString_unit hunit hhigh hlow rest
    rw [hc]
    rwa [Char.ofNat_toNat] at hread
  · rw [hc]
    exact readString_plain hquote hslash hcontrol rest

theorem readString_written (cs rest : List Char) :
    readString (cs.flatMap jsonChar ++ '"' :: rest) = some (some cs, rest) := by
  induction cs with
  | nil => rw [List.flatMap_nil, List.nil_append, readString]
  | cons c cs ih =>
    rw [List.flatMap_cons, List.append_assoc, readString_jsonChar, ih]
    rfl

theorem le_toNat_of_escaped? {letter c : Char} (h : escaped? letter = some c) : 0x20 ≤ letter.toNat := by
  unfold escaped? at h
  split at h
  case h_9 => cases h
  all_goals decide

/-- No control character is written in a string. -/
theorem le_toNat_of_mem_jsonChar {c a : Char} (h : a ∈ jsonChar c) : 0x20 ≤ a.toNat := by
  have hdigit : ∀ n < 16, 0x20 ≤ (lowerHexDigit n).toNat := by decide
  rcases jsonChar_cases c with ⟨letter, hc, hletter⟩ | ⟨hcontrol, hc⟩ | ⟨-, -, hcontrol, hc⟩
  · rw [hc, List.mem_cons, List.mem_singleton] at h
    rcases h with rfl | rfl
    · decide
    · exact le_toNat_of_escaped? hletter
  · simp only [hc, List.mem_cons, List.not_mem_nil, or_false] at h
    rcases h with rfl | rfl | rfl | rfl | rfl | rfl
    all_goals first | decide | exact hdigit _ (by omega)
  · rw [hc, List.mem_singleton] at h
    rw [h]
    exact Nat.not_lt.1 hcontrol

theorem le_toNat_of_mem_jsonString {cs : List Char} {c : Char} (h : c ∈ jsonString cs) : 0x20 ≤ c.toNat := by
  simp only [jsonString, List.cons_append, List.mem_cons, List.mem_append, List.mem_flatMap, List.not_mem_nil,
    or_false] at h
  rcases h with rfl | ⟨a, -, hc⟩ | rfl
  · decide
  · exact le_toNat_of_mem_jsonChar hc
  · decide

end ClusterWatch.JsonValue
