import ClusterWatch.Proofs.Json.Numbers
import ClusterWatch.Proofs.Json.Strings
import Mathlib.Data.List.Forall2

/-!
# Reading written values

`Writes text v` says that the text is read as the value, whatever may stand after a value. Strings and naturals
of 64 bits are written so, and objects whose fields are (`writes_object`). The texts have no control characters.
-/

namespace ClusterWatch.JsonValue
open Text Line

/-! ## Values -/

/-- A text that is read as a value wherever the value may end: it has no control characters, and what is read
is proper. -/
structure Writes (text : List Char) (v : JsonValue) : Prop where
  reads : ∀ fuel rest, text.length ≤ fuel → Ends rest → readValue fuel (text ++ rest) = some (v, rest)
  proper : v.isProper = true
  printable : ∀ c ∈ text, 0x20 ≤ c.toNat

theorem skip_cons {c : Char} (h : isSpace c = false) (cs : List Char) : skip (c :: cs) = c :: cs :=
  List.dropWhile_cons_of_neg (by simp [h])

theorem isSpace_of_isDigit {c : Char} (h : c.isDigit = true) : isSpace c = false := by
  simp only [isSpace, Bool.or_eq_false_iff, beq_eq_false_iff_ne]
  refine ⟨⟨⟨?_, ?_⟩, ?_⟩, ?_⟩ <;> rintro rfl <;> cases h

theorem writes_string (s : List Char) : Writes (jsonString s) (.string (some s)) where
  reads fuel rest hfuel _ := by
    cases fuel with
    | zero => cases hfuel
    | succ fuel =>
      have htext : jsonString s ++ rest = '"' :: (s.flatMap jsonChar ++ '"' :: rest) := by
        simp [jsonString]
      rw [htext]
      change (readString _).map _ = _
      rw [readString_written]
      rfl
  proper := rfl
  printable _ hc := le_toNat_of_mem_jsonString hc

theorem readValue_number {c : Char} (hc : c = '-' ∨ c.isDigit = true) (fuel : Nat) (cs : List Char) :
    readValue (fuel + 1) (c :: cs) = (number? (c :: cs)).map fun (n, cs) => (.number n, cs) := by
  have hspace : isSpace c = false := by
    rcases hc with rfl | hc
    · rfl
    · exact isSpace_of_isDigit hc
  rw [readValue, skip_cons hspace]
  split
  case h_1 heq => cases heq
  case h_5 heq =>
    cases heq
    exact if_pos hc
  -- The other values begin with a mark that no number begins with.
  all_goals
    rename_i heq
    cases heq
    rcases hc with hc | hc <;> cases hc

/-- A number is written by its text if it is in range. -/
theorem writes_number {t : NumberText} (h : t.IsWritten) (hvalue : (JsonNumber.ofText? t).isSome = true) :
    Writes t.toChars (.number t) where
  reads fuel rest hfuel hrest := by
    obtain ⟨c, cs, htext, hc⟩ := h.exists_cons
    have hread := number?_toChars h hrest
    cases fuel with
    | zero =>
      rw [htext] at hfuel
      cases hfuel
    | succ fuel =>
      rw [htext, List.cons_append] at hread ⊢
      rw [readValue_number hc, hread]
      rfl
  proper := hvalue
  printable := h.printable

theorem writes_natural {n : Nat} (h : n < UInt64.size) : Writes (jsonNatural n) (.number (naturalText n)) := by
  rw [← toChars_naturalText]
  exact writes_number (isWritten_naturalText n) (by rw [ofText?_naturalText h]; rfl)

theorem writes_null : Writes "null".toList .null where
  reads fuel rest hfuel _ := by
    cases fuel with
    | zero => cases hfuel
    | succ fuel => rfl
  proper := rfl
  printable c hc := by
    change c ∈ ['n', 'u', 'l', 'l'] at hc
    simp only [List.mem_cons, List.not_mem_nil, or_false] at hc
    rcases hc with rfl | rfl | rfl | rfl <;> decide

/-! ## Objects -/

/-- The field of an object. -/
def fieldText (field : String × List Char) : List Char := jsonString field.1.toList ++ ':' :: field.2

def WritesField (field : String × List Char) (value : Option (List Char) × JsonValue) : Prop :=
  value.1 = some field.1.toList ∧ Writes field.2 value.2

theorem readFields_field {field : String × List Char} {value : Option (List Char) × JsonValue}
    (h : WritesField field value) {fuel : Nat} (hfuel : field.2.length ≤ fuel) {rest : List Char} (hrest : Ends rest) :
    readFields (fuel + 1) (fieldText field ++ rest) =
      match skip rest with
      | '}' :: cs => some ([value], cs)
      | ',' :: cs => (readFields fuel cs).map fun (fs, cs) => (value :: fs, cs)
      | _ => none := by
  obtain ⟨name, v⟩ := value
  obtain ⟨rfl, hv⟩ : name = some field.1.toList ∧ Writes field.2 v := h
  have htext : fieldText field ++ rest =
      '"' :: (field.1.toList.flatMap jsonChar ++ '"' :: (':' :: (field.2 ++ rest))) := by
    simp [fieldText, jsonString]
  rw [htext]
  change (readString _).bind _ = _
  rw [readString_written]
  change (readValue fuel (field.2 ++ rest)).bind _ = _
  rw [hv.reads fuel rest hfuel hrest]
  rfl

theorem readFields_written {fields : List (String × List Char)} {values : List (Option (List Char) × JsonValue)}
    (h : List.Forall₂ WritesField fields values) (hne : fields ≠ []) (rest : List Char) {fuel : Nat}
    (hfuel : ([','].intercalate (fields.map fieldText)).length < fuel) :
    readFields fuel ([','].intercalate (fields.map fieldText) ++ '}' :: rest) = some (values, rest) := by
  induction h generalizing fuel with
  | nil => exact absurd rfl hne
  | @cons field value fields values hfield hfields ih =>
    obtain ⟨fuel, rfl⟩ : ∃ m, fuel = m + 1 := ⟨fuel - 1, by omega⟩
    cases hfields with
    | nil =>
      have hends : Ends ('}' :: rest) := by
        rintro c ⟨⟩
        exact .inr rfl
      simp only [List.map_cons, List.map_nil, List.intercalate_singleton] at hfuel ⊢
      have hlength : field.2.length ≤ fuel := by
        simp only [fieldText, List.length_append, List.length_cons] at hfuel
        omega
      rw [readFields_field hfield hlength hends]
      rfl
    | @cons next nextValue fields values hnext hrest =>
      have hends (cs : List Char) : Ends (',' :: cs) := by
        rintro c ⟨⟩
        exact .inl rfl
      simp only [List.map_cons, List.intercalate_cons_cons, List.append_assoc, List.nil_append,
        List.cons_append] at hfuel ih ⊢
      have hlength : field.2.length ≤ fuel := by
        simp only [fieldText, List.length_append, List.length_cons] at hfuel
        omega
      have hfuel' : ([','].intercalate (fieldText next :: fields.map fieldText)).length < fuel := by
        simp only [List.length_append, List.length_cons] at hfuel
        omega
      rw [readFields_field hfield hlength (hends _)]
      change (readFields fuel _).map _ = _
      rw [ih (by simp) hfuel']
      rfl

theorem exists_quote (field : String × List Char) (fields : List (String × List Char)) :
    ∃ cs, [','].intercalate ((field :: fields).map fieldText) = '"' :: cs := by
  cases fields with
  | nil => exact ⟨_, by rw [List.map_cons, List.map_nil, List.intercalate_singleton]; rfl⟩
  | cons next fields => exact ⟨_, by rw [List.map_cons, List.map_cons, List.intercalate_cons_cons]; rfl⟩

theorem printable_fieldText {field : String × List Char} {value : Option (List Char) × JsonValue}
    (h : WritesField field value) : ∀ c ∈ fieldText field, 0x20 ≤ c.toNat := by
  intro c hc
  rcases List.mem_append.1 hc with hname | hvalue
  · exact le_toNat_of_mem_jsonString hname
  · rcases List.mem_cons.1 hvalue with rfl | hvalue
    · decide
    · exact h.2.printable c hvalue

theorem printable_fields {fields : List (String × List Char)} {values : List (Option (List Char) × JsonValue)}
    (h : List.Forall₂ WritesField fields values) :
    ∀ c ∈ [','].intercalate (fields.map fieldText), 0x20 ≤ c.toNat := by
  induction h with
  | nil => simp
  | cons hfield hfields ih =>
    cases hfields with
    | nil => simpa using printable_fieldText hfield
    | cons hnext hrest =>
      intro c hc
      rw [List.map_cons, List.map_cons, List.intercalate_cons_cons, List.mem_append, List.mem_append,
        List.mem_singleton] at hc
      rcases hc with (hc | rfl) | hc
      · exact printable_fieldText hfield c hc
      · decide
      · exact ih c hc

theorem areProperFields_written {fields : List (String × List Char)}
    {values : List (Option (List Char) × JsonValue)} (h : List.Forall₂ WritesField fields values) :
    areProperFields values = true := by
  induction h with
  | nil => rfl
  | @cons field value fields values hfield hfields ih =>
    obtain ⟨name, v⟩ := value
    obtain ⟨rfl, hv⟩ : name = some field.1.toList ∧ Writes field.2 v := hfield
    simp [areProperFields, hv.proper, ih]

theorem writes_object {fields : List (String × List Char)} {values : List (Option (List Char) × JsonValue)}
    (h : List.Forall₂ WritesField fields values) (hne : fields ≠ []) :
    Writes (jsonObject fields) (.object values) where
  reads fuel rest hfuel hrest := by
    have htext : jsonObject fields = '{' :: ([','].intercalate (fields.map fieldText) ++ ['}']) := rfl
    rw [htext] at hfuel ⊢
    simp only [List.length_cons, List.length_append, List.cons_append, List.append_assoc, List.nil_append] at hfuel ⊢
    obtain ⟨fuel, rfl⟩ : ∃ m, fuel = m + 1 := ⟨fuel - 1, by omega⟩
    have hread := @readFields_written fields values h hne rest fuel (by omega)
    obtain ⟨field, fields, rfl⟩ := List.exists_cons_of_ne_nil hne
    obtain ⟨cs, hcs⟩ := exists_quote field fields
    rw [hcs, List.cons_append] at hread ⊢
    change (readFields fuel _).map _ = _
    rw [hread]
    rfl
  proper := areProperFields_written h
  printable := by
    have htext : jsonObject fields = '{' :: ([','].intercalate (fields.map fieldText) ++ ['}']) := rfl
    intro c hc
    rw [htext, List.mem_cons, List.mem_append, List.mem_singleton] at hc
    rcases hc with rfl | hc | rfl
    · decide
    · exact printable_fields h c hc
    · decide

/-- A written value is read from its text. -/
theorem Writes.ofChars? {text : List Char} {v : JsonValue} (h : Writes text v) : JsonValue.ofChars? text = some v := by
  have hread := h.reads (text.length + 1) [] (Nat.le_succ _) (by rintro c ⟨⟩)
  rw [List.append_nil] at hread
  rw [JsonValue.ofChars?, hread]
  rfl

end ClusterWatch.JsonValue
