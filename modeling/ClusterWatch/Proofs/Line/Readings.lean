import ClusterWatch.Line.Rules

/-!
# Readings of a text

`Pattern.Reads` says what it is for a text to start as a pattern says: the fixed texts follow one another
with a run between them that is not empty and that the next character does not continue. `Pattern.readAt`
finds the reading if there is one (`readAt_eq_some_iff`), and `Pattern.leftmost` the reading at the first
place that has one (`leftmost_eq_some_iff`).
-/

namespace ClusterWatch.Line

namespace Pattern

/-- A text starts as the pattern says, with these runs. -/
inductive Reads : Pattern → List Char → List (List Char) → Prop
  | done (rest : List Char) : Reads [] rest []
  | fixed (expected : List Char) {pieces : Pattern} {rest : List Char} {runs : List (List Char)}
      (h : Reads pieces rest runs) : Reads (.fixed expected :: pieces) (expected ++ rest) runs
  | run {c : CharClass} {run : List Char} {pieces : Pattern} {rest : List Char} {runs : List (List Char)}
      (hne : run ≠ []) (hclass : ∀ a ∈ run, c.contains a = true)
      (hmax : ∀ a, rest.head? = some a → c.contains a = false) (h : Reads pieces rest runs) :
      Reads (.run c :: pieces) (run ++ rest) (run :: runs)

/-- A text is split where a run ends. -/
theorem split_run {c : CharClass} {run rest : List Char} (hclass : ∀ a ∈ run, c.contains a = true)
    (hmax : ∀ a, rest.head? = some a → c.contains a = false) :
    (run ++ rest).takeWhile c.contains = run ∧ (run ++ rest).dropWhile c.contains = rest := by
  have hrest : rest.takeWhile c.contains = [] ∧ rest.dropWhile c.contains = rest := by
    cases rest with
    | nil => exact ⟨rfl, rfl⟩
    | cons a rest => simp [hmax a rfl]
  rw [List.takeWhile_append_of_pos hclass, List.dropWhile_append_of_pos hclass, hrest.1, hrest.2,
    List.append_nil]
  exact ⟨rfl, rfl⟩

theorem readAt_of_reads {pattern : Pattern} {text : List Char} {runs : List (List Char)}
    (h : Reads pattern text runs) : pattern.readAt text = some runs := by
  induction h with
  | done rest => rfl
  | fixed expected h ih =>
    rw [readAt, after?_eq_some.2 rfl]
    exact ih
  | run hne hclass hmax h ih =>
    obtain ⟨htake, hdrop⟩ := split_run hclass hmax
    rw [readAt, htake, hdrop, ih, if_neg (by simpa using hne)]
    rfl

theorem reads_of_readAt {pattern : Pattern} {text : List Char} {runs : List (List Char)}
    (h : pattern.readAt text = some runs) : Reads pattern text runs := by
  induction pattern generalizing text runs with
  | nil =>
    cases h
    exact .done text
  | cons piece pieces ih =>
    cases piece with
    | fixed expected =>
      obtain ⟨rest, hrest, hread⟩ := Option.bind_eq_some_iff.1 h
      rw [after?_eq_some.1 hrest]
      exact .fixed expected (ih hread)
    | run c =>
      rw [readAt] at h
      split at h
      case isTrue => cases h
      case isFalse hne =>
        obtain ⟨tail, hread, rfl⟩ := Option.map_eq_some_iff.1 h
        have hread := ih hread
        have hmax : ∀ a, (text.dropWhile c.contains).head? = some a → c.contains a = false := by
          intro a ha
          have hstop := List.head?_dropWhile_not c.contains text
          rw [ha] at hstop
          exact hstop
        have hclass := List.all_eq_true.1 (List.all_takeWhile (p := c.contains) (l := text))
        have hrun := Reads.run (by simpa using hne) hclass hmax hread
        rwa [List.takeWhile_append_dropWhile] at hrun

/-- Reading from the start gives the runs of the reading. -/
theorem readAt_eq_some_iff {pattern : Pattern} {text : List Char} {runs : List (List Char)} :
    pattern.readAt text = some runs ↔ Reads pattern text runs :=
  ⟨reads_of_readAt, readAt_of_reads⟩

/-- The pattern occurs in the text at this place, with these runs. -/
def OccursAt (pattern : Pattern) (text : List Char) (place : Nat) (runs : List (List Char)) : Prop :=
  place ≤ text.length ∧ Reads pattern (text.drop place) runs

/-- The first occurrence of the pattern in the text has these runs. -/
def OccursFirst (pattern : Pattern) (text : List Char) (runs : List (List Char)) : Prop :=
  ∃ place, pattern.OccursAt text place runs ∧
    ∀ earlier < place, ∀ others, ¬ pattern.OccursAt text earlier others

theorem occursAt_zero {pattern : Pattern} {text : List Char} {runs : List (List Char)} :
    pattern.OccursAt text 0 runs ↔ pattern.readAt text = some runs := by
  rw [readAt_eq_some_iff]
  exact and_iff_right (Nat.zero_le _)

theorem occursAt_succ {pattern : Pattern} {c : Char} {text : List Char} {place : Nat}
    {runs : List (List Char)} :
    pattern.OccursAt (c :: text) (place + 1) runs ↔ pattern.OccursAt text place runs := by
  simp only [OccursAt]
  rw [List.length_cons, Nat.add_le_add_iff_right, List.drop_succ_cons]

/-- The first occurrence is the one that is looked for. -/
theorem leftmost_eq_some_iff {pattern : Pattern} {text : List Char} {runs : List (List Char)} :
    pattern.leftmost text = some runs ↔ pattern.OccursFirst text runs := by
  induction text with
  | nil =>
    constructor
    · intro h
      exact ⟨0, occursAt_zero.2 h, fun earlier he => absurd he (Nat.not_lt_zero _)⟩
    · rintro ⟨place, hplace, -⟩
      rw [Nat.le_zero.1 hplace.1] at hplace
      exact occursAt_zero.1 hplace
  | cons c text ih =>
    rw [leftmost]
    cases hread : pattern.readAt (c :: text) with
    | some found =>
      have hzero := occursAt_zero.2 hread
      constructor
      · rintro ⟨⟩
        exact ⟨0, hzero, fun earlier he => absurd he (Nat.not_lt_zero _)⟩
      · rintro ⟨place, hplace, hfirst⟩
        cases place with
        | zero => exact hread.symm.trans (occursAt_zero.1 hplace)
        | succ place => exact absurd hzero (hfirst 0 (Nat.succ_pos _) _)
    | none =>
      have hzero (others) : ¬ pattern.OccursAt (c :: text) 0 others := by
        rw [occursAt_zero, hread]
        exact Option.not_mem_none _
      rw [Option.none_or, ih]
      constructor
      · rintro ⟨place, hplace, hfirst⟩
        refine ⟨place + 1, occursAt_succ.2 hplace, fun earlier he others hoccurs => ?_⟩
        cases earlier with
        | zero => exact hzero _ hoccurs
        | succ earlier => exact hfirst earlier (Nat.lt_of_succ_lt_succ he) _ (occursAt_succ.1 hoccurs)
      · rintro ⟨place, hplace, hfirst⟩
        cases place with
        | zero => exact absurd hplace (hzero _)
        | succ place =>
          exact ⟨place, occursAt_succ.1 hplace, fun earlier he others hoccurs =>
            hfirst (earlier + 1) (Nat.succ_lt_succ he) _ (occursAt_succ.2 hoccurs)⟩

end Pattern

end ClusterWatch.Line
