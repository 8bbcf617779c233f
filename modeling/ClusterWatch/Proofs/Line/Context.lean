import ClusterWatch.Proofs.Line.Wordings

/-!
# Lines with text around them

The numbers of a line may be of any size, but each has a type of 32 or 64 bits, and `Rule.Exceeds` says that one
of them does not fit. A line with any text around it that has no bracket and does not go on its last word or
number tells what its numbers spell, and it tells nothing if and only if one of them does not fit
(`Wording.classify_within`).
-/

namespace ClusterWatch.Line
open Text

variable {cs : List Char}

theorem word32?_eq_none (h : UInt32.size ≤ numeral cs) : word32? cs = none := by
  rw [Option.eq_none_iff_forall_ne_some]
  intro n hn
  have hvalue := (word32?_eq_some_iff.1 hn).value
  have hlt := n.toNat_lt
  simp only [UInt32.size] at h
  omega

theorem word64?_eq_none (h : UInt64.size ≤ numeral cs) : word64? cs = none := by
  rw [Option.eq_none_iff_forall_ne_some]
  intro n hn
  have hvalue := (word64?_eq_some_iff.1 hn).value
  have hlt := n.toNat_lt
  simp only [UInt64.size] at h
  omega

theorem IsNumeral.spells (h : IsNumeral cs) : Spells cs (numeral cs) := ⟨h.nonempty, h.digits, rfl⟩

theorem IsNumeral.fits32 (h : IsNumeral cs) : (∃ n : UInt32, Spells cs n.toNat) ∨ UInt32.size ≤ numeral cs := by
  rcases Nat.lt_or_ge (numeral cs) UInt32.size with hlt | hge
  · refine .inl ⟨UInt32.ofNat (numeral cs), ?_⟩
    rw [UInt32.toNat_ofNat_of_lt' hlt]
    exact h.spells
  · exact .inr hge

theorem IsNumeral.fits64 (h : IsNumeral cs) : (∃ n : UInt64, Spells cs n.toNat) ∨ UInt64.size ≤ numeral cs := by
  rcases Nat.lt_or_ge (numeral cs) UInt64.size with hlt | hge
  · refine .inl ⟨UInt64.ofNat (numeral cs), ?_⟩
    rw [UInt64.toNat_ofNat_of_lt' hlt]
    exact h.spells
  · exact .inr hge

namespace Rule

/-- One of the numbers that a rule has captured does not fit into its type. -/
inductive Exceeds : Rule → List (List Char) → Prop
  | node {rule : Rule} {node : List Char} {runs : List (List Char)} (h : UInt32.size ≤ numeral node) :
      Exceeds rule (node :: runs)
  | generation {node generation cells : List Char} (h : UInt64.size ≤ numeral generation) :
      Exceeds generationRule [node, generation, cells]
  | generationCells {node generation cells : List Char} (h : UInt64.size ≤ numeral cells) :
      Exceeds generationRule [node, generation, cells]
  | total {node total read write : List Char} (h : UInt64.size ≤ numeral total) :
      Exceeds pageFaultsRule [node, total, read, write]
  | read {node total read write : List Char} (h : UInt64.size ≤ numeral read) :
      Exceeds pageFaultsRule [node, total, read, write]
  | write {node total read write : List Char} (h : UInt64.size ≤ numeral write) :
      Exceeds pageFaultsRule [node, total, read, write]
  | startRow {node start stop : List Char} (h : UInt32.size ≤ numeral start) :
      Exceeds partitionRule [node, start, stop]
  | endRow {node start stop : List Char} (h : UInt32.size ≤ numeral stop) :
      Exceeds partitionRule [node, start, stop]
  | finalCells {node cells : List Char} (h : UInt64.size ≤ numeral cells) :
      Exceeds finalCellsRule [node, cells]

theorem report?_cons (rule : Rule) (node : List Char) (runs : List (List Char)) :
    rule.report? (node :: runs) =
      (word32? node).bind fun n => (rule.payload? runs).bind fun payload => some ⟨n, payload⟩ := rfl

theorem report?_of_payload? {rule : Rule} {runs : List (List Char)} (h : rule.payload? runs = none)
    (node : List Char) : rule.report? (node :: runs) = none := by
  simp [report?_cons, h]

/-- A number that does not fit leaves nothing to report. -/
theorem report?_of_exceeds {rule : Rule} {runs : List (List Char)} (h : rule.Exceeds runs) :
    rule.report? runs = none := by
  cases h with
  | node h => simp [report?_cons, word32?_eq_none h]
  | generation h | generationCells h =>
    apply report?_of_payload?
    simp [generationRule, word64?_eq_none h]
  | total h | read h | write h =>
    apply report?_of_payload?
    simp [pageFaultsRule, word64?_eq_none h]
  | startRow h | endRow h =>
    apply report?_of_payload?
    simp [partitionRule, word32?_eq_none h]
  | finalCells h =>
    apply report?_of_payload?
    simp [finalCellsRule, word64?_eq_none h]

end Rule

namespace Wording
variable {rule : Rule} {runs : List (List Char)} {phrase node : List Char}

/-- All numbers of a line fit, or one of them does not. -/
theorem says_or_exceeds (h : Wording rule runs phrase) (hnode : IsNumeral node) :
    (∃ r, rule.Says (node :: runs) r) ∨ rule.Exceeds (node :: runs) := by
  rcases hnode.fits32 with ⟨n, hn⟩ | hn
  case inr => exact .inr (.node hn)
  cases h with
  | generation hgeneration hcells =>
    rcases hgeneration.fits64 with ⟨g, hg⟩ | hg
    case inr => exact .inr (.generation hg)
    rcases hcells.fits64 with ⟨c, hc⟩ | hc
    · exact .inl ⟨_, .generation hn hg hc⟩
    · exact .inr (.generationCells hc)
  | pageFaults htotal hread hwrite =>
    rcases htotal.fits64 with ⟨t, ht⟩ | ht
    case inr => exact .inr (.total ht)
    rcases hread.fits64 with ⟨r, hr⟩ | hr
    case inr => exact .inr (.read hr)
    rcases hwrite.fits64 with ⟨w, hw⟩ | hw
    · exact .inl ⟨_, .pageFaults hn ht hr hw⟩
    · exact .inr (.write hw)
  | barrier hne hword => exact .inl ⟨_, .barrier hn⟩
  | partition hstart hstop =>
    rcases hstart.fits32 with ⟨a, ha⟩ | ha
    case inr => exact .inr (.startRow ha)
    rcases hstop.fits32 with ⟨b, hb⟩ | hb
    · exact .inl ⟨_, .partition hn ha hb⟩
    · exact .inr (.endRow hb)
  | complete => exact .inl ⟨_, .complete hn⟩
  | finalCells hcells =>
    rcases hcells.fits64 with ⟨c, hc⟩ | hc
    · exact .inl ⟨_, .finalCells hn hc⟩
    · exact .inr (.finalCells hc)

/-- Only the name of a barrier and a final number of cells can be gone on with. -/
theorem goesOn_eq_false (h : Wording rule runs phrase) {after : List Char}
    (hname : rule = barrierRule → ∀ c, after.head? = some c → isWordChar c = false)
    (hcells : rule = finalCellsRule → ∀ c, after.head? = some c → isDecimalDigit c = false) :
    ∀ c, after.head? = some c → rule.pattern.goesOn c = false := by
  intro c hc
  cases h with
  | barrier => exact hname rfl c hc
  | finalCells => exact hcells rfl c hc
  | generation | pageFaults | partition | complete => rfl

/-- A line with text around it that has no bracket, and that does not go on a name or a final number of cells,
tells what its numbers spell, with any number of zeros in front of each. It tells nothing if and only if one of
its numbers does not fit. -/
theorem classify_within (h : Wording rule runs phrase) (hnode : IsNumeral node) {before after : List Char}
    (hbefore : '[' ∉ before) (hafter : '[' ∉ after)
    (hname : rule = barrierRule → ∀ c, after.head? = some c → isWordChar c = false)
    (hcells : rule = finalCellsRule → ∀ c, after.head? = some c → isDecimalDigit c = false) :
    (∀ r, classify (before ++ (nodeTag node ++ phrase ++ after)) = some r ↔ rule.Says (node :: runs) r) ∧
      (classify (before ++ (nodeTag node ++ phrase ++ after)) = none ↔ rule.Exceeds (node :: runs)) := by
  have hnext := h.goesOn_eq_false hname hcells
  rw [h.classify_around hnode hbefore hafter hnext]
  constructor
  · intro r
    exact Rule.report?_eq_some_iff_says h.mem_rules
  · constructor
    · intro hnone
      rcases h.says_or_exceeds hnode with ⟨r, hr⟩ | hexceeds
      · rw [Rule.report?_of_says hr] at hnone
        cases hnone
      · exact hexceeds
    · exact Rule.report?_of_exceeds

/-- The greatest number of cells, after zeros and before a full stop, and one more than it. -/
theorem classify_within_bound :
    let line (cells : List Char) :=
      "at 7: ".toList ++ (nodeTag "0012".toList ++ ("Final live cells: ".toList ++ cells) ++ ". ".toList)
    classify (line "0018446744073709551615".toList) = some ⟨12, .complete (some 0xffffffffffffffff)⟩ ∧
      classify (line "0018446744073709551616".toList) = none := by
  intro line
  have hnode : Spells "0012".toList (12 : NodeId).toNat := ⟨by decide, List.all_eq_true.1 (by decide), by decide⟩
  have hfits : Spells "0018446744073709551615".toList (0xffffffffffffffff : UInt64).toNat :=
    ⟨by decide, List.all_eq_true.1 (by decide), by decide⟩
  have hmore : IsNumeral "0018446744073709551616".toList := ⟨by decide, List.all_eq_true.1 (by decide)⟩
  have hnext : ∀ c, ". ".toList.head? = some c → isDecimalDigit c = false := by
    rintro c ⟨⟩
    decide
  have hother : finalCellsRule = barrierRule → ∀ c, ". ".toList.head? = some c → isWordChar c = false := by
    rintro - c ⟨⟩
    decide
  have hbefore : '[' ∉ "at 7: ".toList := by decide
  have hafter : '[' ∉ ". ".toList := by decide
  constructor
  · exact ((classify_within (.finalCells hfits.isNumeral) hnode.isNumeral hbefore hafter hother
      fun _ => hnext).1 _).2 (.finalCells hnode hfits)
  · exact (classify_within (.finalCells hmore) hnode.isNumeral hbefore hafter hother
      fun _ => hnext).2.2 (.finalCells (by decide))

end Wording

end ClusterWatch.Line
