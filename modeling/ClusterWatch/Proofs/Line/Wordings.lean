import ClusterWatch.Proofs.Line.FirstMatch
import Mathlib.Data.List.Basic

/-!
# The wordings of the rules

Behind the tag of a node every rule expects words of its own, and no two rules can read the same words
(`rules_part`). So a line with one tag is understood by the rule whose words follow the tag, or not at all
(`classify_of_reads`); that goes for the lines of every `Wording`, with any text around them that has no
bracket and does not go on their last word or number (`Wording.classify_around`).
-/

namespace ClusterWatch.Line
open Text

/-- The tag that a node writes in front of what it says. -/
def nodeTag (node : List Char) : List Char := "[Node ".toList ++ (node ++ "] ".toList)

namespace Pattern

theorem Reads.digits {pieces : Pattern} {cs rest : List Char} {runs : List (List Char)}
    (hcs : IsNumeral cs) (hmax : ∀ a, rest.head? = some a → isDecimalDigit a = false)
    (h : Reads pieces rest runs) : Reads (.run .digit :: pieces) (cs ++ rest) (cs :: runs) :=
  have hclass (a) (ha : a ∈ cs) : CharClass.digit.contains a = true :=
    isDecimalDigit_of_isDigit (hcs.digits a ha)
  .run hcs.nonempty hclass hmax h

theorem readAt_fixed (expected : List Char) (pieces : Pattern) (rest : List Char) :
    readAt (.fixed expected :: pieces) (expected ++ rest) = pieces.readAt rest := by
  rw [readAt, after?_eq_some.2 rfl]
  rfl

/-- Behind the tag a tagged pattern goes on with its other pieces. -/
theorem readAt_tagged {node : List Char} (hnode : IsNumeral node) (pieces : Pattern) (rest : List Char) :
    (tagged pieces).readAt (nodeTag node ++ rest) = (pieces.readAt rest).map (node :: ·) := by
  have hclass (a) (ha : a ∈ node) : CharClass.digit.contains a = true :=
    isDecimalDigit_of_isDigit (hnode.digits a ha)
  have hclose : ∀ a, ("] ".toList ++ rest).head? = some a → CharClass.digit.contains a = false := by
    rintro a ⟨⟩
    rfl
  have hsplit : nodeTag node ++ rest = "[Node ".toList ++ (node ++ ("] ".toList ++ rest)) := by
    show "[Node ".toList ++ (node ++ "] ".toList) ++ rest = _
    rw [List.append_assoc, List.append_assoc]
  obtain ⟨htake, hdrop⟩ := split_run hclass hclose
  rw [hsplit, tagged, readAt_fixed, readAt, htake, hdrop, readAt_fixed, if_neg (by simpa using hnode.nonempty)]

theorem leftmost_cons_of_none {pattern : Pattern} {c : Char} {text : List Char}
    (h : pattern.readAt (c :: text) = none) : pattern.leftmost (c :: text) = pattern.leftmost text := by
  rw [leftmost, h, Option.none_or]

theorem leftmost_of_readAt {pattern : Pattern} {text : List Char} {runs : List (List Char)}
    (h : pattern.readAt text = some runs) : pattern.leftmost text = some runs := by
  cases text with
  | nil => exact h
  | cons c text => rw [leftmost, h, Option.some_or]

/-- A tagged pattern does not occur before the first bracket. -/
theorem leftmost_tagged_append (pieces : Pattern) {before : List Char} (h : '[' ∉ before)
    (text : List Char) : (tagged pieces).leftmost (before ++ text) = (tagged pieces).leftmost text := by
  induction before with
  | nil => rfl
  | cons c before ih =>
    have hc : '[' ≠ c := List.ne_of_not_mem_cons h
    have hafter : after? "[Node ".toList (c :: (before ++ text)) = none := if_neg hc
    have hread : (tagged pieces).readAt (c :: (before ++ text)) = none := by
      rw [Line.tagged, readAt, hafter]
      rfl
    rw [List.cons_append, leftmost_cons_of_none hread, ih (List.not_mem_of_not_mem_cons h)]

theorem leftmost_tagged_of_not_mem (pieces : Pattern) {text : List Char} (h : '[' ∉ text) :
    (tagged pieces).leftmost text = none := by
  have happend := leftmost_tagged_append pieces h []
  rw [List.append_nil] at happend
  rw [happend]
  rfl

/-- A bracket that no name follows is not that of a tag. -/
theorem leftmost_tagged_bracket (pieces : Pattern) {c : Char} (h : c ≠ 'N') (text : List Char) :
    (tagged pieces).leftmost ('[' :: c :: text) = (tagged pieces).leftmost (c :: text) := by
  have hafter : after? "[Node ".toList ('[' :: c :: text) = none := if_neg h.symm
  have hread : (tagged pieces).readAt ('[' :: c :: text) = none := by
    rw [Line.tagged, readAt, hafter]
    rfl
  exact leftmost_cons_of_none hread

/-- Behind a tag that the pattern does not go on from, it occurs where it occurs later. -/
theorem leftmost_tagged_of_readAt {pieces : Pattern} {node : List Char} (hnode : IsNumeral node)
    {rest : List Char} (hread : pieces.readAt rest = none) :
    (tagged pieces).leftmost (nodeTag node ++ rest) = (tagged pieces).leftmost rest := by
  have hnot : (tagged pieces).readAt (nodeTag node ++ rest) = none := by
    rw [readAt_tagged hnode, hread]
    rfl
  have htag : '[' ∉ "Node ".toList ++ (node ++ "] ".toList) := by
    have hopen : '[' ∉ "Node ".toList := by decide
    have hclose : '[' ∉ "] ".toList := by decide
    have hdigits : '[' ∉ node := hnode.not_mem (by decide)
    simp only [List.mem_append, hopen, hclose, hdigits, or_self, not_false_iff]
  exact (leftmost_cons_of_none hnot).trans (leftmost_tagged_append pieces htag rest)

end Pattern

/-! ## Blank characters -/

theorem isWordChar_of_isDigit {a : Char} (h : a.isDigit = true) : isWordChar a = true := by
  simp [isWordChar, Char.isAlphanum, h]

/-- No word character is blank: the table of word characters leaves out the blank ones. -/
theorem not_isBlank_of_isWordChar {a : Char} (h : isWordChar a = true) : isBlank a = false := by
  have htable : ∀ n ∈ [0x9, 0xa, 0xb, 0xc, 0xd, 0x20, 0x85, 0xa0, 0x1680] ++ List.range' 0x2000 11 ++
      [0x2028, 0x2029, 0x202f, 0x205f, 0x3000], isWordChar (Char.ofNat n) = false := by
    decide +kernel
  rw [← Bool.not_eq_true]
  intro hblank
  have hmem : a.toNat ∈ [0x9, 0xa, 0xb, 0xc, 0xd, 0x20, 0x85, 0xa0, 0x1680] ++ List.range' 0x2000 11 ++
      [0x2028, 0x2029, 0x202f, 0x205f, 0x3000] := by
    simp only [isBlank, Bool.or_eq_true, Bool.and_eq_true, decide_eq_true_eq, beq_iff_eq] at hblank
    simp only [List.mem_append, List.mem_cons, List.not_mem_nil, List.mem_range'_1]
    omega
  have hfalse := htable a.toNat hmem
  rw [Char.ofNat_toNat, h] at hfalse
  cases hfalse

theorem dropWhile_append_of_head {p : Char → Bool} {ys : List Char}
    (h : ∀ a, ys.head? = some a → p a = false) (xs : List Char) :
    (xs ++ ys).dropWhile p = xs.dropWhile p ++ ys := by
  have hys : ys.dropWhile p = ys := by
    cases ys with
    | nil => rfl
    | cons a ys => simp [h a rfl]
  rw [List.dropWhile_append, hys]
  split
  case isTrue hempty => rw [List.isEmpty_iff.1 hempty, List.nil_append]
  case isFalse => rfl

/-- Only the text around a part that neither starts nor ends blank is trimmed. -/
theorem trim_around {a b : Char} {core : List Char} (ha : core.head? = some a) (hb : core.getLast? = some b)
    (hstart : isBlank a = false) (hend : isBlank b = false) (before after : List Char) :
    trim (before ++ (core ++ after)) = trimStart before ++ (core ++ trimEnd after) := by
  have hhead : ∀ c, (core ++ after).head? = some c → isBlank c = false := by
    rw [List.head?_append, ha]
    rintro c ⟨⟩
    exact hstart
  have hlast : ∀ c, (core.reverse ++ (before.dropWhile isBlank).reverse).head? = some c →
      isBlank c = false := by
    rw [List.head?_append, List.head?_reverse, hb]
    rintro c ⟨⟩
    exact hend
  rw [trim, trimStart, trimEnd, dropWhile_append_of_head hhead, List.reverse_append, List.reverse_append,
    List.append_assoc, dropWhile_append_of_head hlast, List.reverse_append, List.reverse_append,
    List.reverse_reverse, List.reverse_reverse, List.append_assoc]
  rfl

/-! ## The words that tell the rules apart -/

theorem after?_eq_none {expected other : List Char} (h : ¬ expected <+: other) (h' : ¬ other <+: expected)
    (rest : List Char) : after? expected (other ++ rest) = none := by
  rw [Option.eq_none_iff_forall_ne_some]
  intro tail htail
  have hexpected : expected <+: other ++ rest := ⟨tail, (after?_eq_some.1 htail).symm⟩
  rcases List.prefix_or_prefix_of_prefix hexpected (List.prefix_append other rest) with hp | hp
  · exact h hp
  · exact h' hp

/-- The first words behind the tag. -/
def Rule.opening (rule : Rule) : List Char :=
  match rule.pattern with
  | _ :: _ :: _ :: .fixed opening :: _ => opening
  | _ => []

theorem Rule.exists_pieces {rule : Rule} (h : rule ∈ rules) :
    ∃ pieces, rule.pattern = tagged (.fixed rule.opening :: pieces) := by
  simp only [rules, List.mem_cons, List.not_mem_nil, or_false] at h
  rcases h with rfl | rfl | rfl | rfl | rfl | rfl | rfl <;> exact ⟨_, rfl⟩

/-- The first words of two rules part before either of them is at its end. -/
theorem rules_part : rules.Pairwise fun a b => ¬ a.opening <+: b.opening ∧ ¬ b.opening <+: a.opening := by
  decide

theorem Rule.apply_of_readAt {rule : Rule} {pieces : Pattern} (hpattern : rule.pattern = tagged pieces)
    {words : List Char} {runs : List (List Char)} (hread : pieces.readAt words = some runs)
    {node before : List Char} (hnode : IsNumeral node) (hbefore : '[' ∉ before) :
    rule.apply (before ++ (nodeTag node ++ words)) = rule.report? (node :: runs) := by
  have hfound : (tagged pieces).leftmost (nodeTag node ++ words) = some (node :: runs) := by
    apply Pattern.leftmost_of_readAt
    rw [Pattern.readAt_tagged hnode, hread]
    rfl
  rw [apply, hpattern, Pattern.leftmost_tagged_append _ hbefore, hfound]
  rfl

theorem Rule.apply_of_readAt_eq_none {rule : Rule} {pieces : Pattern} (hpattern : rule.pattern = tagged pieces)
    {words : List Char} (hread : pieces.readAt words = none) (hlater : (tagged pieces).leftmost words = none)
    {node before : List Char} (hnode : IsNumeral node) (hbefore : '[' ∉ before) :
    rule.apply (before ++ (nodeTag node ++ words)) = none := by
  rw [apply, hpattern, Pattern.leftmost_tagged_append _ hbefore,
    Pattern.leftmost_tagged_of_readAt hnode hread, hlater]
  rfl

/-- A line whose only tag is followed by words of a rule is read by this rule, and not by any other. -/
theorem classify_of_reads {rule : Rule} (hrule : rule ∈ rules) {pieces : Pattern}
    (hpattern : rule.pattern = tagged (.fixed rule.opening :: pieces)) {words : List Char}
    {runs : List (List Char)} (hreads : Pattern.Reads (.fixed rule.opening :: pieces) words runs)
    (hwords : ∀ ps, (tagged ps).leftmost words = none) {node : List Char} (hnode : IsNumeral node)
    {before line : List Char} (hbefore : '[' ∉ before)
    (hline : trim line = before ++ (nodeTag node ++ words)) :
    classify line = rule.report? (node :: runs) := by
  have hfound : rule.apply (trim line) = rule.report? (node :: runs) :=
    hline ▸ rule.apply_of_readAt hpattern (Pattern.readAt_of_reads hreads) hnode hbefore
  have hsilent {other : Rule} (hother : other ∈ rules)
      (hparts : ¬ other.opening <+: rule.opening ∧ ¬ rule.opening <+: other.opening) :
      other.apply (trim line) = none := by
    obtain ⟨otherPieces, hotherPattern⟩ := other.exists_pieces hother
    have hread : Pattern.readAt (.fixed other.opening :: otherPieces) words = none := by
      cases hreads
      rw [Pattern.readAt, after?_eq_none hparts.1 hparts.2]
      rfl
    exact hline ▸ other.apply_of_readAt_eq_none hotherPattern hread (hwords _) hnode hbefore
  obtain ⟨earlier, later, hsplit⟩ := List.append_of_mem hrule
  have hpart := rules_part
  rw [hsplit, List.pairwise_append, List.pairwise_cons] at hpart
  have hearlier : earlier.findSome? (·.apply (trim line)) = none := by
    rw [List.findSome?_eq_none_iff]
    intro other hother
    exact hsilent (hsplit ▸ List.mem_append_left _ hother) (hpart.2.2 other hother rule List.mem_cons_self)
  have hlater : later.findSome? (·.apply (trim line)) = none := by
    rw [List.findSome?_eq_none_iff]
    intro other hother
    exact hsilent (hsplit ▸ List.mem_append_right _ (List.mem_cons_of_mem _ hother))
      (hpart.2.1.1 other hother).symm
  rw [classify, hsplit, List.findSome?_append, hearlier, Option.none_or, List.findSome?_cons, hfound]
  cases rule.report? (node :: runs) with
  | none => exact hlater
  | some r => rfl

theorem classify_of_not_mem {line : List Char} (h : '[' ∉ line) : classify line = none := by
  have htrim : '[' ∉ trim line := fun hmem => by
    have hreversed := (List.dropWhile_sublist _).mem (List.mem_reverse.1 hmem)
    exact h ((List.dropWhile_sublist _).mem (List.mem_reverse.1 hreversed))
  rw [classify, List.findSome?_eq_none_iff]
  intro rule hrule
  obtain ⟨pieces, hpattern⟩ := rule.exists_pieces hrule
  rw [Rule.apply, hpattern, Pattern.leftmost_tagged_of_not_mem _ htrim]
  rfl

/-! ## Wordings -/

/-- The words of a rule with these captures. A number is any row of digits, whether or not it fits. Traffic
on the network is left out. -/
inductive Wording : Rule → List (List Char) → List Char → Prop
  | generation {generation cells : List Char} (hgeneration : IsNumeral generation)
      (hcells : IsNumeral cells) :
      Wording generationRule [generation, cells]
        ("Generation ".toList ++ (generation ++ (": ".toList ++ (cells ++ " live cells".toList))))
  | pageFaults {total read write : List Char} (htotal : IsNumeral total) (hread : IsNumeral read)
      (hwrite : IsNumeral write) :
      Wording pageFaultsRule [total, read, write]
        ("Page faults: ".toList ++ (total ++ (" (R: ".toList ++ (read ++ (", W: ".toList ++
          (write ++ ")".toList))))))
  | barrier {name : List Char} (hne : name ≠ []) (hword : ∀ c ∈ name, isWordChar c = true) :
      Wording barrierRule [name] ("Passed ".toList ++ (barrierStart.toList ++ name))
  | partition {start stop : List Char} (hstart : IsNumeral start) (hstop : IsNumeral stop) :
      Wording partitionRule [start, stop]
        ("Partition: rows [".toList ++ (start ++ (", ".toList ++ (stop ++ ")".toList))))
  | complete : Wording completeRule [] "=== Computation Complete ===".toList
  | finalCells {cells : List Char} (hcells : IsNumeral cells) :
      Wording finalCellsRule [cells] ("Final live cells: ".toList ++ cells)

/-- A character that would go on the last piece of a pattern. -/
def Pattern.goesOn (pattern : Pattern) (c : Char) : Bool :=
  match pattern.getLast? with
  | some (.run kind) => kind.contains c
  | _ => false

namespace Wording
variable {rule : Rule} {runs : List (List Char)} {phrase : List Char}

theorem mem_rules (h : Wording rule runs phrase) : rule ∈ rules := by
  cases h <;> simp [rules]

theorem reads (h : Wording rule runs phrase) {after : List Char}
    (hnext : ∀ c, after.head? = some c → rule.pattern.goesOn c = false) :
    ∃ pieces, rule.pattern = tagged (.fixed rule.opening :: pieces) ∧
      Pattern.Reads (.fixed rule.opening :: pieces) (phrase ++ after) runs := by
  have hfixed {c : Char} {text : List Char} (hc : isDecimalDigit c = false) :
      ∀ a, (c :: text).head? = some a → isDecimalDigit a = false := by
    rintro a ⟨⟩
    exact hc
  cases h with
  | generation hgeneration hcells =>
    refine ⟨_, rfl, ?_⟩
    simp only [List.append_assoc]
    exact .fixed _ (.digits hgeneration (hfixed rfl) (.fixed _ (.digits hcells (hfixed rfl)
      (.fixed _ (.done after)))))
  | pageFaults htotal hread hwrite =>
    refine ⟨_, rfl, ?_⟩
    simp only [List.append_assoc]
    exact .fixed _ (.digits htotal (hfixed rfl) (.fixed _ (.digits hread (hfixed rfl)
      (.fixed _ (.digits hwrite (hfixed rfl) (.fixed _ (.done after)))))))
  | barrier hne hword =>
    refine ⟨_, rfl, ?_⟩
    simp only [List.append_assoc]
    exact .fixed _ (.fixed _ (.run hne hword hnext (.done after)))
  | partition hstart hstop =>
    refine ⟨_, rfl, ?_⟩
    simp only [List.append_assoc]
    exact .fixed _ (.digits hstart (hfixed rfl) (.fixed _ (.digits hstop (hfixed rfl)
      (.fixed _ (.done after)))))
  | complete => exact ⟨_, rfl, .fixed _ (.done after)⟩
  | finalCells hcells =>
    refine ⟨_, rfl, ?_⟩
    simp only [List.append_assoc]
    exact .fixed _ (.digits hcells hnext (.done after))

/-! ### The text of a wording -/

/-- The characters of the words of a rule: those of names and numbers, some marks, and the bracket that may
stand in its first words. -/
def Writes (rule : Rule) (a : Char) : Prop :=
  isWordChar a = true ∨ a ∈ " :(),=".toList ∨ a = '[' ∧ '[' ∈ rule.opening

theorem writes (h : Wording rule runs phrase) : ∀ a ∈ phrase, Writes rule a := by
  have hdigits {cs : List Char} (hcs : IsNumeral cs) : ∀ a ∈ cs, Writes rule a :=
    fun a ha => .inl (isWordChar_of_isDigit (hcs.digits a ha))
  have hfixed {fixed : List Char}
      (hall : (fixed.all fun a => isWordChar a || " :(),=".toList.contains a) = true) :
      ∀ a ∈ fixed, Writes rule a := by
    intro a ha
    have hchar := List.all_eq_true.1 hall a ha
    rw [Bool.or_eq_true, List.contains_iff_mem] at hchar
    exact hchar.imp_right .inl
  cases h with
  | generation hgeneration hcells =>
    simp only [List.forall_mem_append]
    exact ⟨hfixed (by decide), hdigits hgeneration, hfixed (by decide), hdigits hcells,
      hfixed (by decide)⟩
  | pageFaults htotal hread hwrite =>
    simp only [List.forall_mem_append]
    exact ⟨hfixed (by decide), hdigits htotal, hfixed (by decide), hdigits hread,
      hfixed (by decide), hdigits hwrite, hfixed (by decide)⟩
  | barrier hne hword =>
    simp only [List.forall_mem_append]
    exact ⟨hfixed (by decide), hfixed (by decide), fun a ha => .inl (hword a ha)⟩
  | partition hstart hstop =>
    have hrows : "Partition: rows [".toList = "Partition: rows ".toList ++ ['['] := rfl
    rw [hrows]
    simp only [List.forall_mem_append]
    exact ⟨⟨hfixed (by decide), List.forall_mem_singleton.2 (.inr (.inr ⟨rfl, by decide⟩))⟩,
      hdigits hstart, hfixed (by decide), hdigits hstop, hfixed (by decide)⟩
  | complete => exact hfixed (by decide)
  | finalCells hcells =>
    simp only [List.forall_mem_append]
    exact ⟨hfixed (by decide), hdigits hcells⟩

theorem nonempty (h : Wording rule runs phrase) : phrase ≠ [] := by
  cases h <;> exact List.cons_ne_nil _ _

theorem isBlank_last (h : Wording rule runs phrase) {a : Char} (ha : phrase.getLast? = some a) :
    isBlank a = false := by
  have hrun {start run : List Char} (hne : run ≠ []) (hword : ∀ c ∈ run, isWordChar c = true)
      (hend : (start ++ run).getLast? = some a) : isBlank a = false := by
    rw [List.getLast?_append_of_ne_nil _ hne] at hend
    exact not_isBlank_of_isWordChar (hword a (List.mem_of_getLast? hend))
  have hmark {start : List Char} (hend : (start ++ ")".toList).getLast? = some a) : isBlank a = false := by
    rw [List.getLast?_append_of_ne_nil _ (by decide)] at hend
    cases hend
    rfl
  cases h with
  | generation hgeneration hcells =>
    have hend : " live cells".toList = " live ".toList ++ "cells".toList := rfl
    rw [hend] at ha
    simp only [← List.append_assoc] at ha
    exact hrun (by decide) (List.all_eq_true.1 (by decide)) ha
  | pageFaults htotal hread hwrite =>
    simp only [← List.append_assoc] at ha
    exact hmark ha
  | barrier hne hword =>
    rw [← List.append_assoc] at ha
    exact hrun hne hword ha
  | partition hstart hstop =>
    simp only [← List.append_assoc] at ha
    exact hmark ha
  | complete =>
    cases ha
    rfl
  | finalCells hcells =>
    exact hrun hcells.nonempty (fun c hc => isWordChar_of_isDigit (hcells.digits c hc)) ha

/-- There is no second tag in the words. -/
theorem leftmost_tagged (h : Wording rule runs phrase) {after : List Char} (hafter : '[' ∉ after)
    (pieces : Pattern) : (tagged pieces).leftmost (phrase ++ after) = none := by
  have hfree (hopening : '[' ∉ rule.opening) : (tagged pieces).leftmost (phrase ++ after) = none := by
    refine Pattern.leftmost_tagged_of_not_mem pieces fun hmem => ?_
    rcases List.mem_append.1 hmem with hmem | hmem
    · rcases h.writes _ hmem with hword | hmark | ⟨-, hrows⟩
      · exact absurd hword (by decide)
      · exact absurd hmark (by decide)
      · exact hopening hrows
    · exact hafter hmem
  cases h with
  | @partition start stop hstart hstop =>
    -- The bracket of the rows has a digit behind it.
    obtain ⟨d, digits, rfl⟩ := List.exists_cons_of_ne_nil hstart.nonempty
    have hd : d ≠ 'N' := by
      rintro rfl
      exact absurd (hstart.digits 'N' List.mem_cons_self) (by decide)
    have hrest : '[' ∉ d :: digits ++ (", ".toList ++ (stop ++ ")".toList)) ++ after := by
      have hstart := hstart.not_mem (a := '[') (by decide)
      have hstop := hstop.not_mem (a := '[') (by decide)
      simp only [List.mem_append, hstart, hstop, hafter, or_false, false_or]
      decide
    have hopen : '[' ∉ "Partition: rows ".toList := by decide
    calc (tagged pieces).leftmost ("Partition: rows ".toList ++
          ('[' :: (d :: digits ++ (", ".toList ++ (stop ++ ")".toList)) ++ after)))
        = (tagged pieces).leftmost
            ('[' :: (d :: digits ++ (", ".toList ++ (stop ++ ")".toList)) ++ after)) :=
          Pattern.leftmost_tagged_append pieces hopen _
      _ = (tagged pieces).leftmost (d :: digits ++ (", ".toList ++ (stop ++ ")".toList)) ++ after) :=
          Pattern.leftmost_tagged_bracket pieces hd _
      _ = none := Pattern.leftmost_tagged_of_not_mem pieces hrest
  | generation | pageFaults | barrier | complete | finalCells => exact hfree (by decide)

/-- What is around the words does not count: the line says what the captures spell, or nothing if they do not
fit. -/
theorem classify_around (h : Wording rule runs phrase) {node : List Char} (hnode : IsNumeral node)
    {before after : List Char} (hbefore : '[' ∉ before) (hafter : '[' ∉ after)
    (hnext : ∀ c, after.head? = some c → rule.pattern.goesOn c = false) :
    classify (before ++ (nodeTag node ++ phrase ++ after)) = rule.report? (node :: runs) := by
  have hlast := List.getLast?_eq_some_getLast h.nonempty
  have htrim : trim (before ++ (nodeTag node ++ phrase ++ after)) =
      trimStart before ++ (nodeTag node ++ (phrase ++ trimEnd after)) := by
    have hcore : (nodeTag node ++ phrase).getLast? = some (phrase.getLast h.nonempty) := by
      rw [List.getLast?_append_of_ne_nil _ h.nonempty, hlast]
    have haround := trim_around (rfl : (nodeTag node ++ phrase).head? = some '[') hcore (by decide)
      (h.isBlank_last hlast) before after
    rwa [List.append_assoc (nodeTag node) phrase (trimEnd after)] at haround
  have hstart : '[' ∉ trimStart before := fun hmem => hbefore ((List.dropWhile_sublist _).mem hmem)
  obtain ⟨rest, hrest⟩ : trimEnd after <+: after := by
    have hsuffix := List.dropWhile_suffix isBlank (l := after.reverse)
    rwa [← List.reverse_prefix, List.reverse_reverse] at hsuffix
  have hend : '[' ∉ trimEnd after := fun hmem => hafter (hrest ▸ List.mem_append_left rest hmem)
  have hgoes : ∀ c, (trimEnd after).head? = some c → rule.pattern.goesOn c = false := by
    intro c hc
    apply hnext c
    rw [← hrest, List.head?_append, hc]
    rfl
  obtain ⟨pieces, hpattern, hreads⟩ := h.reads hgoes
  exact classify_of_reads h.mem_rules hpattern hreads (h.leftmost_tagged hend) hnode hstart htrim

end Wording

end ClusterWatch.Line
