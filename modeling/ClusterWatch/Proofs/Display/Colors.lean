import ClusterWatch.Display.View
import Mathlib.Data.List.Basic
import Mathlib.Data.List.TakeWhile

/-!
# Colors leave the text as it is

A color sequence is an escape, digits and semicolons in a bracket, and a final `m`. Without these sequences the
colored lines are the lines without colors, and in its line every sequence that turns something on is followed by
the one that turns everything off (`View.withoutColors_eq`). This is so whatever the messages say, as long as no
escape stands in them: a line feed in a message never falls between a sequence and its end.
-/

namespace ClusterWatch

/-! ## Color sequences -/

/-- A character that may stand between the bracket and the end of a color sequence. -/
def isParameter (c : Char) : Bool := c.isDigit || c == ';'

/-- The color sequence with these parameters. -/
def colorSequence (params : List Char) : List Char := escapeChar :: '[' :: (params ++ ['m'])

/-- The parameters that turn all colors off. -/
def resetParams : List Char := ['0']

/-- What follows the color sequence with which a text starts, if it does. -/
def afterSequence? : List Char → Option (List Char)
  | '\x1b' :: '[' :: cs =>
    match cs.dropWhile isParameter with
    | 'm' :: rest => some rest
    | _ => none
  | _ => none

theorem isParameter_m : isParameter 'm' = false := by decide

theorem isParameter_reset : ∀ c ∈ resetParams, isParameter c = true := List.all_eq_true.1 (by decide)

theorem split_params {params : List Char} (h : ∀ c ∈ params, isParameter c = true) (rest : List Char) :
    (params ++ 'm' :: rest).takeWhile isParameter = params ∧
      (params ++ 'm' :: rest).dropWhile isParameter = 'm' :: rest := by
  rw [List.takeWhile_append_of_pos h, List.dropWhile_append_of_pos h,
    List.takeWhile_cons_of_neg (by simp [isParameter_m]), List.dropWhile_cons_of_neg (by simp [isParameter_m]),
    List.append_nil]
  exact ⟨rfl, rfl⟩

theorem colorSequence_append (params rest : List Char) :
    colorSequence params ++ rest = escapeChar :: '[' :: (params ++ 'm' :: rest) := by
  simp [colorSequence]

theorem afterSequence?_colorSequence {params : List Char} (h : ∀ c ∈ params, isParameter c = true)
    (rest : List Char) : afterSequence? (colorSequence params ++ rest) = some rest := by
  rw [colorSequence_append]
  simp only [escapeChar, afterSequence?, (split_params h rest).2]

theorem afterSequence?_eq_some_iff {text rest : List Char} :
    afterSequence? text = some rest ↔
      ∃ params, (∀ c ∈ params, isParameter c = true) ∧ text = colorSequence params ++ rest := by
  constructor
  · intro h
    unfold afterSequence? at h
    split at h
    case h_2 => cases h
    case h_1 cs =>
      split at h
      case h_2 => cases h
      case h_1 hrest =>
        cases h
        refine ⟨cs.takeWhile isParameter, List.all_eq_true.1 List.all_takeWhile, ?_⟩
        rw [colorSequence_append, ← hrest, List.takeWhile_append_dropWhile]
        rfl
  · rintro ⟨params, hparams, rfl⟩
    exact afterSequence?_colorSequence hparams rest

/-- A text starts with at most one color sequence. -/
theorem colorSequence_append_inj {params params' rest rest' : List Char}
    (h : ∀ c ∈ params, isParameter c = true) (h' : ∀ c ∈ params', isParameter c = true)
    (heq : colorSequence params ++ rest = colorSequence params' ++ rest') : params = params' ∧ rest = rest' := by
  have hrest := afterSequence?_colorSequence h rest
  rw [heq, afterSequence?_colorSequence h'] at hrest
  cases hrest
  simp only [colorSequence_append, List.cons.injEq, true_and, List.append_cancel_right_eq] at heq
  exact ⟨heq, rfl⟩

theorem length_of_afterSequence? {text rest : List Char} (h : afterSequence? text = some rest) :
    rest.length < text.length := by
  obtain ⟨params, -, rfl⟩ := afterSequence?_eq_some_iff.1 h
  simp only [colorSequence, List.length_append, List.length_cons]
  omega

/-- The text without its color sequences. -/
def withoutColors (text : List Char) : List Char :=
  match _h : afterSequence? text with
  | some rest => withoutColors rest
  | none =>
    match text with
    | [] => []
    | c :: cs => c :: withoutColors cs
termination_by text.length
decreasing_by
  · exact length_of_afterSequence? _h
  · exact Nat.lt_succ_self _

theorem withoutColors_nil : withoutColors [] = [] := by
  rw [withoutColors]
  rfl

theorem withoutColors_colorSequence {params : List Char} (h : ∀ c ∈ params, isParameter c = true)
    (rest : List Char) : withoutColors (colorSequence params ++ rest) = withoutColors rest := by
  rw [withoutColors]
  split
  case h_1 heq =>
    rw [afterSequence?_colorSequence h] at heq
    cases heq
    rfl
  case h_2 heq =>
    rw [afterSequence?_colorSequence h] at heq
    cases heq

theorem withoutColors_cons {c : Char} {cs : List Char} (h : afterSequence? (c :: cs) = none) :
    withoutColors (c :: cs) = c :: withoutColors cs := by
  rw [withoutColors]
  split
  case h_1 heq =>
    rw [h] at heq
    cases heq
  case h_2 => rfl

theorem afterSequence?_cons {c : Char} (h : c ≠ escapeChar) (cs : List Char) : afterSequence? (c :: cs) = none := by
  rw [Option.eq_none_iff_forall_ne_some]
  intro rest hrest
  obtain ⟨params, -, heq⟩ := afterSequence?_eq_some_iff.1 hrest
  rw [colorSequence_append] at heq
  exact h (List.cons.inj heq).1

/-- A text without escapes stays as it is. -/
theorem withoutColors_append {text : List Char} (h : escapeChar ∉ text) (rest : List Char) :
    withoutColors (text ++ rest) = text ++ withoutColors rest := by
  induction text with
  | nil => rfl
  | cons c text ih =>
    have hc : c ≠ escapeChar := Ne.symm (List.ne_of_not_mem_cons h)
    rw [List.cons_append, withoutColors_cons (afterSequence?_cons hc _), ih (List.not_mem_of_not_mem_cons h),
      List.cons_append]

/-! ## Lines -/

theorem lineFeed_not_mem_colorSequence {params : List Char} (h : ∀ c ∈ params, isParameter c = true) :
    '\n' ∉ colorSequence params := by
  intro hmem
  simp only [colorSequence, List.mem_cons, List.mem_append, List.not_mem_nil, or_false] at hmem
  rcases hmem with heq | heq | hmem | heq
  · exact absurd heq (by decide)
  · exact absurd heq (by decide)
  · exact absurd (h _ hmem) (by decide)
  · exact absurd heq (by decide)

/-- A line feed ends a text that has no color sequence at its start. -/
theorem afterSequence?_lineFeed {text : List Char} (h : afterSequence? text = none) (rest : List Char) :
    afterSequence? (text ++ '\n' :: rest) = none := by
  rw [Option.eq_none_iff_forall_ne_some] at h ⊢
  intro after hafter
  obtain ⟨params, hparams, heq⟩ := afterSequence?_eq_some_iff.1 hafter
  have hfeed := lineFeed_not_mem_colorSequence hparams
  rcases List.append_eq_append_iff.1 heq with ⟨more, hsequence, hrest⟩ | ⟨more, htext, -⟩
  · cases more with
    | nil =>
      rw [List.append_nil] at hsequence
      exact h [] (afterSequence?_eq_some_iff.2 ⟨params, hparams, by rw [← hsequence, List.append_nil]⟩)
    | cons c more =>
      rw [(List.cons.inj hrest).1, hsequence] at hfeed
      exact hfeed (List.mem_append_right _ List.mem_cons_self)
  · exact h more (afterSequence?_eq_some_iff.2 ⟨params, hparams, htext⟩)

theorem withoutColors_lineFeed (text rest : List Char) :
    withoutColors (text ++ '\n' :: rest) = withoutColors text ++ '\n' :: withoutColors rest := by
  fun_induction withoutColors text with
  | case1 text after hafter ih =>
    obtain ⟨params, hparams, rfl⟩ := afterSequence?_eq_some_iff.1 hafter
    rw [List.append_assoc, withoutColors_colorSequence hparams, ih]
  | case2 =>
    rw [List.nil_append, withoutColors_cons (afterSequence?_cons (by decide) rest)]
    rfl
  | case3 c cs hnone ih =>
    have hnone' : afterSequence? (c :: (cs ++ '\n' :: rest)) = none := afterSequence?_lineFeed hnone rest
    rw [List.cons_append, withoutColors_cons hnone', ih, List.cons_append]

theorem withoutColors_sublist (text : List Char) : (withoutColors text).Sublist text := by
  fun_induction withoutColors text with
  | case1 text after hafter ih =>
    obtain ⟨params, -, rfl⟩ := afterSequence?_eq_some_iff.1 hafter
    exact ih.trans (List.sublist_append_right _ _)
  | case2 => exact .slnil
  | case3 c cs hnone ih => exact ih.cons_cons c

/-- A text is a single line, or a line, a line feed and further lines. -/
theorem lines_induction {motive : List Char → Prop} (single : ∀ line, '\n' ∉ line → motive line)
    (more : ∀ line rest, '\n' ∉ line → motive rest → motive (line ++ '\n' :: rest)) (text : List Char) :
    motive text := by
  induction hn : text.length using Nat.strongRecOn generalizing text with
  | ind n ih =>
    by_cases hfeed : '\n' ∈ text
    · obtain ⟨line, rest, rfl, hline⟩ := List.eq_append_cons_of_mem hfeed
      refine more line rest hline (ih rest.length ?_ rest rfl)
      rw [← hn, List.length_append, List.length_cons]
      omega
    · exact single text hfeed

/-- Colors may be taken away before or after the text is cut into its lines. -/
theorem map_withoutColors_splitLines (text : List Char) :
    (splitLines text).map withoutColors = splitLines (withoutColors text) := by
  induction text using lines_induction with
  | single line hline =>
    have hplain : '\n' ∉ withoutColors line := fun hmem => hline ((withoutColors_sublist line).mem hmem)
    rw [splitLines, splitLines, List.splitOn_eq_singleton hline, List.splitOn_eq_singleton hplain]
    rfl
  | more line rest hline ih =>
    have hplain : '\n' ∉ withoutColors line := fun hmem => hline ((withoutColors_sublist line).mem hmem)
    rw [splitLines, splitLines] at ih ⊢
    rw [withoutColors_lineFeed, List.splitOn_append_cons_self_of_not_mem hline,
      List.splitOn_append_cons_self_of_not_mem hplain, List.map_cons, ih]

/-! ## Closed sequences -/

/-- The text turns all colors off before its line ends. -/
def TurnsOff (text : List Char) : Prop :=
  ∃ between rest, text = between ++ colorSequence resetParams ++ rest ∧ '\n' ∉ between

/-- Behind every color sequence that turns something on, all is turned off before the line ends. -/
def IsClosed (text : List Char) : Prop :=
  ∀ before params after, (∀ c ∈ params, isParameter c = true) → params ≠ resetParams →
    text = before ++ colorSequence params ++ after → TurnsOff after

theorem isClosed_nil : IsClosed [] := by
  intro before params after _ _ heq
  simp [colorSequence] at heq

theorem IsClosed.cons {c : Char} {cs : List Char} (h : IsClosed cs)
    (hstart : ∀ params after, (∀ c ∈ params, isParameter c = true) → params ≠ resetParams →
      c :: cs = colorSequence params ++ after → TurnsOff after) : IsClosed (c :: cs) := by
  intro before params after hparams hreset heq
  cases before with
  | nil => exact hstart params after hparams hreset heq
  | cons b before => exact h before params after hparams hreset (List.cons.inj heq).2

theorem IsClosed.append {rest text : List Char} (h : IsClosed rest) (htext : escapeChar ∉ text) :
    IsClosed (text ++ rest) := by
  induction text with
  | nil => exact h
  | cons c text ih =>
    refine (ih (List.not_mem_of_not_mem_cons htext)).cons fun params after _ _ heq => ?_
    rw [colorSequence_append] at heq
    exact absurd (List.cons.inj heq).1 (Ne.symm (List.ne_of_not_mem_cons htext))

theorem escapeChar_not_mem_params {params : List Char} (h : ∀ c ∈ params, isParameter c = true) :
    escapeChar ∉ '[' :: (params ++ ['m']) := by
  intro hmem
  simp only [List.mem_cons, List.mem_append, List.not_mem_nil, or_false] at hmem
  rcases hmem with heq | hmem | heq
  · exact absurd heq (by decide)
  · exact absurd (h _ hmem) (by decide)
  · exact absurd heq (by decide)

theorem IsClosed.colorSequence {rest params : List Char} (h : IsClosed rest)
    (hparams : ∀ c ∈ params, isParameter c = true) (hoff : params = resetParams ∨ TurnsOff rest) :
    IsClosed (colorSequence params ++ rest) := by
  have htail := h.append (escapeChar_not_mem_params hparams)
  refine htail.cons fun params' after hparams' hreset heq => ?_
  obtain ⟨rfl, rfl⟩ := colorSequence_append_inj hparams hparams' heq
  exact hoff.resolve_left hreset

/-- What is closed is closed line by line. -/
theorem IsClosed.lineFeed {line rest : List Char} (h : IsClosed (line ++ '\n' :: rest)) :
    IsClosed line ∧ IsClosed rest := by
  constructor
  · rintro before params after hparams hreset rfl
    obtain ⟨between, rest', heq, hbetween⟩ := h before params (after ++ '\n' :: rest) hparams hreset (by simp)
    have hfeed : '\n' ∉ between ++ ClusterWatch.colorSequence resetParams := by
      rw [List.mem_append, not_or]
      exact ⟨hbetween, lineFeed_not_mem_colorSequence isParameter_reset⟩
    rcases List.append_eq_append_iff.1 heq with ⟨more, hleft, hright⟩ | ⟨more, hleft, -⟩
    · cases more with
      | nil => exact ⟨between, [], by rw [hleft, List.append_nil, List.append_nil], hbetween⟩
      | cons c more =>
        rw [(List.cons.inj hright).1, hleft] at hfeed
        exact absurd (List.mem_append_right _ List.mem_cons_self) hfeed
    · exact ⟨between, more, hleft, hbetween⟩
  · rintro before params after hparams hreset rfl
    exact h (line ++ '\n' :: before) params after hparams hreset (by simp)

theorem IsClosed.of_mem_splitLines {text line : List Char} (h : IsClosed text) (hline : line ∈ splitLines text) :
    IsClosed line := by
  rw [splitLines] at hline
  induction text using lines_induction with
  | single text htext =>
    rw [List.splitOn_eq_singleton htext, List.mem_singleton] at hline
    exact hline ▸ h
  | more first rest hfirst ih =>
    rw [List.splitOn_append_cons_self_of_not_mem hfirst] at hline
    rcases List.mem_cons.1 hline with rfl | hline
    · exact h.lineFeed.1
    · exact ih h.lineFeed.2 hline

/-! ## Spans -/

/-- The parameters of an escape sequence with these numbers. -/
def parameters (codes : List Nat) : List Char := ((codes.map (Nat.toDigits 10)).intersperse [';']).flatten

theorem escapeSequence_eq (codes : List Nat) : escapeSequence codes = colorSequence (parameters codes) := rfl

theorem isParameter_parameters (codes : List Nat) : ∀ c ∈ parameters codes, isParameter c = true := by
  have hnumber (n : Nat) : ∀ c ∈ Nat.toDigits 10 n, isParameter c = true := fun c hc => by
    rw [isParameter, Nat.isDigit_of_mem_toDigits (by decide) (by decide) hc, Bool.true_or]
  induction codes with
  | nil => exact List.forall_mem_nil _
  | cons code codes ih =>
    cases codes with
    | nil =>
      intro c hc
      have hcode : parameters [code] = Nat.toDigits 10 code := List.append_nil _
      exact hnumber code c (hcode ▸ hc)
    | cons next codes =>
      have hcodes : parameters (code :: next :: codes) =
          Nat.toDigits 10 code ++ ';' :: parameters (next :: codes) := by
        simp [parameters]
      intro c hc
      rw [hcodes, List.mem_append, List.mem_cons] at hc
      rcases hc with hc | rfl | hc
      · exact hnumber code c hc
      · decide
      · exact ih c hc

namespace Span

/-- No escape stands in the text of the span, and no line feed either if it has a style. -/
structure IsClean (s : Span) : Prop where
  escape : escapeChar ∉ s.text
  lineFeed : s.style.codes ≠ [] → '\n' ∉ s.text

theorem display_styled {s : Span} (h : s.style.codes ≠ []) :
    s.display true = colorSequence (parameters s.style.codes) ++ s.text ++ colorSequence resetParams := by
  rw [display, if_pos (by simpa using h), escapeSequence_eq, escapeSequence_eq]
  rfl

theorem display_unstyled {s : Span} (h : s.style.codes = []) : s.display true = s.text := by
  rw [display, h]
  rfl

theorem withoutColors_display {s : Span} (h : s.IsClean) (rest : List Char) :
    withoutColors (s.display true ++ rest) = s.display false ++ withoutColors rest := by
  have hplain : s.display false = s.text := rfl
  rw [hplain]
  by_cases hstyle : s.style.codes = []
  · rw [display_unstyled hstyle, withoutColors_append h.escape]
  · rw [display_styled hstyle, List.append_assoc, List.append_assoc,
      withoutColors_colorSequence (isParameter_parameters _), withoutColors_append h.escape,
      withoutColors_colorSequence isParameter_reset]

theorem isClosed_display {s : Span} (h : s.IsClean) {rest : List Char} (hrest : IsClosed rest) :
    IsClosed (s.display true ++ rest) := by
  by_cases hstyle : s.style.codes = []
  · rw [display_unstyled hstyle]
    exact hrest.append h.escape
  · rw [display_styled hstyle, List.append_assoc, List.append_assoc]
    have hreset := (hrest.colorSequence isParameter_reset (.inl rfl)).append h.escape
    refine hreset.colorSequence (isParameter_parameters _) (.inr ⟨s.text, rest, ?_, h.lineFeed hstyle⟩)
    rw [List.append_assoc]

variable {spans : List Span}

theorem withoutColors_displayAll (h : ∀ s ∈ spans, s.IsClean) :
    withoutColors (displayAll true spans) = displayAll false spans := by
  induction spans with
  | nil => exact withoutColors_nil
  | cons s spans ih =>
    have hrest := ih fun other hother => h other (List.mem_cons_of_mem _ hother)
    exact (withoutColors_display (h s List.mem_cons_self) _).trans (congrArg _ hrest)

theorem isClosed_displayAll (h : ∀ s ∈ spans, s.IsClean) : IsClosed (displayAll true spans) := by
  induction spans with
  | nil => exact isClosed_nil
  | cons s spans ih =>
    exact isClosed_display (h s List.mem_cons_self) (ih fun other hother => h other (List.mem_cons_of_mem _ hother))

/-- Spans are shown with colors as they are shown without, line by line, but for closed color sequences. -/
theorem lines_displayAll {texts : List (List Span)} (h : ∀ spans ∈ texts, ∀ s ∈ spans, s.IsClean) :
    (linesOfTexts (texts.map (displayAll true))).map withoutColors = linesOfTexts (texts.map (displayAll false)) ∧
      ∀ line ∈ linesOfTexts (texts.map (displayAll true)), IsClosed line := by
  constructor
  · rw [linesOfTexts, linesOfTexts, List.map_flatMap, List.flatMap_map, List.flatMap_map]
    refine List.flatMap_congr fun spans hspans => ?_
    rw [map_withoutColors_splitLines, withoutColors_displayAll (h spans hspans)]
  · intro line hline
    obtain ⟨text, htext, hline⟩ := List.mem_flatMap.1 hline
    obtain ⟨spans, hspans, rfl⟩ := List.mem_map.1 htext
    exact (isClosed_displayAll (h spans hspans)).of_mem_splitLines hline

end Span

/-! ## What is shown -/

/-- No control character stands in the text. -/
def isPrintable (cs : List Char) : Bool := cs.all fun c => 0x20 ≤ c.toNat

theorem isPrintable_append (cs cs' : List Char) :
    isPrintable (cs ++ cs') = (isPrintable cs && isPrintable cs') := List.all_append

theorem isPrintable_toDigits (n : Nat) : isPrintable (Nat.toDigits 10 n) = true := by
  refine List.all_eq_true.2 fun c hc => ?_
  have hdigit : c.isDigit = true := Nat.isDigit_of_mem_toDigits (by decide) (by decide) hc
  have hle : 48 ≤ c.toNat := (Char.isDigit_iff_toNat.1 hdigit).1
  exact decide_eq_true (by omega)

theorem isPrintable_replicate (n : Nat) : isPrintable (List.replicate n ' ') = true :=
  List.all_eq_true.2 fun c hc => by
    rw [List.eq_of_mem_replicate hc]
    rfl

theorem escapeChar_not_mem_of_isPrintable {cs : List Char} (h : isPrintable cs = true) : escapeChar ∉ cs :=
  fun hmem => absurd (List.all_eq_true.1 h escapeChar hmem) (by decide)

namespace Span

theorem isClean_of_isPrintable {s : Span} (h : isPrintable s.text = true) : s.IsClean where
  escape := escapeChar_not_mem_of_isPrintable h
  lineFeed _ hmem := absurd (List.all_eq_true.1 h '\n' hmem) (by decide)

end Span

theorem isPrintable_fixedTwo (x : Decimal.Binary64) : isPrintable (Decimal.fixedTwo x).toList = true := by
  have hplaces (n : Nat) : isPrintable (Decimal.hundredths n).toList = true := by
    simp only [Decimal.hundredths, String.toList_append, Nat.toString_eq_repr, Nat.toList_repr, isPrintable_append,
      isPrintable_toDigits, Bool.true_and]
    split
    · simp only [String.toList_append, Nat.toList_repr, isPrintable_append, isPrintable_toDigits, Bool.and_true]
      decide
    · simp only [Nat.toList_repr, isPrintable_toDigits]
      decide
  rw [Decimal.fixedTwo]
  split
  case h_1 => decide
  case h_2 negative _ => cases negative <;> decide
  case h_3 negative units _ =>
    rw [String.toList_append, isPrintable_append, hplaces, Bool.and_true]
    cases negative <;> decide

theorem isPrintable_rowsText (p : Option Partition) : isPrintable (rowsText p).toList = true := by
  cases p with
  | none => decide
  | some p =>
    simp only [rowsText, String.toList_append, Nat.toString_eq_repr, Nat.toList_repr, isPrintable_append,
      isPrintable_toDigits, Bool.and_true]
    decide

theorem isPrintable_status (n : NodeStats) : isPrintable n.status.toList = true := by
  rw [NodeStats.status]
  split
  case isTrue => decide
  case isFalse => split <;> decide

theorem isPrintable_padLeft (width : Nat) (cs : List Char) : isPrintable (padLeft width cs) = isPrintable cs := by
  rw [padLeft, isPrintable_append, isPrintable_replicate, Bool.true_and]

theorem isPrintable_padRight (width : Nat) (cs : List Char) : isPrintable (padRight width cs) = isPrintable cs := by
  rw [padRight, isPrintable_append, isPrintable_replicate, Bool.and_true]

theorem isPrintable_nodeName (k : NodeId) : isPrintable (nodeName k) = true := by
  rw [nodeName, isPrintable_append, numberText, isPrintable_toDigits, Bool.and_true]
  decide

/-! ### Events -/

/-- The texts of a payload that are not made by the program. -/
def Payload.freeTexts : Payload → List String
  | .barrier name _ => [name]
  | .error message => [message]
  | _ => []

theorem Payload.isClean_spans {p : Payload} (h : ∀ text ∈ p.freeTexts, escapeChar ∉ text.toList) :
    ∀ s ∈ p.spans, s.IsClean := by
  have hfree {first text : String} (hfirst : isPrintable first.toList = true) (htext : text ∈ p.freeTexts) :
      (Span.ofString (first ++ text)).IsClean := by
    refine ⟨?_, fun hstyle => absurd rfl hstyle⟩
    rw [Span.ofString, String.toList_append, List.mem_append, not_or]
    exact ⟨escapeChar_not_mem_of_isPrintable hfirst, h text htext⟩
  intro s hs
  cases p with
  | generation number liveCells =>
    rw [List.mem_singleton.1 hs]
    refine Span.isClean_of_isPrintable ?_
    simp only [isPrintable_append, isPrintable_padLeft, numberText, isPrintable_toDigits, Bool.and_true]
    decide
  | pageFaults | init =>
    rw [List.mem_singleton.1 hs]
    refine Span.isClean_of_isPrintable ?_
    simp only [Span.ofString, String.toList_append, Nat.toString_eq_repr, Nat.toList_repr, isPrintable_append,
      isPrintable_toDigits, Bool.and_true]
    decide
  | network kbSent kbReceived =>
    rw [List.mem_singleton.1 hs]
    refine Span.isClean_of_isPrintable ?_
    show isPrintable ("network " ++ Decimal.fixedTwo kbSent ++ " KB sent, " ++ Decimal.fixedTwo kbReceived ++
      " KB received").toList = true
    simp only [String.toList_append, isPrintable_append, isPrintable_fixedTwo, Bool.and_true]
    decide
  | barrier =>
    rw [List.mem_singleton.1 hs]
    exact hfree (by decide) List.mem_cons_self
  | complete finalLiveCells =>
    rcases List.mem_cons.1 hs with rfl | hs
    · exact Span.isClean_of_isPrintable (by decide)
    · obtain ⟨n, -, rfl⟩ := Option.map_eq_some_iff.1 (Option.mem_toList.1 hs)
      refine Span.isClean_of_isPrintable ?_
      simp only [Span.ofString, String.toList_append, Nat.toString_eq_repr, Nat.toList_repr, isPrintable_append,
        isPrintable_toDigits, Bool.and_true]
      decide
  | error =>
    rcases List.mem_cons.1 hs with rfl | hs
    · exact Span.isClean_of_isPrintable (by decide)
    · rw [List.mem_singleton.1 hs]
      exact hfree (by decide) List.mem_cons_self

theorem Report.isClean_spans {r : Report} (h : ∀ text ∈ r.payload.freeTexts, escapeChar ∉ text.toList) :
    ∀ s ∈ r.spans, s.IsClean := by
  intro s hs
  rcases List.mem_cons.1 hs with rfl | hs
  · refine Span.isClean_of_isPrintable ?_
    show isPrintable (['['] ++ nodeName r.node ++ [']']) = true
    rw [isPrintable_append, isPrintable_append, isPrintable_nodeName, Bool.and_true]
    decide
  · rcases List.mem_cons.1 hs with rfl | hs
    · exact Span.isClean_of_isPrintable (by decide)
    · exact Payload.isClean_spans h s hs

/-! ### The summary -/

/-- All texts of a line are printable. -/
def IsPrintableLine (line : List Span) : Prop := ∀ s ∈ line, isPrintable s.text = true

theorem isPrintableLine_plainLine {text : String} (h : isPrintable text.toList = true) :
    IsPrintableLine (plainLine text) := by
  intro s hs
  rw [List.mem_singleton.1 hs]
  exact h

theorem isPrintableLine_total (title : String) (n : Nat) (h : isPrintable title.toList = true) :
    IsPrintableLine (plainLine (title ++ n.repr)) := by
  refine isPrintableLine_plainLine ?_
  rw [String.toList_append, Nat.toList_repr, isPrintable_append, isPrintable_toDigits, h]
  rfl

theorem isPrintableLine_nodeLine (t : Tracker) (k : NodeId) (n : NodeStats) : IsPrintableLine (nodeLine t k n) := by
  intro s hs
  simp only [nodeLine, List.mem_cons, List.not_mem_nil, or_false] at hs
  rcases hs with rfl | rfl | rfl
  · decide
  · exact isPrintable_nodeName k
  · simp only [isPrintable_append, isPrintable_padRight, isPrintable_padLeft, amountText, isPrintable_rowsText,
      isPrintable_fixedTwo, isPrintable_status, numberText, isPrintable_toDigits, Bool.and_true]
    decide

theorem isPrintableLine_summaryHead {t : Tracker} {s : ClusterStats} {line : List Span}
    (h : line ∈ summaryHead t s) : IsPrintableLine line := by
  simp only [summaryHead, List.mem_append, List.mem_cons, List.mem_map, List.not_mem_nil, or_false] at h
  rcases h with ((rfl | rfl | rfl) | ⟨⟨k, n⟩, -, rfl⟩) | rfl | rfl
  · exact isPrintableLine_plainLine (by decide)
  · exact isPrintableLine_plainLine (by decide)
  · intro s hs
    rw [List.mem_singleton.1 hs]
    decide
  · exact isPrintableLine_nodeLine t k n
  · exact isPrintableLine_plainLine (by decide)
  · exact isPrintableLine_total _ _ (by decide)

/-- The summary consists of printable texts only, wherever it ends. -/
theorem isPrintableLine_summary {nodes : UInt32} {t : Tracker} {s : ClusterStats} {line : List Span}
    (h : line ∈ (summary nodes t s).1) : IsPrintableLine line := by
  have hfaults (n : Nat) : IsPrintableLine (plainLine s!"  Total page faults:               {n}") :=
    isPrintableLine_total _ n (by decide)
  rw [summary] at h
  cases hf : s.totalPageFaults with
  | error =>
    simp only [hf] at h
    exact isPrintableLine_summaryHead h
  | ok faults =>
    cases hc : s.totalLiveCells with
    | error =>
      simp only [hf, hc, List.mem_append, List.mem_singleton] at h
      exact h.elim isPrintableLine_summaryHead fun heq => heq ▸ hfaults _
    | ok cells =>
      simp only [hf, hc, List.mem_append, List.mem_cons, List.not_mem_nil, or_false] at h
      rcases h with (h | rfl) | rfl | rfl | rfl
      · exact isPrintableLine_summaryHead h
      · exact hfaults _
      · exact isPrintableLine_total _ _ (by decide)
      · refine isPrintableLine_plainLine ?_
        simp only [String.toList_append, Nat.toString_eq_repr, Nat.toList_repr, isPrintable_append,
          isPrintable_toDigits, Bool.and_true]
        decide
      · exact isPrintableLine_plainLine (by decide)

/-! ## Both views -/

/-- Events and the summary are printed with colors as they are printed without, line by line, but for the color
sequences; and in every line, all colors are turned off behind each of these. -/
theorem View.withoutColors_eq {events : List Event}
    (h : ∀ e ∈ events, ∀ text ∈ e.payload.freeTexts, escapeChar ∉ text.toList) (nodes : UInt32) (t : Tracker)
    (s : ClusterStats) :
    let colored : View := { colors := true }
    let plain : View := { colors := false }
    (linesOfTexts (events.map colored.event)).map withoutColors = linesOfTexts (events.map plain.event) ∧
      (linesOfTexts (colored.summary nodes t s).1).map withoutColors =
        linesOfTexts (plain.summary nodes t s).1 ∧
      (colored.summary nodes t s).2 = (plain.summary nodes t s).2 ∧
      ∀ line ∈ linesOfTexts (events.map colored.event) ++ linesOfTexts (colored.summary nodes t s).1,
        IsClosed line := by
  intro colored plain
  have hevents (colors : Bool) : events.map ({ colors } : View).event =
      (events.map fun e => e.toReport.spans).map (Span.displayAll colors) := by
    rw [List.map_map]
    rfl
  have hshown := @Span.lines_displayAll (events.map fun e => e.toReport.spans) (by
    intro spans hspans
    obtain ⟨e, he, rfl⟩ := List.mem_map.1 hspans
    exact Report.isClean_spans (h e he))
  have hsummed := @Span.lines_displayAll (ClusterWatch.summary nodes t s).1 fun line hline span hspan =>
    Span.isClean_of_isPrintable (isPrintableLine_summary hline span hspan)
  rw [hevents true, hevents false]
  refine ⟨hshown.1, hsummed.1, rfl, fun line hline => ?_⟩
  exact (List.mem_append.1 hline).elim (hshown.2 line) (hsummed.2 line)

/-- A message of two lines that looks like color sequences without escapes, from the sixth node. -/
theorem View.withoutColors_eq_imitation :
    let events : List Event :=
      [⟨⟨5, .error "[31mlost\n1;0m"⟩, ⟨0, 0⟩⟩, ⟨⟨0, .barrier "BARRIER_[0m" .passed⟩, ⟨0, 0⟩⟩]
    let s := events.foldl (fun s e => s.apply e.toReport) ClusterStats.empty
    let colored : View := { colors := true }
    let shown := linesOfTexts (events.map colored.event)
    (∀ e ∈ events, ∀ text ∈ e.payload.freeTexts, escapeChar ∉ text.toList) ∧
      shown = ["\x1b[32m[Node 5]\x1b[0m \x1b[1;31merror\x1b[0m [31mlost", "1;0m",
        "\x1b[34m[Node 0]\x1b[0m passed BARRIER_[0m"].map String.toList ∧
      shown.map withoutColors =
        ["[Node 5] error [31mlost", "1;0m", "[Node 0] passed BARRIER_[0m"].map String.toList ∧
      ∀ line ∈ shown ++ linesOfTexts (colored.summary 2 .empty s).1, IsClosed line := by
  intro events s colored shown
  have hfree : ∀ e ∈ events, ∀ text ∈ e.payload.freeTexts, escapeChar ∉ text.toList := by
    intro e he text htext
    simp only [events, List.mem_cons, List.not_mem_nil, or_false] at he
    rcases he with rfl | rfl
    all_goals
      rw [List.mem_singleton.1 htext]
      decide
  obtain ⟨hshown, -, -, hclosed⟩ := View.withoutColors_eq hfree 2 .empty s
  exact ⟨hfree, by decide, hshown.trans (by decide), hclosed⟩

end ClusterWatch
