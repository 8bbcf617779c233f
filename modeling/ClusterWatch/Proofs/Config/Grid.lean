import ClusterWatch.Config.Basic
import ClusterWatch.Proofs.Line.Wordings
import ClusterWatch.Proofs.Time.Stamp
import Mathlib.Data.List.TakeWhile

/-!
# Texts that spell a grid

Two numbers with a separator between them spell a grid (`Grid.SpelledBy`). A number is digits, perhaps with a plus
sign before them, and there may be white space around it. The reader takes these texts for what they spell and
refuses every other one, and so it reads back what is written for a grid (`Grid.read_eq_ok_iff_spelledBy`).
-/

namespace ClusterWatch
open Text Line

/-! ## Blank texts -/

/-- The text is white space, or empty. -/
def IsBlankText (cs : List Char) : Prop := ∀ c ∈ cs, isBlank c = true

theorem isBlankText_nil : IsBlankText [] := List.forall_mem_nil _

theorem IsBlankText.append {cs cs' : List Char} (h : IsBlankText cs) (h' : IsBlankText cs') :
    IsBlankText (cs ++ cs') :=
  fun c hc => (List.mem_append.1 hc).elim (h c) (h' c)

/-- White space is all that trimming takes away. -/
theorem exists_trim (cs : List Char) :
    ∃ before after, cs = before ++ trim cs ++ after ∧ IsBlankText before ∧ IsBlankText after := by
  refine ⟨cs.takeWhile isBlank, ((trimStart cs).reverse.takeWhile isBlank).reverse, ?_, ?_, ?_⟩
  · have hend : trim cs ++ ((trimStart cs).reverse.takeWhile isBlank).reverse = trimStart cs := by
      rw [trim, trimEnd, ← List.reverse_append, List.takeWhile_append_dropWhile, List.reverse_reverse]
    rw [List.append_assoc, hend]
    exact List.takeWhile_append_dropWhile.symm
  · exact List.all_eq_true.1 List.all_takeWhile
  · intro c hc
    exact List.all_eq_true.1 List.all_takeWhile c (List.mem_reverse.1 hc)

/-- A text that neither starts nor ends blank is what trimming leaves of it and white space around it. -/
theorem trim_eq {before core after : List Char} {a b : Char} (hbefore : IsBlankText before)
    (hafter : IsBlankText after) (ha : core.head? = some a) (hb : core.getLast? = some b)
    (hstart : isBlank a = false) (hend : isBlank b = false) : trim (before ++ core ++ after) = core := by
  have hnone : trimStart before = [] := List.dropWhile_eq_nil_iff.2 hbefore
  have hnone' : trimEnd after = [] := by
    rw [trimEnd, List.reverse_eq_nil_iff, List.dropWhile_eq_nil_iff]
    exact fun c hc => hafter c (List.mem_reverse.1 hc)
  rw [List.append_assoc, trim_around ha hb hstart hend, hnone, hnone', List.nil_append, List.append_nil]

/-! ## Numbers with a sign -/

/-- The text spells the number, perhaps with a plus sign before the digits. -/
def SpellsSigned (cs : List Char) (n : Nat) : Prop :=
  ∃ digits, Spells digits n ∧ (cs = digits ∨ cs = '+' :: digits)

namespace SpellsSigned
variable {cs : List Char} {n : Nat}

theorem ne_nil (h : SpellsSigned cs n) : cs ≠ [] := by
  obtain ⟨digits, hdigits, rfl | rfl⟩ := h
  · exact hdigits.nonempty
  · exact List.cons_ne_nil _ _

theorem eq_or_isDigit (h : SpellsSigned cs n) {c : Char} (hc : c ∈ cs) : c = '+' ∨ c.isDigit = true := by
  obtain ⟨digits, hdigits, rfl | rfl⟩ := h
  · exact .inr (hdigits.digits c hc)
  · exact (List.mem_cons.1 hc).imp_right (hdigits.digits c)

theorem not_isBlank (h : SpellsSigned cs n) {c : Char} (hc : c ∈ cs) : isBlank c = false := by
  rcases h.eq_or_isDigit hc with rfl | hdigit
  · decide
  · exact Time.isBlank_of_isDigit hdigit

theorem not_isSeparator (h : SpellsSigned cs n) {c : Char} (hc : c ∈ cs) : Grid.isSeparator c = false := by
  rcases h.eq_or_isDigit hc with rfl | hdigit
  · decide
  · rw [Grid.isSeparator, Bool.or_eq_false_iff, beq_eq_false_iff_ne, beq_eq_false_iff_ne]
    constructor <;> rintro rfl <;> exact absurd hdigit (by decide)

theorem exists_head? (h : SpellsSigned cs n) : ∃ a, cs.head? = some a ∧ isBlank a = false :=
  ⟨_, List.head?_eq_some_head h.ne_nil, h.not_isBlank (List.head_mem _)⟩

theorem exists_getLast? (h : SpellsSigned cs n) : ∃ b, cs.getLast? = some b ∧ isBlank b = false :=
  ⟨_, List.getLast?_eq_some_getLast h.ne_nil, h.not_isBlank (List.getLast_mem _)⟩

end SpellsSigned

theorem signedNaturalBelow?_eq_some_iff {bound : Nat} {cs : List Char} {n : Nat} :
    signedNaturalBelow? bound cs = some n ↔ SpellsSigned cs n ∧ n < bound := by
  rw [signedNaturalBelow?.eq_def]
  split
  case h_1 digits =>
    rw [naturalBelow?_eq_some_iff]
    refine and_congr_left fun _ => ⟨fun h => ⟨digits, h, .inr rfl⟩, ?_⟩
    rintro ⟨digits', hdigits, rfl | heq⟩
    · exact absurd (hdigits.digits '+' List.mem_cons_self) (by decide)
    · cases heq
      exact hdigits
  case h_2 hplain =>
    rw [naturalBelow?_eq_some_iff]
    refine and_congr_left fun _ => ⟨fun h => ⟨cs, h, .inl rfl⟩, ?_⟩
    rintro ⟨digits, hdigits, rfl | heq⟩
    · exact hdigits
    · exact absurd heq (hplain digits)

/-! ## Grids -/

namespace Grid

/-- The text spells the side of a grid: a number, with white space around it or not. -/
def SideSpelledBy (cs : List Char) (n : Nat) : Prop :=
  ∃ before number after, cs = before ++ number ++ after ∧ IsBlankText before ∧ IsBlankText after ∧
    SpellsSigned number n

/-- The text spells the width and the height of a grid. -/
def SpelledBy (cs : List Char) (width height : Nat) : Prop :=
  ∃ left x right, cs = left ++ x :: right ∧ (x = 'x' ∨ x = 'X') ∧ SideSpelledBy left width ∧
    SideSpelledBy right height

theorem SideSpelledBy.around {cs before after : List Char} {n : Nat} (h : SideSpelledBy cs n)
    (hbefore : IsBlankText before) (hafter : IsBlankText after) : SideSpelledBy (before ++ cs ++ after) n := by
  obtain ⟨before', number, after', rfl, hbefore', hafter', hnumber⟩ := h
  exact ⟨before ++ before', number, after' ++ after, by simp, hbefore.append hbefore', hafter'.append hafter,
    hnumber⟩

theorem side?_eq_some_iff {cs : List Char} {n : UInt32} : side? cs = some n ↔ SideSpelledBy cs n.toNat := by
  rw [side?, Option.map_eq_some_iff]
  constructor
  · rintro ⟨m, hm, rfl⟩
    obtain ⟨hspells, hlt⟩ := signedNaturalBelow?_eq_some_iff.1 hm
    obtain ⟨before, after, hcs, hbefore, hafter⟩ := exists_trim cs
    rw [UInt32.toNat_ofNat_of_lt' hlt]
    exact ⟨before, trim cs, after, hcs, hbefore, hafter, hspells⟩
  · rintro ⟨before, number, after, rfl, hbefore, hafter, hnumber⟩
    obtain ⟨a, ha, hstart⟩ := hnumber.exists_head?
    obtain ⟨b, hb, hend⟩ := hnumber.exists_getLast?
    rw [trim_eq hbefore hafter ha hb hstart hend]
    exact ⟨n.toNat, signedNaturalBelow?_eq_some_iff.2 ⟨hnumber, n.toNat_lt⟩, UInt32.ofNat_toNat⟩

theorem isSeparator_eq_true {c : Char} : isSeparator c = true ↔ c = 'x' ∨ c = 'X' := by
  rw [isSeparator, Bool.or_eq_true, beq_iff_eq, beq_iff_eq]

theorem not_isSeparator_of_isBlank {c : Char} (h : isBlank c = true) : isSeparator c = false := by
  rw [← Bool.not_eq_true, isSeparator_eq_true]
  rintro (rfl | rfl) <;> exact absurd h (by decide)

theorem spelledBy_of_parse? {cs : List Char} {g : Grid} (h : parse? cs = some g) :
    SpelledBy cs g.width.toNat g.height.toNat := by
  obtain ⟨before, after, hcs, hbefore, hafter⟩ := exists_trim cs
  have hsplit : (trim cs).takeWhile (fun c => !isSeparator c) ++ (trim cs).dropWhile (fun c => !isSeparator c) =
      trim cs := List.takeWhile_append_dropWhile
  have hfirst := List.head?_dropWhile_not (fun c => !isSeparator c) (trim cs)
  rw [parse?] at h
  generalize (trim cs).takeWhile (fun c => !isSeparator c) = left at h hsplit
  generalize (trim cs).dropWhile (fun c => !isSeparator c) = rest at h hsplit hfirst
  cases rest with
  | nil => cases h
  | cons x right =>
    have hx : isSeparator x = true := by simpa using hfirst
    dsimp only at h
    split at h
    case h_2 => cases h
    case h_1 width height hwidth hheight =>
      cases h
      have hleft := (side?_eq_some_iff.1 hwidth).around hbefore isBlankText_nil
      have hright := (side?_eq_some_iff.1 hheight).around isBlankText_nil hafter
      refine ⟨_, x, _, ?_, isSeparator_eq_true.1 hx, hleft, hright⟩
      rw [hcs, ← hsplit]
      simp

/-- The first separator is the one between the numbers. -/
theorem parse?_of_spelledBy {cs : List Char} {g : Grid} (h : SpelledBy cs g.width.toNat g.height.toNat) :
    parse? cs = some g := by
  obtain ⟨_, x, _, rfl, hx, ⟨b₁, width, b₂, rfl, h₁, h₂, hwidth⟩, b₃, height, b₄, rfl, h₃, h₄, hheight⟩ := h
  obtain ⟨a, ha, hstart⟩ := hwidth.exists_head?
  obtain ⟨b, hb, hend⟩ := hheight.exists_getLast?
  have htext : b₁ ++ width ++ b₂ ++ x :: (b₃ ++ height ++ b₄) =
      b₁ ++ ((width ++ b₂) ++ x :: (b₃ ++ height)) ++ b₄ := by simp
  have hlast : (width ++ b₂ ++ x :: (b₃ ++ height)).getLast? = some b := by
    rw [← List.cons_append, ← List.append_assoc, List.getLast?_append, hb, Option.some_or]
  have htrim : trim (b₁ ++ width ++ b₂ ++ x :: (b₃ ++ height ++ b₄)) = (width ++ b₂) ++ x :: (b₃ ++ height) := by
    rw [htext]
    exact trim_eq h₁ h₄ (by simp [ha]) hlast hstart hend
  have hleft : ∀ c ∈ width ++ b₂, (!isSeparator c) = true := by
    intro c hc
    rw [Bool.not_eq_true']
    exact (List.mem_append.1 hc).elim hwidth.not_isSeparator fun hc => not_isSeparator_of_isBlank (h₂ c hc)
  have hstop : (!isSeparator x) = false := by rw [isSeparator_eq_true.2 hx]; rfl
  rw [parse?, htrim, List.takeWhile_append_of_pos hleft, List.dropWhile_append_of_pos hleft]
  have hside : side? (width ++ b₂) = some g.width :=
    side?_eq_some_iff.2 ⟨[], width, b₂, rfl, isBlankText_nil, h₂, hwidth⟩
  have hside' : side? (b₃ ++ height) = some g.height :=
    side?_eq_some_iff.2 ⟨b₃, height, [], (List.append_nil _).symm, h₃, isBlankText_nil, hheight⟩
  rw [List.takeWhile_cons_of_neg (by simp [hstop]), List.dropWhile_cons_of_neg (by simp [hstop]), List.append_nil]
  dsimp only
  rw [hside, hside']

theorem parse?_eq_some_iff {cs : List Char} {g : Grid} :
    parse? cs = some g ↔ SpelledBy cs g.width.toNat g.height.toNat :=
  ⟨spelledBy_of_parse?, parse?_of_spelledBy⟩

theorem toList_toText (g : Grid) :
    g.toText.toList = Nat.toDigits 10 g.width.toNat ++ 'x' :: Nat.toDigits 10 g.height.toNat := by
  simp only [toText, String.toList_append, Nat.toString_eq_repr, Nat.toList_repr, List.append_assoc]
  rfl

theorem spelledBy_toText (g : Grid) : SpelledBy g.toText.toList g.width.toNat g.height.toNat := by
  have hside (n : Nat) : SideSpelledBy (Nat.toDigits 10 n) n :=
    ⟨[], _, [], (List.append_nil _).symm, isBlankText_nil, isBlankText_nil, _, spells_toDigits n, .inl rfl⟩
  exact ⟨_, 'x', _, toList_toText g, .inl rfl, hside _, hside _⟩

theorem read_eq_ok_iff {cs : List Char} {g : Grid} : read cs = .ok g ↔ parse? cs = some g := by
  rw [read]
  cases parse? cs <;> simp

/-- A text is read exactly as the grid that it spells, with sides below the bound, and a text that spells none is
refused. What is written for a grid is read back, also for one that was read from a text. -/
theorem read_eq_ok_iff_spelledBy :
    (∀ cs width height, (∃ g, read cs = .ok g ∧ g.width.toNat = width ∧ g.height.toNat = height) ↔
        SpelledBy cs width height ∧ width < UInt32.size ∧ height < UInt32.size) ∧
      (∀ cs, (¬ ∃ width height, SpelledBy cs width height ∧ width < UInt32.size ∧ height < UInt32.size) →
        read cs = .error (.invalidConfig s!"grid must be WxH, got '{String.ofList cs}'")) ∧
      (∀ g : Grid, read g.toText.toList = .ok g) ∧
      ∀ cs g, read cs = .ok g → read g.toText.toList = .ok g := by
  have hwritten (g : Grid) : read g.toText.toList = .ok g :=
    read_eq_ok_iff.2 (parse?_eq_some_iff.2 (spelledBy_toText g))
  refine ⟨fun cs width height => ⟨?_, ?_⟩, fun cs h => ?_, hwritten, fun _ g _ => hwritten g⟩
  · rintro ⟨g, hg, rfl, rfl⟩
    exact ⟨parse?_eq_some_iff.1 (read_eq_ok_iff.1 hg), g.width.toNat_lt, g.height.toNat_lt⟩
  · rintro ⟨hspelled, hw, hh⟩
    have hwidth : (UInt32.ofNat width).toNat = width := UInt32.toNat_ofNat_of_lt' hw
    have hheight : (UInt32.ofNat height).toNat = height := UInt32.toNat_ofNat_of_lt' hh
    refine ⟨⟨.ofNat width, .ofNat height⟩, read_eq_ok_iff.2 (parse?_eq_some_iff.2 ?_), hwidth, hheight⟩
    rwa [hwidth, hheight]
  · have hnone : parse? cs = none := by
      rw [Option.eq_none_iff_forall_ne_some]
      exact fun g hg => h ⟨_, _, parse?_eq_some_iff.1 hg, g.width.toNat_lt, g.height.toNat_lt⟩
    rw [read, hnone]
    rfl

/-- A second separator, a sign alone and a side that is too large are refused. -/
example : [" +007 X\t0040 ", "8x8x8", "8x+", "8x4294967296"].map (fun s => (parse? s.toList).isSome) =
    [true, false, false, false] := by decide

end Grid

end ClusterWatch
