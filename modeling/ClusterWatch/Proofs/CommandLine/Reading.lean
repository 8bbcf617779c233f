import ClusterWatch.CommandLine
import ClusterWatch.Proofs.Partwise
import Mathlib.Data.List.TakeWhile

/-!
# Options that are given

There are several ways to give an option its value (`Gives`). Options that are given in any of them, none of them twice,
are set one after another (`ofArguments_eq_ok`); that the value of an option may stand in the next argument, where it is
looked at late, makes no difference.
-/

namespace ClusterWatch.Options

/-- An argument that is no option: it does not begin with a dash, or is nothing but one. -/
def IsPlainWord (word : List Char) : Prop := ∀ c cs, word ≠ '-' :: c :: cs

/-- The arguments give the option this value: together with its name or letter, or in an argument of its own. -/
inductive Gives (flag : Flag) : (value : List Char) → (words : List (List Char)) → Prop
  | joined (value : List Char) (htakes : flag.takesValue = true) :
      Gives flag value ['-' :: '-' :: (flag.long.toList ++ '=' :: value)]
  | apart {value : List Char} (htakes : flag.takesValue = true) (hplain : IsPlainWord value) :
      Gives flag value ['-' :: '-' :: flag.long.toList, value]
  | letter {c : Char} {value : List Char} (htakes : flag.takesValue = true) (hletter : flag.short? = some c)
      (hne : value ≠ []) (hmark : value.head? ≠ some '=') : Gives flag value ['-' :: c :: value]
  | letterJoined {c : Char} (value : List Char) (htakes : flag.takesValue = true) (hletter : flag.short? = some c) :
      Gives flag value ['-' :: c :: '=' :: value]
  | letterApart {c : Char} {value : List Char} (htakes : flag.takesValue = true) (hletter : flag.short? = some c)
      (hplain : IsPlainWord value) : Gives flag value [['-', c], value]
  | switch (htakes : flag.takesValue = false) : Gives flag [] ['-' :: '-' :: flag.long.toList]

/-! ## Names and letters -/

theorem ofLong?_long (flag : Flag) : Flag.ofLong? flag.long.toList = some flag := by
  cases flag <;> decide

theorem ofShort?_short {flag : Flag} {c : Char} (h : flag.short? = some c) : Flag.ofShort? c = some flag := by
  cases flag <;> cases h <;> decide

theorem letter_ne_dash {flag : Flag} {c : Char} (h : flag.short? = some c) : c ≠ '-' := by
  cases flag <;> cases h <;> decide

theorem long_ne_nil (flag : Flag) : flag.long.toList ≠ [] := by
  cases flag <;> decide

theorem not_mark_of_mem_long (flag : Flag) : ∀ c ∈ flag.long.toList, decide (c ≠ '=') = true :=
  List.all_eq_true.1 (by cases flag <;> decide)

namespace Reading
variable {r : Reading} {flag : Flag}

/-! ## Single arguments -/

/-- An argument that does not end the options is taken, and then the others. -/
theorem arguments_cons {word : List Char} (h : word ≠ ['-', '-']) (r : Reading) (rest : List (List Char)) :
    r.arguments (word :: rest) = (r.argument word).bind (·.arguments rest) := by
  rw [arguments.eq_def]
  split
  case h_1 heq => cases heq
  case h_2 heq =>
    cases heq
    exact absurd rfl h
  case h_3 heq =>
    cases heq
    exact absurd rfl h
  case h_4 heq =>
    cases heq
    rfl

theorem argument_plain {word : List Char} (h : IsPlainWord word) (r : Reading) : r.argument word = r.plain word := by
  rw [argument.eq_def]
  split
  case h_1 cs => exact absurd rfl (h '-' cs)
  case h_2 c cs _ => exact absurd rfl (h c cs)
  case h_3 => rfl

theorem long_name (r : Reading) (flag : Flag) : r.long flag.long.toList = r.option flag none := by
  have htake : flag.long.toList.takeWhile (· ≠ '=') = flag.long.toList :=
    List.takeWhile_eq_self_iff.2 (not_mark_of_mem_long flag)
  have hdrop : flag.long.toList.dropWhile (· ≠ '=') = [] := List.dropWhile_eq_nil_iff.2 (not_mark_of_mem_long flag)
  rw [long, htake, hdrop, ofLong?_long]

theorem long_value (r : Reading) (flag : Flag) (value : List Char) :
    r.long (flag.long.toList ++ '=' :: value) = r.option flag (some value) := by
  have htake : (flag.long.toList ++ '=' :: value).takeWhile (· ≠ '=') = flag.long.toList := by
    rw [List.takeWhile_append_of_pos (not_mark_of_mem_long flag)]
    simp
  have hdrop : (flag.long.toList ++ '=' :: value).dropWhile (· ≠ '=') = '=' :: value := by
    rw [List.dropWhile_append_of_pos (not_mark_of_mem_long flag)]
    simp
  rw [long, htake, hdrop, ofLong?_long]

theorem short_letter {c : Char} (hletter : flag.short? = some c) (htakes : flag.takesValue = true) (r : Reading)
    (cs : List Char) : r.short (c :: cs) = r.option flag (match cs with
      | [] => none
      | '=' :: value => some value
      | value => some value) := by
  rw [short.eq_def]
  dsimp only
  rw [ofShort?_short hletter]
  exact if_pos htakes

/-! ## Single options -/

/-- The reading stands for these options: they are what there will be when a value that is still to be looked at is. -/
def Stands (r : Reading) (o : Options) (given : List Flag) : Prop := r.settle = .ok ⟨o, given, none⟩

variable {o o' : Options} {given : List Flag} {value : List Char}

theorem Stands.give (h : r.Stands o given) (hfresh : flag ∉ given) (hset : o.set flag value = .ok o') :
    (r.settle.bind (·.give flag value)) = .ok ⟨o', flag :: given, none⟩ := by
  rw [h]
  show Reading.give _ flag value = _
  rw [Reading.give, if_neg hfresh]
  show (o.set flag value).bind _ = _
  rw [hset]
  rfl

theorem stands_self (o : Options) (given : List Flag) : Stands ⟨o, given, none⟩ o given := rfl

/-- A value in an argument of its own stands for being set. -/
theorem stands_apart (hfresh : flag ∉ given) (hset : o.set flag value = .ok o') :
    Stands ⟨o, given, some (flag, some value)⟩ o' (flag :: given) :=
  (stands_self o given).give hfresh hset

theorem Stands.option_value (h : r.Stands o given) (htakes : flag.takesValue = true) (hfresh : flag ∉ given)
    (hset : o.set flag value = .ok o') : r.option flag (some value) = .ok ⟨o', flag :: given, none⟩ := by
  rw [option.eq_def, htakes]
  exact h.give hfresh hset

theorem Stands.option_name (h : r.Stands o given) (htakes : flag.takesValue = true) :
    r.option flag none = .ok ⟨o, given, some (flag, none)⟩ := by
  rw [option.eq_def, htakes]
  show r.settle.bind _ = _
  rw [h]
  rfl

theorem Stands.option_switch (h : r.Stands o given) (htakes : flag.takesValue = false) (hfresh : flag ∉ given)
    (hset : o.set flag [] = .ok o') : r.option flag none = .ok ⟨o', flag :: given, none⟩ := by
  rw [option.eq_def, htakes]
  exact h.give hfresh hset

/-- An argument with the name of an option alone. -/
theorem arguments_name (r : Reading) (flag : Flag) (rest : List (List Char)) :
    r.arguments (('-' :: '-' :: flag.long.toList) :: rest) = (r.option flag none).bind (·.arguments rest) := by
  rw [arguments_cons (by simpa using long_ne_nil flag)]
  show (r.long _).bind _ = _
  rw [long_name]

/-- An argument with the name of an option and a value. -/
theorem arguments_nameValue (r : Reading) (flag : Flag) (value : List Char) (rest : List (List Char)) :
    r.arguments (('-' :: '-' :: (flag.long.toList ++ '=' :: value)) :: rest) =
      (r.option flag (some value)).bind (·.arguments rest) := by
  rw [arguments_cons (by simp)]
  show (r.long _).bind _ = _
  rw [long_value]

/-- An argument with the letter of an option, and perhaps a value. -/
theorem arguments_letter {c : Char} (hletter : flag.short? = some c) (htakes : flag.takesValue = true) (r : Reading)
    (cs : List Char) (rest : List (List Char)) :
    r.arguments (('-' :: c :: cs) :: rest) = (r.option flag (match cs with
      | [] => none
      | '=' :: value => some value
      | value => some value)).bind (·.arguments rest) := by
  have hdashes : '-' :: c :: cs ≠ ['-', '-'] := by
    intro heq
    cases heq
    exact letter_ne_dash hletter rfl
  have hargument : r.argument ('-' :: c :: cs) = r.short (c :: cs) := by
    rw [argument.eq_def]
    split
    case h_1 heq =>
      cases heq
      exact absurd rfl (letter_ne_dash hletter)
    case h_2 heq =>
      cases heq
      rfl
    case h_3 hnone => exact absurd rfl (hnone c cs)
  rw [arguments_cons hdashes, hargument, short_letter hletter htakes]

/-- The next argument is the value of an option that waits for one. -/
theorem arguments_pending (hplain : IsPlainWord value) (rest : List (List Char)) :
    arguments ⟨o, given, some (flag, none)⟩ (value :: rest) =
      arguments ⟨o, given, some (flag, some value)⟩ rest := by
  rw [arguments_cons (fun heq => hplain '-' [] heq), argument_plain hplain]
  rfl

/-- Whichever way an option is given, it is set. -/
theorem Stands.arguments {words : List (List Char)} (h : r.Stands o given) (hgives : Gives flag value words)
    (hfresh : flag ∉ given) (hset : o.set flag value = .ok o') (rest : List (List Char)) :
    ∃ r' : Reading, r'.Stands o' (flag :: given) ∧ r.arguments (words ++ rest) = r'.arguments rest := by
  cases hgives with
  | joined value htakes =>
    refine ⟨_, stands_self o' _, ?_⟩
    rw [List.singleton_append, arguments_nameValue, h.option_value htakes hfresh hset]
    rfl
  | apart htakes hplain =>
    refine ⟨_, stands_apart hfresh hset, ?_⟩
    rw [List.cons_append, List.singleton_append, arguments_name, h.option_name htakes]
    exact arguments_pending hplain rest
  | letter htakes hletter hne hmark =>
    refine ⟨_, stands_self o' _, ?_⟩
    rw [List.singleton_append, arguments_letter hletter htakes]
    split
    case h_1 => exact absurd rfl hne
    case h_2 => exact absurd rfl hmark
    case h_3 =>
      rw [h.option_value htakes hfresh hset]
      rfl
  | letterJoined value htakes hletter =>
    refine ⟨_, stands_self o' _, ?_⟩
    rw [List.singleton_append, arguments_letter hletter htakes]
    show (r.option flag (some value)).bind _ = _
    rw [h.option_value htakes hfresh hset]
    rfl
  | letterApart htakes hletter hplain =>
    refine ⟨_, stands_apart hfresh hset, ?_⟩
    rw [List.cons_append, List.singleton_append, arguments_letter hletter htakes]
    show (r.option flag none).bind _ = _
    rw [h.option_name htakes]
    exact arguments_pending hplain rest
  | switch htakes =>
    refine ⟨_, stands_self o' _, ?_⟩
    rw [List.singleton_append, arguments_name, h.option_switch htakes hfresh hset]
    rfl

end Reading

/-! ## All options -/

/-- An option as it is given: its value, and the arguments that give it. -/
structure Given where
  flag : Flag
  value : List Char
  words : List (List Char)
  gives : Gives flag value words

/-- The options with this one set as it is given. -/
def take (o : Options) (g : Given) : Except ArgumentStop Options := o.set g.flag g.value

theorem Reading.Stands.arguments_given {given : List Given} {r : Reading} {o o' : Options} {flags : List Flag}
    (h : r.Stands o flags) (hnodup : (given.map (·.flag)).Nodup) (hfresh : ∀ g ∈ given, g.flag ∉ flags)
    (htake : given.foldlM take o = .ok o') :
    ∃ flags', r.arguments (given.flatMap (·.words)) = .ok ⟨o', flags', none⟩ := by
  induction given generalizing r o flags with
  | nil =>
    cases htake
    exact ⟨flags, h⟩
  | cons g given ih =>
    obtain ⟨hfirst, hothers⟩ := List.forall_mem_cons.1 hfresh
    obtain ⟨hunlike, hnodup⟩ := List.nodup_cons.1 hnodup
    obtain ⟨next, hnext, htake⟩ := foldlM_cons_eq_ok_iff.1 htake
    obtain ⟨r', hstands, hread⟩ := h.arguments g.gives hfirst hnext (given.flatMap (·.words))
    rw [List.flatMap_cons, hread]
    refine ih hstands hnodup (fun g' hg' hmem => ?_) htake
    rcases List.mem_cons.1 hmem with heq | hmem
    · exact hunlike (List.mem_map.2 ⟨g', hg', heq⟩)
    · exact hothers g' hg' hmem

/-- Options that are given one after another, none of them twice, are set one after another. -/
theorem ofArguments_eq_ok {given : List Given} (hnodup : (given.map (·.flag)).Nodup) {o : Options}
    (htake : given.foldlM take {} = .ok o) : ofArguments (given.flatMap (·.words)) = .ok o := by
  have hfresh : ∀ g ∈ given, g.flag ∉ ([] : List Flag) := fun _ _ => List.not_mem_nil
  obtain ⟨flags, hread⟩ := (Reading.stands_self {} []).arguments_given hnodup hfresh htake
  rw [ofArguments, show ({} : Reading) = ⟨{}, [], none⟩ from rfl, hread]
  rfl

end ClusterWatch.Options
