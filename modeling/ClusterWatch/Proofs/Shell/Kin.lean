import ClusterWatch.Shell.Machine

/-!
# The numbers of shells

A step of a shell keeps the number of its process, and the shells that it starts get numbers that were not given
before (`goes_step`). Most commands touch neither (`Scene.kin`). Those that run a shell within the shell leave nothing
of it but what it has started, which is said of any such run (`Scene.Forks`) and then of the shell itself, by the fuel
(`forks_runToEnd`).
-/

namespace ClusterWatch.Shell
open Text Host

namespace Scene

/-- What of a scene the numbers of processes are in: its own, the next one, and those of the shells that it has
started. -/
def kin (s : Scene) : Nat × Nat × List Machine := (s.machine.pid, s.nextPid, s.forked)

variable (s : Scene)

@[simp] theorem kin_update {f : Machine → Machine} (h : (f s.machine).pid = s.machine.pid) :
    (s.update f).kin = s.kin := by rw [kin, kin, update, h]

@[simp] theorem kin_withStatus (status : Nat) : (s.withStatus status).kin = s.kin := rfl

@[simp] theorem kin_push (frames : List Frame) : (s.push frames).kin = s.kin := rfl

@[simp] theorem kin_write (stream : Nat) (bytes : List UInt8) : (s.write stream bytes).kin = s.kin := by
  rw [write]
  cases s.sink stream with
  | file place =>
    dsimp only
    split <;> rfl
  | _ => rfl

@[simp] theorem kin_complain (message : String) : (s.complain message).kin = s.kin := kin_write ..

@[simp] theorem kin_assign (name : String) (value : List Char) : (s.assign name value).kin = s.kin := rfl

@[simp] theorem kin_reset (name : String) (value : Option (List Char)) : (s.reset name value).kin = s.kin := by
  cases value <;> rfl

theorem kin_foldl {α : Type} {f : Scene → α → Scene} (h : ∀ s a, (f s a).kin = s.kin) (as : List α) :
    (as.foldl f s).kin = s.kin := by
  induction as generalizing s with
  | nil => rfl
  | cons a as ih => rw [List.foldl_cons, ih, h]

@[simp] theorem kin_resetAll (saved : List (String × Option (List Char))) : (s.resetAll saved).kin = s.kin := by
  rw [resetAll, kin_foldl]
  exact fun s v => kin_reset s v.1 v.2

end Scene

open Scene

/-! ## Commands of the shell itself -/

variable (s : Scene)

@[simp] theorem pid_setTrap (m : Machine) (signal : String) (action : Option (List Char)) :
    (setTrap m signal action).pid = m.pid := by
  rw [setTrap]
  split <;> rfl

@[simp] theorem kin_exitWith (status : Nat) : (exitWith s status).kin = s.kin := by
  rw [exitWith]
  split
  · dsimp only
    split <;> simp
  · rfl

@[simp] theorem kin_trapCommand (args : List (List Char)) : (trapCommand s args).kin = s.kin := by
  unfold trapCommand
  dsimp only
  split
  · rfl
  · split <;> simp
  · rw [kin_foldl, kin_withStatus]
    intro s signal
    split <;> simp

@[simp] theorem kin_setCommand (args : List (List Char)) : (setCommand s args).kin = s.kin := by
  fun_induction setCommand s args <;> simp_all

@[simp] theorem kin_readFields (isSeparator : Char → Bool) (line : List Char) (names : List String) :
    (readFields isSeparator s line names).kin = s.kin := by
  fun_induction readFields isSeparator s line names <;> simp_all

@[simp] theorem kin_readCommand (args : List (List Char)) : (readCommand s args).kin = s.kin := by
  simp [readCommand]

@[simp] theorem kin_killCommand (args : List (List Char)) : (killCommand s args).kin = s.kin := by
  unfold killCommand
  dsimp only
  split
  · rfl
  · rfl
  · rw [kin_foldl, kin_withStatus]
    intro s pid
    split <;> rfl

@[simp] theorem kin_assignArguments (args : List (List Char)) : (assignArguments s args).kin = s.kin := by
  rw [assignArguments, kin_foldl, kin_withStatus]
  intro s a
  dsimp only
  split <;> simp

@[simp] theorem kin_exportCommand (args : List (List Char)) : (exportCommand s args).kin = s.kin := by
  simp [exportCommand]

@[simp] theorem kin_localCommand (args : List (List Char)) : (localCommand s args).kin = s.kin := by
  rw [localCommand, kin_assignArguments, kin_foldl]
  exact fun s a => kin_update s rfl

theorem kin_builtin {name : String} {act : Scene → List (List Char) → Scene} (h : builtin? name = some act)
    (args : List (List Char)) : (act s args).kin = s.kin := by
  unfold builtin? at h
  split at h <;> first | (obtain rfl := Option.some.inj h) | cases h
  -- Each command sets the status or is one of the above, some of them after they have looked at their arguments.
  all_goals first
    | rfl
    | (simp; done)
    | (dsimp only; split <;> first | simp | (split <;> simp))

/-! ## Programs -/

@[simp] theorem pid_shellMachine (files : Files) (m : Machine) (t : Start) : (shellMachine files m t).pid = m.pid := by
  unfold shellMachine
  dsimp only
  split
  · rfl
  · split
    · split <;> rfl
    · split
      · rfl
      · split
        · rfl
        · split <;> rfl

@[simp] theorem kin_runTool (t : Start) : (runTool s t).kin = s.kin := by
  unfold runTool
  split
  · rfl
  · split
    · rfl
    · dsimp only
      split <;> split <;> simp <;> rfl

@[simp] theorem kin_refuse (name : List Char) (refusal : Refusal) : (refuse s name refusal).kin = s.kin := by
  cases refusal <;> simp [refuse]

@[simp] theorem kin_replaceShell (name : List Char) (args : List (List Char)) :
    (replaceShell s name args).kin = s.kin := by
  unfold replaceShell
  dsimp only
  split
  · split
    · simp
    · rw [kin_update _ rfl, kin_runTool]
  · rw [kin_update _ rfl, kin_refuse]

/-! ## Commands that run shells -/

/-- The shells that are started get numbers that were not given before. -/
structure Scene.Forks (s s' : Scene) : Prop where
  nextPid : s.nextPid ≤ s'.nextPid
  forked : ∀ m ∈ s'.forked, m ∈ s.forked ∨ s.nextPid ≤ m.pid ∧ m.pid < s'.nextPid

/-- The shell goes on under its number. -/
structure Scene.Goes (s s' : Scene) : Prop extends s.Forks s' where
  pid : s'.machine.pid = s.machine.pid

namespace Scene
variable {s s' s'' : Scene}

theorem Forks.trans (h : s.Forks s') (h' : s'.Forks s'') : s.Forks s'' where
  nextPid := Nat.le_trans h.nextPid h'.nextPid
  forked m hm := by
    rcases h'.forked m hm with hm | ⟨hle, hlt⟩
    · exact (h.forked m hm).imp_right fun ⟨hle, hlt⟩ => ⟨hle, Nat.lt_of_lt_of_le hlt h'.nextPid⟩
    · exact .inr ⟨Nat.le_trans h.nextPid hle, hlt⟩

/-- The machine of a shell within the shell does not matter. -/
theorem Forks.of_machine {m : Machine} (h : ({ s with machine := m } : Scene).Forks s') : s.Forks s' :=
  ⟨h.nextPid, h.forked⟩

/-- A shell that runs under a number of its own. -/
theorem Forks.of_started {m : Machine} {elapsed : Nat}
    (h : ({ s with machine := m, nextPid := s.nextPid + 1, elapsed } : Scene).Forks s') : s.Forks s' where
  nextPid := Nat.le_trans (Nat.le_succ s.nextPid) h.nextPid
  forked m hm := (h.forked m hm).imp_right (.imp_left (Nat.le_trans (Nat.le_succ s.nextPid)))

theorem Goes.trans (h : s.Goes s') (h' : s'.Goes s'') : s.Goes s'' where
  toForks := h.toForks.trans h'.toForks
  pid := h'.pid.trans h.pid

theorem Goes.of_kin (h : s'.kin = s.kin) : s.Goes s' := by
  simp only [kin, Prod.mk.injEq] at h
  obtain ⟨hpid, hnext, hforked⟩ := h
  exact ⟨⟨Nat.le_of_eq hnext.symm, fun m hm => .inl (hforked ▸ hm)⟩, hpid⟩

theorem Goes.refl (s : Scene) : s.Goes s := .of_kin rfl

theorem Goes.then (h : s.Goes s') (hkin : s''.kin = s'.kin) : s.Goes s'' := h.trans (.of_kin hkin)

/-- A shell that runs within the shell: only what it has started is left of it. -/
theorem Forks.goes (h : s.Forks s') {m : Machine} (hm : m.pid = s.machine.pid) : s.Goes { s' with machine := m } :=
  ⟨⟨h.nextPid, h.forked⟩, hm⟩

end Scene

section
variable {inner : Runner} (hinner : ∀ s : Scene, s.Forks (inner s))
include hinner

theorem goes_captureScript (s : Scene) (source : List Char) : s.Goes (captureScript inner s source).2 :=
  (hinner _).of_machine.goes rfl

theorem goes_expand (fuel : Nat) (s : Scene) (w : Word) : s.Goes (expand inner fuel s w).2 := by
  induction fuel generalizing s w with
  | zero => exact .refl s
  | succ fuel ih =>
    cases w with
    | nil => exact .refl s
    | cons part parts =>
      simp only [expand]
      refine Goes.trans ?_ (ih _ parts)
      cases part with
      | text quoted cs => exact .refl s
      | command quoted source => exact goes_captureScript hinner s source
      | arithmetic quoted source =>
        dsimp only
        split
        · refine (ih s (wholeText source)).then ?_
          dsimp only
          rw [kin_foldl]
          exact fun s v => rfl
        · exact (ih s (wholeText source)).then (kin_complain ..)
      | parameter quoted name operator word =>
        have hother := ih s (innerWord quoted word)
        dsimp only
        split
        case h_1 =>
          split
          · exact .refl s
          · split
            · exact .of_kin (kin_complain ..)
            · exact .refl s
        -- Every other operator leaves the scene as it is, or works out its word and may then assign or complain.
        all_goals first
          | exact .refl s
          | exact hother
          | split <;> first
            | exact .refl s
            | exact hother
            | exact hother.then (kin_assign ..)
            | exact hother.then (kin_complain ..)

theorem goes_wordText (s : Scene) (w : Word) : s.Goes (wordText inner s w).2 := goes_expand hinner _ s w

theorem goes_wordFields (s : Scene) (ws : List Word) : s.Goes (wordFields inner s ws).2 := by
  induction ws generalizing s with
  | nil => exact .refl s
  | cons w ws ih => exact (goes_expand hinner _ s w).trans (ih _)

theorem goes_assignAll (s : Scene) (assignments : List (String × Word)) :
    s.Goes (assignAll inner s assignments) := by
  induction assignments generalizing s with
  | nil => exact .refl s
  | cons a assignments ih => exact ((goes_wordText hinner s a.2).then (kin_assign ..)).trans (ih _)

theorem goes_redirect (s : Scene) (redirects : List Redirect) : s.Goes (redirect inner s redirects).2 := by
  induction redirects generalizing s with
  | nil => exact .refl s
  | cons r redirects ih =>
    have hword := goes_wordText hinner s r.target
    -- A redirection that is possible changes where a stream leads, or the input; then come the others. One that is
    -- not is complained about.
    have hrest {s' : Scene} (hkin : s'.kin = (wordText inner s r.target).2.kin) :
        s.Goes (redirect inner s' redirects).2 := (hword.then hkin).trans (ih s')
    simp only [redirect]
    split
    · exact hrest rfl
    · split
      · exact hrest rfl
      · split
        · split
          · exact hrest rfl
          · exact hrest rfl
        · exact hword.then (kin_complain ..)
    · split
      · exact hrest rfl
      · split
        · exact hrest rfl
        · exact hword.then (kin_complain ..)
    -- Writing and appending differ in the content only.
    all_goals
      split
      · exact hrest rfl
      · split
        · exact hrest rfl
        · split
          · exact hrest rfl
          · split
            · exact hrest rfl
            · exact hword.then (kin_complain ..)

theorem goes_runShell (s : Scene) (t : Start) : s.Goes (runShell inner s t) := by
  rw [runShell]
  exact (hinner _).of_started.goes rfl

theorem goes_runProgram (s : Scene) (name : List Char) (args : List (List Char)) :
    s.Goes (runProgram inner s name args) := by
  rw [runProgram]
  split
  · split
    · exact goes_runShell hinner s _
    · exact .of_kin (kin_runTool ..)
  · exact .of_kin (kin_refuse ..)

end

@[simp] theorem kin_afterCommand (s : Scene) : (afterCommand s).kin = s.kin := by
  rw [afterCommand]
  split <;> simp

@[simp] theorem kin_traceCommand (s : Scene) (sinks : List (Nat × Sink)) (names : List String)
    (words : List (List Char)) : (traceCommand s sinks names words).kin = s.kin := by
  rw [traceCommand]
  split <;> simp

section
variable {inner : Runner} (hinner : ∀ s : Scene, s.Forks (inner s))
include hinner

theorem goes_runSimple (s : Scene) (assignments : List (String × Word)) (words : List Word)
    (redirects : List Redirect) : s.Goes (runSimple inner s assignments words redirects).1 := by
  unfold runSimple
  extract_lets +onlyGivenNames before s₀
  have hfields : s.Goes (wordFields inner (s₀.withStatus before.status) words).2 :=
    .trans (.of_kin rfl) (goes_wordFields hinner (s₀.withStatus before.status) words)
  generalize wordFields inner (s₀.withStatus before.status) words = worked at hfields ⊢
  obtain ⟨fields, s₁⟩ := worked
  dsimp -zeta only at hfields ⊢
  extract_lets +onlyGivenNames restored
  have hrestored (s : Scene) : (restored s).kin = s.kin := by
    dsimp only [restored]
    split <;> rfl
  clear_value restored
  split
  · exact hfields.then (kin_exitWith ..)
  cases fields with
  | nil =>
    dsimp -zeta only
    extract_lets +onlyGivenNames s₂
    have hword : s.Goes s₂ := hfields.then (by dsimp only [s₂]; split <;> rfl)
    have hredirect := hword.trans (goes_redirect hinner s₂ redirects)
    clear_value s₂
    generalize redirect inner s₂ redirects = redirected at hredirect ⊢
    obtain ⟨ok, s₃⟩ := redirected
    dsimp -zeta only at hredirect ⊢
    extract_lets +onlyGivenNames s₄ s₅ s₆
    have hassigned : s.Goes s₄ := hredirect.trans (goes_assignAll hinner s₃ assignments)
    have htraced : s.Goes s₅ := hassigned.then (by dsimp only [s₅]; split <;> simp)
    have hend : s.Goes s₆ := htraced.then (hrestored s₅)
    clear_value s₆
    split
    · exact hend.then (kin_exitWith ..)
    · exact hend.then (by split <;> simp)
  | cons name args =>
    have hredirect := hfields.trans (goes_redirect hinner s₁ redirects)
    dsimp -zeta only
    generalize redirect inner s₁ redirects = redirected at hredirect ⊢
    obtain ⟨ok, s₃⟩ := redirected
    dsimp -zeta only at hredirect ⊢
    split
    · exact hredirect.then (by simp [hrestored])
    extract_lets +onlyGivenNames text
    -- Which command it is that is called does not matter.
    generalize (if text = "command" ∧ (args.head?.any fun a => a.head? ≠ some '-') then
        (String.ofList (args.headD []), args.headD [], args.tail) else (text, name, args)) = called
    extract_lets +onlyGivenNames saved s₄ s₅ sharing
    have hassigned : s.Goes s₄ := hredirect.trans (goes_assignAll hinner s₃ assignments)
    have htraced : s.Goes s₅ := hassigned.then (kin_traceCommand ..)
    have hsharing (s : Scene) : (sharing s).kin = s.kin := kin_update s rfl
    clear_value s₅ sharing saved
    split
    · exact htraced.then (kin_update _ rfl)
    · split
      · split
        · exact htraced.then rfl
        · exact htraced.then (by simp [hsharing])
      · split
        · exact htraced.then (by simp [hrestored])
        · split
          · exact htraced.then (by simp [hrestored])
          · split
            · rename_i act hact
              exact htraced.then (by simp [hrestored, kin_builtin _ hact])
            · have hprogram := goes_runProgram hinner (sharing s₅) called.2.1 called.2.2
              exact (htraced.trans (.trans (.of_kin (hsharing s₅)) hprogram)).then (by simp [hrestored])

/-- What is looked at of the patterns of an arm. -/
theorem goes_matchArm (subject : List Char) (patterns : List Word) (hit : Bool) (s : Scene) :
    s.Goes (patterns.foldl (fun (hit, s) pattern =>
      if hit then (hit, s)
      else
        let (segments, s) := expand inner (wordFuel pattern) s pattern
        (matchesAll (Glob.ofMarked (marked segments)) subject, s)) (hit, s)).2 := by
  induction patterns generalizing hit s with
  | nil => exact .refl s
  | cons pattern patterns ih =>
    rw [List.foldl_cons]
    cases hit with
    | true => exact ih true s
    | false => exact (goes_expand hinner _ s pattern).trans (ih _ _)

theorem goes_runCommand (s : Scene) (c : Command) : s.Goes (runCommand inner s c).1 := by
  cases c with
  | nothing => exact .refl s
  | simple assignments words redirects => exact goes_runSimple hinner s assignments words redirects
  | sequence c d => exact .of_kin (kin_push ..)
  | both c d => exact .of_kin (kin_push ..)
  | either c d => exact .of_kin (kin_push ..)
  | negated c => exact .of_kin (kin_push ..)
  | branch condition yes no => exact .of_kin (kin_push ..)
  | loop isUntil condition body => exact .of_kin (kin_push ..)
  | function name body => exact .of_kin rfl
  | pipe c d =>
    dsimp -zeta only [runCommand]
    extract_lets +onlyGivenNames m first written second
    have hfirst : s.Forks first := (hinner _).of_machine
    have hsecond : s.Forks second := hfirst.trans (hinner _).of_machine
    exact (hsecond.goes rfl).then (kin_afterCommand ..)
  | background c =>
    refine ⟨⟨Nat.le_succ s.nextPid, fun m hm => ?_⟩, rfl⟩
    rcases List.mem_append.1 hm with h | h
    · exact .inl h
    · obtain rfl := List.mem_singleton.1 h
      exact .inr ⟨Nat.le_refl _, Nat.lt_succ_self _⟩
  | each name words body =>
    unfold runCommand
    cases words with
    | none =>
      dsimp only
      split
      · exact .of_kin (kin_exitWith ..)
      · exact .of_kin (kin_push ..)
    | some words =>
      have hfields := goes_wordFields hinner s words
      dsimp only
      split
      · exact hfields.then (kin_exitWith ..)
      · exact hfields.then (kin_push ..)
  | choose subject arms =>
    exact (goes_wordText hinner s subject).then ((kin_push ..).trans (kin_assign ..))
  | arm patterns body rest =>
    have hmatched := goes_matchArm hinner ((s.valueOf? " subject").getD []) patterns false s
    rw [runCommand]
    dsimp only
    split
    · exact hmatched.then rfl
    · split
      · exact hmatched.then rfl
      · exact hmatched.then rfl
  | group c redirects =>
    have hredirect := goes_redirect hinner s redirects
    rw [runCommand]
    dsimp only
    split
    · exact .of_kin (kin_push ..)
    · split
      · exact hredirect.then (kin_push ..)
      · exact hredirect.then rfl
  | subshell c redirects =>
    have hredirect := goes_redirect hinner s redirects
    rw [runCommand]
    dsimp only
    split
    · refine Goes.then ?_ (kin_afterCommand ..)
      exact (hredirect.toForks.trans (hinner _).of_machine).goes rfl
    · exact hredirect.toForks.goes rfl

end

theorem kin_startTrap {s s' : Scene} (h : startTrap? s = some s') : s'.kin = s.kin := by
  rw [startTrap?] at h
  split at h
  · cases h
  · dsimp only at h
    split at h <;> cases h <;> rfl

section
variable {inner : Runner} (hinner : ∀ s : Scene, s.Forks (inner s))
include hinner

/-- A step of a shell keeps its number, and numbers what it starts anew. -/
theorem goes_step (s : Scene) : s.Goes (step inner s).1 := by
  unfold step
  split
  · rename_i s' htrap
    exact .of_kin (kin_startTrap htrap)
  · split
    · exact .of_kin (kin_exitWith ..)
    · rename_i frame stack _
      have hpopped : s.Goes (s.update ({ · with stack })) := .of_kin rfl
      dsimp only
      cases frame with
      | run c => exact hpopped.trans (goes_runCommand hinner _ c)
      | script source =>
        dsimp only
        split
        · exact hpopped
        · exact hpopped.then (by simp)
        · exact hpopped.then rfl
      | fail message status => exact hpopped.then ((kin_update _ rfl).trans (kin_write ..))
      | each name values body => cases values <;> exact hpopped.then rfl
      | leave arguments saved => exact hpopped.then (kin_resetAll ..)
      | forget saved => exact hpopped.then (kin_resetAll ..)
      | ifSucceeded c | ifFailed c | negate | tested isUntil condition body last =>
        dsimp only
        split <;> exact hpopped.then rfl
      | decide yes no =>
        dsimp only
        split
        · exact hpopped.then rfl
        · exact hpopped.then (by split <;> rfl)
      | ended status | again isUntil condition body | restore sinks input | trapped status => exact hpopped.then rfl

end

theorem forks_runToEnd (fuel : Nat) (s : Scene) : s.Forks (runToEnd fuel s) := by
  induction fuel generalizing s with
  | zero => exact (Goes.refl s).toForks
  | succ fuel ih =>
    have hstep := (goes_step ih s).toForks
    rw [runToEnd]
    split
    · rename_i s' status heq
      rwa [heq] at hstep
    · rename_i s' outcome _ heq
      rw [heq] at hstep
      exact hstep.trans (ih s')

end ClusterWatch.Shell
