import ClusterWatch.Host.Basic
import ClusterWatch.Proofs.Shell.Kin

/-!
# The lives of processes on a host

Of a process that has been started nothing comes but its death: `Ages` is what a signal, a step of another process or
the passing of time may do to it (`ages_signal`, `ages_stepProcess`, `ages_advance`), and a kill ends the process that
it is for and no other (`isAlive_kill`). That a new process does not take the number of an old one is what
`Shell.goes_step` says of the shells.
-/

namespace ClusterWatch.Host
open Shell

/-- Whether the processes of a number live, one after the other. -/
def marks (h : Host) (pid : Pid) : List Bool := (h.processes.filter (·.machine.pid = pid)).map (·.alive)

/-- The number has been given away, and the processes of that number live or are dead together. -/
structure Known (h : Host) (pid : Pid) : Prop where
  old : pid < h.nextPid
  agree : ∀ a ∈ h.marks pid, ∀ b ∈ h.marks pid, a = b

/-- From `h` to `h'` the processes of a number have stayed as they were, or have died. -/
structure Ages (h h' : Host) (pid : Pid) : Prop where
  nextPid : h.nextPid ≤ h'.nextPid
  marks : h'.marks pid = h.marks pid ∨ h'.marks pid = (h.marks pid).map fun _ => false

/-- The numbers of all processes have been given away. -/
def Numbered (h : Host) : Prop := ∀ q ∈ h.processes, q.machine.pid < h.nextPid

/-- What a host may become: no number is given twice, and of the processes that are known none comes to life. -/
structure Since (h h' : Host) : Prop where
  nextPid : h.nextPid ≤ h'.nextPid
  numbered : h.Numbered → h'.Numbered
  ages {pid : Pid} : h.Known pid → h.Ages h' pid

theorem isAlive_eq (h : Host) (pid : Pid) : h.isAlive pid = (h.marks pid).head?.getD false := by
  rw [isAlive, process?, marks, List.head?_map, List.head?_filter]
  cases h.processes.find? (·.machine.pid = pid) <;> rfl

theorem marks_eq_nil {h : Host} {pid : Pid} (hnone : h.process? pid = none) : h.marks pid = [] := by
  rw [process?] at hnone
  rw [marks, List.filter_eq_nil_iff.2 (List.find?_eq_none.1 hnone), List.map_nil]

namespace Ages
variable {h h' h'' : Host} {pid : Pid}

theorem refl (h : Host) (pid : Pid) : h.Ages h pid := ⟨Nat.le_refl _, .inl rfl⟩

theorem of_marks (hnext : h'.nextPid = h.nextPid) (hmarks : h'.marks pid = h.marks pid) : h.Ages h' pid :=
  ⟨Nat.le_of_eq hnext.symm, .inl hmarks⟩

theorem trans (h₁ : h.Ages h' pid) (h₂ : h'.Ages h'' pid) : h.Ages h'' pid where
  nextPid := Nat.le_trans h₁.nextPid h₂.nextPid
  marks := by
    rcases h₁.marks with e₁ | e₁ <;> rcases h₂.marks with e₂ | e₂ <;> simp [e₁, e₂]

theorem known (hages : h.Ages h' pid) (hknown : h.Known pid) : h'.Known pid where
  old := Nat.lt_of_lt_of_le hknown.old hages.nextPid
  agree := by
    rcases hages.marks with e | e
    · rw [e]
      exact hknown.agree
    · rw [e]
      simp

theorem alive (hages : h.Ages h' pid) (halive : h'.isAlive pid = true) : h.isAlive pid = true := by
  rw [isAlive_eq] at halive ⊢
  rcases hages.marks with e | e
  · rwa [e] at halive
  · rw [e] at halive
    cases hm : h.marks pid <;> simp [hm] at halive

end Ages

theorem marks_eq_nil_of_numbered {h : Host} (hnumbered : h.Numbered) {pid : Pid} (hle : h.nextPid ≤ pid) :
    h.marks pid = [] := by
  have hnone : ∀ q ∈ h.processes, ¬ (decide (q.machine.pid = pid) = true) := by
    intro q hq
    have hne : q.machine.pid ≠ pid := Nat.ne_of_lt (Nat.lt_of_lt_of_le (hnumbered q hq) hle)
    simpa using hne
  rw [marks, List.filter_eq_nil_iff.2 hnone, List.map_nil]

namespace Since
variable {h h' h'' : Host}

/-- A number that has not been given away has no process, so nothing can become of it. -/
theorem of_ages (hnext : h.nextPid ≤ h'.nextPid) (hages : ∀ {pid}, h.Known pid → h.Ages h' pid)
    (hnew : h.Numbered → ∀ q ∈ h'.processes, h'.nextPid ≤ q.machine.pid → h.Ages h' q.machine.pid) : h.Since h' where
  nextPid := hnext
  ages := hages
  numbered hnumbered q hq := by
    refine Nat.lt_of_not_le fun hle => ?_
    have hnil : h'.marks q.machine.pid = [] := by
      have hnone := marks_eq_nil_of_numbered hnumbered (Nat.le_trans hnext hle)
      rcases (hnew hnumbered q hq hle).marks with e | e <;> simp [e, hnone]
    have hmem : q.alive ∈ h'.marks q.machine.pid := List.mem_map_of_mem (List.mem_filter.2 ⟨hq, by simp⟩)
    rw [hnil] at hmem
    exact List.not_mem_nil hmem

theorem refl (h : Host) : h.Since h := ⟨Nat.le_refl _, id, fun {pid} _ => .refl h pid⟩

theorem trans (h₁ : h.Since h') (h₂ : h'.Since h'') : h.Since h'' where
  nextPid := Nat.le_trans h₁.nextPid h₂.nextPid
  numbered := h₂.numbered ∘ h₁.numbered
  ages hknown := (h₁.ages hknown).trans (h₂.ages ((h₁.ages hknown).known hknown))

theorem known (hsince : h.Since h') {pid : Pid} (hknown : h.Known pid) : h'.Known pid :=
  (hsince.ages hknown).known hknown

end Since

/-! ## Changes of a host -/

/-- Processes that change keep their numbers. -/
theorem marks_map {h : Host} {f : Process → Process} {change : Bool → Bool} {pid : Pid}
    (hpid : ∀ q, (f q).machine.pid = q.machine.pid)
    (halive : ∀ q ∈ h.processes, q.machine.pid = pid → (f q).alive = change q.alive) :
    ({ h with processes := h.processes.map f } : Host).marks pid = (h.marks pid).map change := by
  have hsame : ((fun q : Process => decide (q.machine.pid = pid)) ∘ f) = fun q => decide (q.machine.pid = pid) :=
    funext fun q => by simp [hpid q]
  rw [marks, marks, List.filter_map, List.map_map, List.map_map, hsame]
  refine List.map_congr_left fun q hq => ?_
  obtain ⟨hmem, hq⟩ := List.mem_filter.1 hq
  exact halive q hmem (by simpa using hq)

/-- Processes of other numbers do not count. -/
theorem marks_append {h h' : Host} {children : List Process} {pid : Pid}
    (hprocesses : h'.processes = h.processes ++ children) (hchildren : ∀ c ∈ children, c.machine.pid ≠ pid) :
    h'.marks pid = h.marks pid := by
  have hnone : children.filter (·.machine.pid = pid) = [] :=
    List.filter_eq_nil_iff.2 fun c hc => by simpa using hchildren c hc
  rw [marks, marks, hprocesses, List.filter_append, hnone, List.append_nil]

theorem marks_modify (h : Host) (target pid : Pid) {f : Process → Process} (change : Bool → Bool)
    (hpid : ∀ q, (f q).machine.pid = q.machine.pid) (halive : ∀ q, (f q).alive = change q.alive) :
    (h.modify target f).marks pid = if pid = target then (h.marks pid).map change else h.marks pid := by
  rw [modify]
  split
  case isTrue heq =>
    refine marks_map (fun q => ?_) fun q _ hq => ?_
    · split
      · exact hpid q
      · rfl
    · rw [if_pos (hq.trans heq)]
      exact halive q
  case isFalse hne =>
    conv => rhs; rw [← List.map_id (h.marks pid)]
    refine marks_map (fun q => ?_) fun q _ hq => ?_
    · split
      · exact hpid q
      · rfl
    · rw [if_neg fun h' => hne (hq.symm.trans h')]
      rfl

theorem marks_wakeWaiting (h : Host) (pid : Pid) : h.wakeWaiting.marks pid = h.marks pid := by
  conv => rhs; rw [← List.map_id (h.marks pid)]
  refine marks_map (fun q => ?_) fun q _ _ => ?_ <;>
  · split
    · split <;> rfl
    · rfl

theorem nextPid_die (h : Host) (target : Pid) : (h.die target).nextPid = h.nextPid := by
  rw [die]
  split
  · dsimp only
    split <;> rfl
  · rfl

theorem marks_die (h : Host) (target pid : Pid) :
    (h.die target).marks pid = if pid = target then (h.marks pid).map fun _ => false else h.marks pid := by
  rw [die]
  split
  case h_1 p _ =>
    have hdead := h.marks_modify target pid (f := fun p => { p with alive := false, waiting := none })
      (fun _ => false) (fun _ => rfl) fun _ => rfl
    dsimp only
    rw [marks_wakeWaiting]
    split <;> exact hdead
  case h_2 hnone =>
    split
    case isTrue heq => rw [heq, marks_eq_nil hnone, List.map_nil]
    case isFalse => rfl

theorem ages_die (h : Host) (target pid : Pid) : h.Ages (h.die target) pid where
  nextPid := Nat.le_of_eq (nextPid_die h target).symm
  marks := by
    rw [marks_die]
    split
    · exact .inr rfl
    · exact .inl rfl

theorem ages_modify (h : Host) (target pid : Pid) {f : Process → Process}
    (hpid : ∀ q, (f q).machine.pid = q.machine.pid) (halive : ∀ q, (f q).alive = q.alive) :
    h.Ages (h.modify target f) pid :=
  .of_marks rfl (by rw [marks_modify h target pid id hpid halive, List.map_id, ite_self])

/-- A signal does nothing to a process but end it. -/
theorem ages_signal (h : Host) (target pid : Pid) (name : String) : h.Ages (h.signal target name) pid := by
  rw [signal]
  split
  · exact .refl h pid
  · have hended := h.ages_modify target pid
      (f := fun p => { p with machine := { p.machine with status := signalStatus name } })
      (fun _ => rfl) fun _ => rfl
    dsimp only
    split
    · exact .refl h pid
    · split
      · exact hended.trans (ages_die _ target pid)
      · split
        · exact .refl h pid
        · split
          · split
            · exact .refl h pid
            · exact h.ages_modify target pid (fun _ => rfl) fun _ => rfl
          · split
            · exact .refl h pid
            · exact hended.trans (ages_die _ target pid)

theorem marks_kill (h : Host) (target pid : Pid) :
    (h.signal target "KILL").marks pid =
      if pid = target ∧ h.isAlive target then (h.marks pid).map fun _ => false else h.marks pid := by
  rw [signal]
  cases hp : h.process? target with
  | none => simp [isAlive, hp]
  | some p =>
    have halive : h.isAlive target = p.alive := by simp [isAlive, hp]
    cases hlives : p.alive with
    | false => simp [halive, hlives]
    | true => simp [halive, hlives, marks_die, marks_modify h target pid id]

theorem isAlive_kill (h : Host) (target pid : Pid) :
    (h.signal target "KILL").isAlive pid = (h.isAlive pid && pid != target) := by
  rw [isAlive_eq, marks_kill]
  by_cases heq : pid = target
  · subst heq
    cases halive : h.isAlive pid with
    | false => simpa [isAlive_eq] using halive
    | true => cases hm : h.marks pid <;> simp
  · simp [heq, isAlive_eq]

theorem ages_emit (h : Host) (launch : Pid) (toErrors : Bool) (bytes : List UInt8) (pid : Pid) :
    h.Ages (h.emit launch toErrors bytes) pid := .of_marks rfl rfl

theorem ages_foldl {α : Type} {f : Host → α → Host} {pid : Pid} (hf : ∀ (h : Host) a, h.Ages (f h a) pid)
    (as : List α) (h : Host) : h.Ages (as.foldl f h) pid := by
  induction as generalizing h with
  | nil => exact .refl h pid
  | cons a as ih => exact (hf h a).trans (ih (f h a))

/-! ## Time passes -/

theorem mem_of_foldl_best {choose : Option Process → Process → Option Process} {p : Process}
    (hchoose : ∀ best q, choose best q = some p → best = some p ∨ q = p ∧ p.alive = true) {ps : List Process}
    {best : Option Process} (hp : ps.foldl choose best = some p) : best = some p ∨ p ∈ ps ∧ p.alive = true := by
  induction ps generalizing best with
  | nil => exact .inl hp
  | cons q ps ih =>
    rcases ih hp with hfirst | ⟨hmem, halive⟩
    · rcases hchoose best q hfirst with hbest | ⟨rfl, halive⟩
      · exact .inl hbest
      · exact .inr ⟨List.mem_cons_self, halive⟩
    · exact .inr ⟨List.mem_cons_of_mem _ hmem, halive⟩

/-- The process that goes on is one that lives. -/
theorem mem_of_nextProcess {h : Host} {p : Process} (hp : h.nextProcess? = some p) :
    p ∈ h.processes ∧ p.alive = true := by
  rw [nextProcess?] at hp
  refine (mem_of_foldl_best (fun best q hq => ?_) hp).resolve_left (by simp)
  split at hq
  case isTrue hruns =>
    simp only [Bool.and_eq_true] at hruns
    split at hq
    · split at hq
      · cases hq
        exact .inr ⟨rfl, hruns.1⟩
      · exact .inl hq
    · cases hq
      exact .inr ⟨rfl, hruns.1⟩
  case isFalse => exact .inl hq

/-- A living process goes on as another one that lives, and new ones come. -/
theorem ages_replace {h : Host} {p next : Process} (hmem : p ∈ h.processes) (halive : p.alive = true)
    (hpid : next.machine.pid = p.machine.pid) (hnext : next.alive = true) {files : Files} {children : List Process}
    {nextPid : Pid} (hnumber : h.nextPid ≤ nextPid) {pid : Pid}
    (hagree : ∀ a ∈ h.marks pid, ∀ b ∈ h.marks pid, a = b) (hchildren : ∀ c ∈ children, c.machine.pid ≠ pid) :
    h.Ages { h with
      files, nextPid
      processes := h.processes.map (fun q => if q.machine.pid = p.machine.pid then next else q) ++ children } pid where
  nextPid := hnumber
  marks := by
    have hmap : ({ h with processes := h.processes.map fun q =>
        if q.machine.pid = p.machine.pid then next else q } : Host).marks pid = (h.marks pid).map id := by
      refine marks_map (fun q => ?_) fun q hq hqpid => ?_
      · split
        case isTrue heq => rw [hpid, heq]
        case isFalse => rfl
      · split
        case isTrue heq =>
          have hmark (q : Process) (hq : q ∈ h.processes) (hqpid : q.machine.pid = pid) : q.alive ∈ h.marks pid :=
            List.mem_map_of_mem (List.mem_filter.2 ⟨hq, by simpa using hqpid⟩)
          rw [hnext, ← halive]
          exact hagree _ (hmark p hmem (heq.symm.trans hqpid)) _ (hmark q hq hqpid)
        case isFalse => rfl
    rw [List.map_id] at hmap
    exact .inl ((marks_append rfl hchildren).trans hmap)

/-- What a step of a process does: it goes on under its number, processes with new numbers come, and then what it has
sent takes its effect. -/
theorem stepProcess_cases (h : Host) {p : Process} (halive : p.alive = true) (time : Nat) :
    ∃ (next : Process) (files : Files) (children : List Process) (nextPid : Pid),
      next.machine.pid = p.machine.pid ∧ next.alive = true ∧ h.nextPid ≤ nextPid ∧
        (∀ c ∈ children, h.nextPid ≤ c.machine.pid ∧ c.machine.pid < nextPid) ∧
        ∀ pid, Ages { h with
          files, nextPid
          processes := h.processes.map (fun q => if q.machine.pid = p.machine.pid then next else q) ++ children }
          (h.stepProcess p time) pid := by
  unfold stepProcess
  extract_lets +onlyGivenNames target
  have hgoes := goes_step (forks_runToEnd innerFuel) { machine := p.machine, files := h.files, nextPid := h.nextPid }
  generalize Shell.step (runToEnd innerFuel) { machine := p.machine, files := h.files, nextPid := h.nextPid } = result
    at hgoes ⊢
  obtain ⟨scene, outcome⟩ := result
  dsimp -zeta only at hgoes ⊢
  extract_lets +onlyGivenNames isLast next source next' children h₁ h₂ isBroken h₃ h₄
  have hpid : next'.machine.pid = p.machine.pid := by
    dsimp only [next']
    split
    · split <;> exact hgoes.pid
    · exact hgoes.pid
  have hnext : next'.alive = true := by
    dsimp only [next']
    split
    · split <;> exact halive
    · exact halive
  have hchildren : ∀ c ∈ children, h.nextPid ≤ c.machine.pid ∧ c.machine.pid < scene.nextPid :=
    List.forall_mem_map.2 fun m hm => (hgoes.forked m hm).resolve_left List.not_mem_nil
  refine ⟨next', scene.files, children, scene.nextPid, hpid, hnext, hgoes.nextPid, hchildren, fun pid => ?_⟩
  have hwritten : h₁.Ages h₂ pid := ages_foldl (fun h a => ages_emit h _ _ _ pid) _ h₁
  have hbroken : h₂.Ages h₃ pid := by
    dsimp only [h₃]
    split
    · exact ages_signal h₂ target pid "PIPE"
    · exact .refl h₂ pid
  have hsignalled : h₃.Ages h₄ pid := ages_foldl (fun h a => ages_signal h _ pid _) _ h₃
  have hlast := (hwritten.trans hbroken).trans hsignalled
  clear_value h₄
  split
  · exact hlast.trans (ages_die h₄ target pid)
  · exact hlast

theorem since_stepProcess {h : Host} {p : Process} (hmem : p ∈ h.processes) (halive : p.alive = true) (time : Nat) :
    h.Since (h.stepProcess p time) := by
  obtain ⟨next, files, children, nextPid, hpid, hnext, hnumber, hchildren, hlast⟩ := stepProcess_cases h halive time
  refine .of_ages (Nat.le_trans hnumber (hlast 0).nextPid) ?_ ?_
  · intro pid hknown
    refine (ages_replace hmem halive hpid hnext hnumber hknown.agree fun c hc => ?_).trans (hlast pid)
    exact (Nat.ne_of_lt (Nat.lt_of_lt_of_le hknown.old (hchildren c hc).1)).symm
  · intro hnumbered q _ hle
    have hle' : nextPid ≤ q.machine.pid := Nat.le_trans (hlast 0).nextPid hle
    have hnone := marks_eq_nil_of_numbered hnumbered (Nat.le_trans hnumber hle')
    refine (ages_replace hmem halive hpid hnext hnumber (by simp [hnone]) fun c hc => ?_).trans (hlast _)
    exact Nat.ne_of_lt (Nat.lt_of_lt_of_le (hchildren c hc).2 hle')

theorem since_signal (h : Host) (target : Pid) (name : String) : h.Since (h.signal target name) :=
  .of_ages (ages_signal h target 0 name).nextPid (fun _ => ages_signal h target _ name)
    fun _ _ _ _ => ages_signal h target _ name

/-- What is not about processes may change. -/
theorem Since.of_processes {h h' : Host} (hprocesses : h'.processes = h.processes) (hnext : h'.nextPid = h.nextPid) :
    h.Since h' :=
  have hages {pid : Pid} : h.Ages h' pid := .of_marks hnext (by rw [marks, marks, hprocesses])
  .of_ages (Nat.le_of_eq hnext.symm) (fun _ => hages) fun _ _ _ _ => hages

theorem since_advance (h : Host) (target : Nat) : h.Since (h.advance target) := by
  fun_induction advance h target
  case case1 h hlt p hp hwake ih =>
    obtain ⟨hmem, halive⟩ := mem_of_nextProcess hp
    have hstep : h.Since { h.stepProcess p (max h.now p.wakeAt) with now := max h.now p.wakeAt + 1 } :=
      (since_stepProcess hmem halive _).trans (.of_processes rfl rfl)
    exact hstep.trans ih
  all_goals exact .of_processes rfl rfl

theorem since_start {h h' : Host} {p : Process} (hpid : p.machine.pid = h.nextPid)
    (hprocesses : h'.processes = h.processes ++ [p]) (hnext : h'.nextPid = h.nextPid + 1) :
    h.Since h' ∧ (h.Numbered → h'.Known h.nextPid) := by
  have hle : h.nextPid ≤ h'.nextPid := by rw [hnext]; exact Nat.le_succ _
  have hages {pid : Pid} (hne : pid ≠ h.nextPid) : h.Ages h' pid :=
    ⟨hle, .inl (marks_append hprocesses fun c hc => by rw [List.mem_singleton.1 hc, hpid]; exact hne.symm)⟩
  refine ⟨.of_ages hle (fun hknown => hages (Nat.ne_of_lt hknown.old)) fun _ q _ hq => ?_, fun hnumbered => ?_⟩
  · rw [hnext] at hq
    exact hages (Nat.ne_of_gt hq)
  · have hmarks : h'.marks h.nextPid = [p.alive] := by
      have hnone := marks_eq_nil_of_numbered hnumbered (Nat.le_refl h.nextPid)
      rw [marks, List.map_eq_nil_iff] at hnone
      rw [marks, hprocesses, List.filter_append, hnone]
      simp [hpid]
    exact ⟨by rw [hnext]; exact Nat.lt_succ_self _, by simp [hmarks]⟩

/-- A process that is started gets a number of its own. -/
theorem since_spawn (h : Host) (path : String) (args : List String) :
    h.Since (h.spawn path args).2 ∧ ∀ pid, (h.spawn path args).1 = .ok pid →
      pid = h.nextPid ∧ (h.Numbered → (h.spawn path args).2.Known pid) := by
  rw [spawn]
  split
  · exact ⟨.refl h, fun _ he => by cases he⟩
  split
  · exact ⟨.refl h, fun _ he => by cases he⟩
  dsimp only
  split
  · exact ⟨.refl h, fun _ he => by cases he⟩
  · refine ⟨(since_start ?_ rfl rfl).1, fun pid he => ?_⟩
    · rfl
    · cases he
      refine ⟨rfl, (since_start ?_ rfl rfl).2⟩
      rfl

end ClusterWatch.Host
