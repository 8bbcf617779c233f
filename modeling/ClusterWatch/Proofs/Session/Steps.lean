import ClusterWatch.Proofs.Session.Moves

/-!
# What a step of a call keeps

A start keeps the controller consistent after its launch has gone on (`Consistent.afterLaunch`), and a stop
after its endings have (`Consistent.afterEnding`). A call that asks for the session first joins the line
(`request_eq`), so every step is one of these or a move in the line (`Consistent.step`). A stop that is
through leaves the controller cleared.
-/

namespace ClusterWatch

variable {World : Type}

namespace Controller

variable {c : Controller} {id : CallId} {p : Phase}

/-! ## After a launch and after endings -/

/-- The controller rests: it is idle, its session is empty, and no node lives. -/
def Cleared (s : System World) (c : Controller) (w : World) : Prop :=
  c.stage = .idle ∧ c.session = {} ∧ ∀ pid, s.isAlive w pid = false

/-- What a step of a call leads to: the controller is consistent, and cleared if a stop is through. -/
structure Keeps (s : System World) (c : Controller) (id : CallId) (r : Stepped World) : Prop where
  consistent : Consistent s r.1 r.2.1
  cleared : c.Busy .stop id → r.2.2.isSome = true → Cleared s r.1 r.2.1

variable {s : System World} {w : World}

theorem Staged.no_other_start (h : c.Staged) (hid : c.Busy .start id) {a : CallId} (ha : a ≠ id) :
    ¬ c.Busy .start a :=
  fun hb => ha (h.one_start hb hid)

theorem Staged.other_stop (h : c.Staged) (hid : c.Busy .start id) (hs : c.stage = .stopping) :
    ∃ a, a ≠ id ∧ c.Busy .stop a := by
  obtain ⟨a, ha⟩ := h.stopping hs
  refine ⟨a, ?_, ha⟩
  rintro rfl
  cases ha.kind_eq hid

/-- What a start keeps that has failed, when no process lives. -/
theorem Consistent.afterFailed (hl : c.Lined) (h : c.Staged) (hh : c.holder = some id)
    (hid : c.Busy .start id) (e : ClusterError) (hdead : ∀ pid, s.isAlive w pid ≠ true) :
    Consistent s (c.afterLaunch id w (.failed e)).1 w := by
  have hl' := hl.retune c.feed false
  have h' := h.retune c.feed false
  show Consistent s ((({ c with running := false }.tryChangeStage .starting .idle).dropCall
    id).releaseSession) w
  rw [tryChangeStage_eq]
  refine ⟨Lined.leave ⟨hl.nodup, hl.free, hl.mem_line, hl.inside⟩ hh,
    h'.leave hl' hh _ c.session ?_ ?_ ?_ ?_ ?_ ?_, fun ha => absurd ha (hdead _)⟩
  · exact fun a ha hb => absurd hb (h.no_other_start hid ha)
  · intro a ha hb
    have hs : c.stage = .stopping := h.stop_stage hb
    simp [hs]
  · intro hs
    split at hs
    case isTrue => cases hs
    case isFalse hne => exact absurd ⟨hs, rfl⟩ hne
  · intro hs
    split at hs
    case isTrue => cases hs
    case isFalse => exact h.other_stop hid hs
  · exact fun _ => h.start_session hid
  · intro hs
    split at hs
    case isTrue => cases hs
    case isFalse => rcases h.start_stage hid with hs' | hs' <;> exact absurd (hs'.symm.trans hs) (by simp)

/-- What a start keeps that has launched all nodes, to which every process belongs that lives. -/
theorem Consistent.afterLaunched (hl : c.Lined) (h : c.Staged) (hh : c.holder = some id)
    (hid : c.Busy .start id) {handles : List NodeHandle}
    (hlaunch : (Launch.launched handles).Ordered c.config)
    (hheld : ∀ pid, s.isAlive w pid = true → pid ∈ pidsOf handles) :
    Consistent s (c.afterLaunch id w (.launched handles)).1 w := by
  have hother {a} (ha : a ≠ id) := h.no_other_start hid ha
  rw [Controller.afterLaunch, changeStage]
  -- Either nobody has called for a stop and the session runs, or a stop is on its way and takes the nodes.
  rcases h.start_stage hid with hs | hs
  · rw [if_pos ⟨hs, rfl⟩]
    refine ⟨Lined.leave ⟨hl.nodup, hl.free, hl.mem_line, hl.inside⟩ hh,
      h.leave hl hh .running ⟨some handles, freshDrains handles⟩ ?_ ?_ ?_ ?_ ?_ ?_,
      fun ha => .inl (hheld _ ha)⟩
    · exact fun a ha hb => absurd hb (hother ha)
    · exact fun a ha hb => absurd ((h.stop_stage hb).symm.trans hs) (by simp)
    · exact fun hs => by cases hs
    · exact fun hs => by cases hs
    · exact fun hs => by cases hs
    · refine fun _ => ⟨handles, rfl, hlaunch, ?_⟩
      simp [freshDrains, DrainTask.source, Function.comp_def]
  · rw [if_neg (by simp [hs])]
    refine ⟨Lined.leave ⟨hl.nodup, hl.free, hl.mem_line, hl.inside⟩ hh,
      h.leave hl hh c.stage { c.session with nodes := some handles } ?_ ?_ ?_ ?_ ?_ ?_,
      fun ha => .inl (hheld _ ha)⟩
    · exact fun a ha hb => absurd hb (hother ha)
    · exact fun a ha hb => hs
    · exact fun hs' => absurd (hs.symm.trans hs') (by simp)
    · exact fun _ => h.other_stop hid hs
    · exact fun hs' => absurd (hs.symm.trans hs') (by simp)
    · exact fun hs' => absurd (hs.symm.trans hs') (by simp)

/-- What a start keeps when its launch has come to `l`, which holds every process that lives. -/
theorem Consistent.afterLaunch (hl : c.Lined) (h : c.Staged) (hh : c.holder = some id)
    (hp : c.phase? id = some p) (ho : p.isOpen = false) (hkind : p.kind = .start) {l : Launch}
    (hlaunch : l.Ordered c.config) (hheld : ∀ pid, s.isAlive w pid = true → pid ∈ l.pids) :
    Consistent s (c.afterLaunch id w l).1 (c.afterLaunch id w l).2.1 := by
  have hid : c.Busy .start id := ⟨p, hp, hkind⟩
  have hwait : Consistent s (c.setPhase id (.startLaunching l)) w := by
    refine ⟨hl.wait hh hp ho rfl, h.wait hl hh hp rfl hkind.symm ?_ ?_,
      fun ha => .inr ⟨id, .startLaunching l, ?_, hheld _ ha⟩⟩
    · intro es hes
      cases hes
    · intro l' hl'
      cases hl'
      exact hlaunch
    · rw [phase?_setPhase _ hp, if_pos rfl]
  cases l with
  | settling handles => exact hwait
  | failing e endings => exact hwait
  | failed e =>
    exact Consistent.afterFailed hl h hh hid e fun pid ha => List.not_mem_nil (hheld pid ha)
  | launched handles =>
    have hworld : (c.afterLaunch id w (.launched handles)).2.1 = w := by
      rw [Controller.afterLaunch]
      split <;> rfl
    rw [hworld]
    exact Consistent.afterLaunched hl h hh hid hlaunch hheld

/-- What a stop keeps when its endings have come to `es`, to which every process belongs that lives. -/
theorem Consistent.afterEnding (hl : c.Lined) (h : c.Staged) (hh : c.holder = some id)
    (hp : c.phase? id = some p) (ho : p.isOpen = false) (hkind : p.kind = .stop) (es : List Ending)
    (hnodes : c.session.nodes = none)
    (hheld : ∀ pid, s.isAlive w pid = true → pid ∈ Ending.pending es) :
    Keeps s c id (c.afterEnding id w es) := by
  have hid : c.Busy .stop id := ⟨p, hp, hkind⟩
  have hstage := h.stop_stage hid
  rw [Controller.afterEnding]
  split
  case h_1 =>
    refine ⟨⟨hl.wait hh hp ho rfl, h.wait hl hh hp rfl hkind.symm (fun _ _ => hnodes) ?_,
      fun ha => .inr ⟨id, .stopEnding es, ?_, hheld _ ha⟩⟩, fun _ ha => by cases ha⟩
    · intro l hl
      cases hl
    · rw [phase?_setPhase _ hp, if_pos rfl]
  case h_2 results hr =>
    -- Everything that lived was pending, and nothing is.
    have hdead (pid) : s.isAlive w pid = false := by
      rw [← Bool.not_eq_true]
      intro ha
      have hpending := hheld pid ha
      rw [Ending.pending_eq_nil hr] at hpending
      exact List.not_mem_nil hpending
    have heq : ((({ c with session := {} } : Controller).dropCall id).releaseSession).tryChangeStage
        .stopping .idle =
        ((({ c with stage := .idle, session := {} } : Controller).dropCall id).releaseSession) := by
      rw [tryChangeStage_eq]
      show _ = { ((({ c with session := {} } : Controller).dropCall id).releaseSession) with
        stage := .idle }
      congr 1
      exact if_pos ⟨hstage, rfl⟩
    show Keeps s c id (((({ c with session := {} } : Controller).dropCall id).releaseSession).tryChangeStage
        .stopping .idle, w, some .stopped)
    rw [heq]
    refine ⟨⟨Lined.leave ⟨hl.nodup, hl.free, hl.mem_line, hl.inside⟩ hh,
      h.leave hl hh .idle {} ?_ ?_ ?_ ?_ ?_ ?_, fun ha => ?_⟩, fun _ _ => ⟨rfl, rfl, hdead⟩⟩
    · exact fun a _ hb => absurd hb (h.no_start hl hh hid a)
    · exact fun a ha hb => absurd (h.one_stop hb hid) ha
    · exact fun hs => by cases hs
    · exact fun hs => by cases hs
    · exact fun _ => rfl
    · exact fun hs => by cases hs
    · rw [hdead] at ha
      cases ha

/-! ## With the session -/

/-- Every process that lives is held by the session or by the call that has the session. -/
theorem Consistent.held_by_holder (h : Consistent s c w) (hh : c.holder = some id)
    (hp : c.phase? id = some p) {pid : Pid} (ha : s.isAlive w pid = true) :
    pid ∈ pidsOf (c.session.nodes.getD []) ∨ pid ∈ p.pids := by
  rcases h.held ha with hs | ⟨a, q, hq, hmem⟩
  · exact .inl hs
  · have haid := h.lined.eq_holder hh hq (Phase.isInside_of_mem_pids hmem)
    rw [haid, hp] at hq
    exact .inr (Option.some.inj hq ▸ hmem)

/-- What a start keeps that finds the bus clear, when no process lives. -/
theorem Consistent.afterClear {passes : World → World → Prop} (laws : s.Lawful passes) (hl : c.Lined)
    (h : c.Staged) (hh : c.holder = some id) (hp : c.phase? id = some p) (ho : p.isOpen = false)
    (hkind : p.kind = .start) (hdead : ∀ pid, s.isAlive w pid ≠ true) :
    Consistent s (afterClear s c id w).1 (afterClear s c id w).2.1 := by
  let d : Controller := { c with feed := { c.feed with tracker := .empty }, running := true }
  have hl' : d.Lined := hl.retune _ _
  have h' : d.Staged := h.retune _ _
  rw [Controller.afterClear]
  dsimp only
  split
  case h_1 e he =>
    exact Consistent.afterLaunch (c := d) hl' h' hh hp ho hkind trivial fun pid ha => absurd ha (hdead pid)
  case h_2 hcheck =>
    refine Consistent.afterLaunch (c := d) hl' h' hh hp ho hkind ?_ fun pid ha => ?_
    · exact Launch.ordered_begin w (Config.nodes_pos_of_check hcheck)
    · exact (Launch.alive_begin laws c.config w ha).resolve_right (hdead pid)

/-- What a start keeps that waits for the bus, when no process lives. -/
theorem Consistent.afterBus {passes : World → World → Prop} (laws : s.Lawful passes) (hl : c.Lined)
    (h : c.Staged) (hh : c.holder = some id) (hp : c.phase? id = some p) (ho : p.isOpen = false)
    (hkind : p.kind = .start) (hdead : ∀ pid, s.isAlive w pid ≠ true)
    (answered : Bus × Option BusAnswer) :
    Consistent s (afterBus s c id w answered).1 (afterBus s c id w answered).2.1 := by
  obtain ⟨bus, _ | answer⟩ := answered
  case none =>
    have hl' := hl.retune { c.feed with bus } c.running
    have h' := h.retune { c.feed with bus } c.running
    exact ⟨hl'.wait hh hp ho rfl,
      h'.wait hl' hh hp rfl hkind.symm (fun _ he => by cases he) (fun _ he => by cases he),
      fun ha => absurd ha (hdead _)⟩
  case some =>
    exact Consistent.afterClear laws (hl.retune { c.feed with bus } c.running)
      (h.retune { c.feed with bus } c.running) hh hp ho hkind hdead

/-- What a call keeps that has got the session. -/
theorem Consistent.enter {passes : World → World → Prop} (laws : s.Lawful passes)
    (h : Consistent s c w) (hh : c.holder = some id) (hp : c.phase? id = some p)
    (ho : p.isOpen = false) (hi : p.isInside = false) :
    Keeps s c id (enter s c id w p) := by
  have hkind {k} (hb : c.Busy k id) : p.kind = k := by
    obtain ⟨q, hq, hk⟩ := hb
    rw [hp] at hq
    rw [Option.some.inj hq, hk]
  cases p with
  | startQueued =>
    refine ⟨Consistent.afterBus laws h.lined h.staged hh hp rfl rfl (fun pid ha => ?_) _,
      fun hb => by cases hkind hb⟩
    rcases h.held_by_holder hh hp ha with hs | hs
    · rw [h.staged.start_session ⟨_, hp, rfl⟩] at hs
      exact List.not_mem_nil hs
    · exact List.not_mem_nil hs
  | stopQueued =>
    have hb : c.Busy .stop id := ⟨_, hp, rfl⟩
    have hl' : ({ c with session := { c.session with nodes := none } } : Controller).Lined :=
      ⟨h.lined.nodup, h.lined.free, h.lined.mem_line, h.lined.inside⟩
    have hended := Consistent.afterEnding (s := s)
      (w := (Ending.forAll (Ending.begin s) w (c.session.nodes.getD [])).2) hl'
      (h.staged.takeNodes h.lined hh hb) hh hp rfl rfl
      (Ending.forAll (Ending.begin s) w (c.session.nodes.getD [])).1 rfl (fun pid ha => by
        obtain ⟨halive, hpending⟩ := Ending.alive_forAll_begin laws _ _ ha
        exact hpending ((h.held_by_holder hh hp halive).resolve_right List.not_mem_nil))
    exact ⟨hended.consistent, hended.cleared⟩
  | askQueued q =>
    refine ⟨⟨h.lined.leave hh, ?_, fun ha => .inl ?_⟩, fun hb => by cases hkind hb⟩
    · have hne {k} (hk : k ≠ .question q) {a} (ha : c.Busy k a) : a ≠ id := by
        rintro rfl
        exact hk (hkind ha).symm
      have hs := h.staged
      exact hs.leave h.lined hh c.stage c.session
        (fun a _ ha => ⟨hs.start_stage ha, hs.start_session ha⟩) (fun a _ ha => hs.stop_stage ha)
        (fun he => (hs.starting he).imp fun _ ha => ⟨hne (by simp) ha, ha⟩)
        (fun he => (hs.stopping he).imp fun _ ha => ⟨hne (by simp) ha, ha⟩)
        hs.idle_session hs.running
    · exact (h.held_by_holder hh hp ha).resolve_right List.not_mem_nil
  | startOpen | stopOpen | asking _ => cases ho
  | startClearing | startLaunching _ | stopEnding _ => cases hi

/-! ## Every step -/

theorem Consistent.retune (h : Consistent s c w) (feed : Feed) (running : Bool) :
    Consistent s { c with feed, running } w :=
  ⟨h.lined.retune feed running, h.staged.retune feed running, h.held⟩

section SetPhase

variable (s : System World) (c : Controller) (id : CallId) (w : World) (q : Phase)

/-- A call that goes on leaves its phase behind. -/
theorem finish_setPhase (answer : CallAnswer) :
    (c.setPhase id q).finish id answer w = c.finish id answer w := by
  simp only [finish]
  rw [dropCall_setPhase]

theorem afterLaunch_setPhase (l : Launch) :
    (c.setPhase id q).afterLaunch id w l = c.afterLaunch id w l := by
  cases l with
  | settling handles | failing e endings =>
    show ((c.setPhase id q).setPhase id _, w, none) = _
    rw [setPhase_setPhase]
    rfl
  | failed e =>
    simp only [afterLaunch]
    rw [tryChangeStage_eq, tryChangeStage_eq]
    exact finish_setPhase { c with running := false, stage := _ } id w q _
  | launched handles =>
    simp only [afterLaunch, changeStage]
    by_cases h : c.stage = .starting ∧ Stage.canBecome .starting .running = true
    · have h' : (c.setPhase id q).stage = .starting ∧ Stage.canBecome .starting .running = true := h
      rw [if_pos h, if_pos h']
      exact finish_setPhase { c with stage := _, session := _ } id w q _
    · have h' : ¬ ((c.setPhase id q).stage = .starting ∧ Stage.canBecome .starting .running = true) := h
      rw [if_neg h, if_neg h']
      exact finish_setPhase { c with session := _ } id w q _

theorem afterClear_setPhase :
    Controller.afterClear s (c.setPhase id q) id w = Controller.afterClear s c id w := by
  rw [afterClear_eq, afterClear_eq]
  exact afterLaunch_setPhase { c with feed := { c.feed with tracker := .empty }, running := true } id _ q _

theorem afterBus_setPhase (answered : Bus × Option BusAnswer) :
    Controller.afterBus s (c.setPhase id q) id w answered = Controller.afterBus s c id w answered := by
  obtain ⟨bus, _ | answer⟩ := answered
  case none =>
    let d : Controller := { c with feed := { c.feed with bus } }
    show ((d.setPhase id q).setPhase id _, w, none) = _
    rw [setPhase_setPhase]
    rfl
  case some => exact afterClear_setPhase s { c with feed := { c.feed with bus } } id w q

theorem afterEnding_setPhase (es : List Ending) :
    (c.setPhase id q).afterEnding id w es = c.afterEnding id w es := by
  simp only [Controller.afterEnding]
  split
  case h_1 => rw [setPhase_setPhase]
  case h_2 =>
    have hfinish := finish_setPhase { c with session := {} } id w q .stopped
    exact congrArg (fun x : Stepped World => (x.1.tryChangeStage .stopping .idle, x.2)) hfinish

/-- Entering from the line is entering at once. -/
theorem enter_queued {p : Phase} (ho : p.isOpen = true) :
    enter s (c.setPhase id (Phase.queued p)) id w (Phase.queued p) = enter s c id w p := by
  cases p with
  | startOpen => exact afterBus_setPhase s c id w _ _
  | stopOpen =>
    exact afterEnding_setPhase { c with session := { c.session with nodes := none } } id _ _ _
  | asking q => exact finish_setPhase c id w _ _
  | _ => cases ho

end SetPhase

/-- A call that asks for the session stands in the line, and if it is the first one there, it goes on
as one that has got the session. -/
theorem request_eq (s : System World) (c : Controller) (id : CallId) (w : World) (ho : p.isOpen = true) :
    request s c id w p =
      let d := ({ c with running := p ≠ .stopOpen && c.running } : Controller).join id p
      if c.holder.isNone then enter s d id w (Phase.queued p) else (d, w, none) := by
  have hd : (if p = .stopOpen then { c with running := false } else c : Controller) =
      { c with running := p ≠ .stopOpen && c.running } := by
    by_cases hp : p = .stopOpen <;> simp [hp]
  rw [request, join]
  dsimp only
  rw [hd]
  by_cases hh : c.holder.isNone
  · simp only [if_pos hh]
    exact (enter_queued s _ id w ho).symm
  · simp only [if_neg hh]

/-- What a call keeps that asks for the session. -/
theorem Consistent.request {passes : World → World → Prop} (laws : s.Lawful passes)
    (h : Consistent s c w) (hp : c.phase? id = some p) (ho : p.isOpen = true)
    (horder : Course.InOrder c id) :
    Keeps s c id (request s c id w p) := by
  let c₀ : Controller := { c with running := p ≠ .stopOpen && c.running }
  have hjoined : Consistent s (c₀.join id p) w := (h.retune c.feed _).join (c := c₀) hp ho horder
  rw [request_eq s c id w ho]
  dsimp only
  split
  case isTrue hfree =>
    have hh : (c₀.join id p).holder = some id := by
      rw [Controller.join, if_pos hfree]
      rfl
    have hphase : (c₀.join id p).phase? id = some (Phase.queued p) := by
      rw [phase?_join (c := c₀) hp, if_pos rfl]
    have hentered := hjoined.enter laws hh hphase (isOpen_queued p) (isInside_queued ho)
    exact ⟨hentered.consistent, fun hb => hentered.cleared ((busy_join (c := c₀) hp).2 hb)⟩
  case isFalse => exact ⟨hjoined, fun _ ha => by cases ha⟩

/-- What a step of a call keeps, a stop asking for the session only if no start is open. A stop that
answers leaves the controller cleared. -/
theorem Consistent.step {passes : World → World → Prop} (laws : s.Lawful passes)
    (h : Consistent s c w) (horder : Course.InOrder c id) (timeOver : Bool) :
    Keeps s c id (c.step s id timeOver w) := by
  rw [Controller.step]
  cases hp : c.phase? id with
  | none => exact ⟨h, fun _ ha => by cases ha⟩
  | some p =>
    have hkind {k} (hb : c.Busy k id) : p.kind = k := by
      obtain ⟨q, hq, hk⟩ := hb
      rw [hp] at hq
      rw [Option.some.inj hq, hk]
    have hempty (hk : p.kind = .start) : pidsOf (c.session.nodes.getD []) = [] := by
      rw [h.staged.start_session ⟨p, hp, hk⟩]
      rfl
    have hqueued (ho : p.isOpen = false) (hi : p.isInside = false) :
        Keeps s c id (if c.holder = some id then Controller.enter s c id w p else (c, w, none)) := by
      split
      case isTrue hh => exact h.enter laws hh hp ho hi
      case isFalse => exact ⟨h, fun _ ha => by cases ha⟩
    cases p with
    | startOpen | stopOpen | asking q => exact h.request laws hp rfl horder
    | startQueued | stopQueued | askQueued q => exact hqueued rfl rfl
    | startClearing =>
      have hh := h.lined.inside hp rfl
      refine ⟨Consistent.afterBus laws h.lined h.staged hh hp rfl rfl (fun pid ha => ?_) _,
        fun hb => by cases hkind hb⟩
      rcases h.held_by_holder hh hp ha with hs | hs
      · exact List.not_mem_nil (hempty rfl ▸ hs)
      · exact List.not_mem_nil hs
    | startLaunching l =>
      have hh := h.lined.inside hp rfl
      refine ⟨Consistent.afterLaunch h.lined h.staged hh hp rfl rfl
        (Launch.ordered_resume timeOver w (h.staged.launching hp)) fun pid ha => ?_,
        fun hb => by cases hkind hb⟩
      -- A process that the launch has lost would be held by nobody before.
      refine (Launch.alive_resume laws c.config timeOver w l ha).resolve_right fun hlost => ?_
      rcases h.held_by_holder hh hp hlost.1 with hs | hs
      · exact List.not_mem_nil (hempty rfl ▸ hs)
      · exact hlost.2 hs
    | stopEnding es =>
      have hh := h.lined.inside hp rfl
      have hnodes := h.staged.ending_session hp
      exact Consistent.afterEnding (s := s)
        (w := (Ending.forAll (Ending.resume s timeOver) w es).2) h.lined h.staged hh hp rfl rfl
        (Ending.forAll (Ending.resume s timeOver) w es).1 hnodes
        (fun pid ha => by
          obtain ⟨halive, hpending⟩ := Ending.alive_forAll_resume laws timeOver es w ha
          refine hpending ((h.held_by_holder hh hp halive).resolve_left fun hs => ?_)
          rw [hnodes] at hs
          exact List.not_mem_nil hs)

/-- A controller that is new in a world without nodes is consistent. -/
theorem Consistent.fresh (config : Config) (h : ∀ pid, s.isAlive w pid = false) :
    Consistent s { config } w where
  lined := ⟨List.nodup_nil, fun _ => rfl, by simp [line, phase?], by simp [phase?]⟩
  staged := by constructor <;> simp [Busy, phase?, line]
  held ha := by
    rw [h] at ha
    cases ha

/-- What happens between the steps of calls keeps the controller consistent. -/
theorem Consistent.elapses {passes : World → World → Prop} (laws : s.Lawful passes) {x y : Course World}
    (h : Consistent s x.controller x.world) (hxy : Course.Elapses passes x y) :
    Consistent s y.controller y.world := by
  cases hxy with
  | time hpasses => exact ⟨h.lined, h.staged, fun ha => h.held (laws.passes hpasses ha)⟩
  | @feed feed drains hsource =>
    have hs := h.staged
    have hempty (he : x.controller.session = {}) :
        ({ x.controller.session with drains } : Session) = {} := by
      rw [he] at hsource ⊢
      rw [List.map_eq_nil_iff.1 hsource]
    refine ⟨⟨h.lined.nodup, h.lined.free, h.lined.mem_line, h.lined.inside⟩, ?_, h.held⟩
    exact {
      one_start := hs.one_start
      one_stop := hs.one_stop
      start_stage := hs.start_stage
      stop_stage := hs.stop_stage
      starting := hs.starting
      stopping := hs.stopping
      order := hs.order
      open_order := hs.open_order
      start_session := fun ha => hempty (hs.start_session ha)
      idle_session := fun he => hempty (hs.idle_session he)
      ending_session := hs.ending_session
      running := fun hr => by
        obtain ⟨handles, hnodes, horder, hdrains⟩ := hs.running hr
        exact ⟨handles, hnodes, horder, hsource.trans hdrains⟩
      launching := hs.launching }

end Controller

end ClusterWatch
