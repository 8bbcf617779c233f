import ClusterWatch.Proofs.Session.Calls

/-!
# How calls interleave

A `Course` is a controller with the world of its nodes and the changes of its stage so far. Calls are
opened and stepped in any order, and between their steps nodes exit, drains work and consumers use the
bus (`Elapses`). `Interleaved` has opening a call and its request for the session as two steps with
others in between; a guard can restrict when a call goes on. In `Reachable` a call is opened and goes on
to its first wait without interruption.
-/

namespace ClusterWatch

variable {World : Type}

/-- Opens a call. -/
def Controller.openCall (c : Controller) (id : CallId) :
    CallKind → Controller × Option CallAnswer
  | .start => c.openStart id
  | .stop => c.openStop id
  | .question q => c.openQuestion id q

/-- The node and the process that a drain belongs to. -/
def DrainTask.source (t : DrainTask) : NodeHandle := ⟨t.drain.node, t.pid⟩

/-- A controller, the world in which its nodes run, and the changes of the stage, the last one first. -/
structure Course (World : Type) where
  controller : Controller
  world : World
  changes : List (Stage × Stage) := []

namespace Course

/-- The course goes on with this controller and this world. -/
def goOn (x : Course World) (c : Controller) (w : World) : Course World where
  controller := c
  world := w
  changes :=
    if c.stage = x.controller.stage then x.changes
    else (x.controller.stage, c.stage) :: x.changes

/-- A call is opened. -/
def openCall (x : Course World) (id : CallId) (kind : CallKind) : Course World × Option CallAnswer :=
  (x.goOn (x.controller.openCall id kind).1 x.world, (x.controller.openCall id kind).2)

/-- A call goes on to its next wait. -/
def resume (s : System World) (x : Course World) (id : CallId) (timeOver : Bool) :
    Course World × Option CallAnswer :=
  (x.goOn (x.controller.step s id timeOver x.world).1 (x.controller.step s id timeOver x.world).2.1,
    (x.controller.step s id timeOver x.world).2.2)

/-- A call is opened and goes on to its first wait without interruption. -/
def call (s : System World) (x : Course World) (id : CallId) (kind : CallKind) :
    Course World × Option CallAnswer :=
  match x.openCall id kind with
  | (x, some answer) => (x, some answer)
  | (x, none) => x.resume s id false

/-- What happens between the steps of calls: time passes in the world, and drains and consumers do
something with the bus and the tracker. -/
inductive Elapses (passes : World → World → Prop) (x : Course World) : Course World → Prop
  | time {w : World} (h : passes x.world w) : Elapses passes x (x.goOn x.controller w)
  | feed (feed : Feed) {drains : List DrainTask}
      (h : drains.map DrainTask.source = x.controller.session.drains.map DrainTask.source) :
      Elapses passes x (x.goOn
        { x.controller with feed, session := { x.controller.session with drains } } x.world)

/-- The courses of a controller whose calls are opened and go on in any order, a call only where the
guard lets it. -/
inductive Interleaved (s : System World) (passes : World → World → Prop)
    (guard : Controller → CallId → Prop) (config : Config) (w₀ : World) : Course World → Prop
  | fresh : Interleaved s passes guard config w₀ ⟨{ config }, w₀, []⟩
  | opens {x : Course World} (id : CallId) (kind : CallKind)
      (hx : Interleaved s passes guard config w₀ x) (h : x.controller.phase? id = none) :
      Interleaved s passes guard config w₀ (x.openCall id kind).1
  | resumes {x : Course World} (id : CallId) (timeOver : Bool)
      (hx : Interleaved s passes guard config w₀ x) (h : guard x.controller id) :
      Interleaved s passes guard config w₀ (x.resume s id timeOver).1
  | elapses {x y : Course World} (hx : Interleaved s passes guard config w₀ x)
      (h : Elapses passes x y) : Interleaved s passes guard config w₀ y

/-- The courses of a controller whose calls are not interrupted between their waits. -/
inductive Reachable (s : System World) (passes : World → World → Prop) (config : Config) (w₀ : World) :
    Course World → Prop
  | fresh : Reachable s passes config w₀ ⟨{ config }, w₀, []⟩
  | calls {x : Course World} (id : CallId) (kind : CallKind)
      (hx : Reachable s passes config w₀ x) (h : x.controller.phase? id = none) :
      Reachable s passes config w₀ (x.call s id kind).1
  | resumes {x : Course World} (id : CallId) (timeOver : Bool)
      (hx : Reachable s passes config w₀ x) : Reachable s passes config w₀ (x.resume s id timeOver).1
  | elapses {x y : Course World} (hx : Reachable s passes config w₀ x)
      (h : Elapses passes x y) : Reachable s passes config w₀ y

/-- No stop asks for the session while a start is open. -/
def InOrder (c : Controller) (id : CallId) : Prop :=
  c.phase? id = some .stopOpen → ∀ a, c.phase? a ≠ some .startOpen

end Course

/-! ## What a step changes -/

namespace Controller

/-- The stage is as it was, or it has changed as the table allows. -/
def Advances (before after : Stage) : Prop := after = before ∨ before.canBecome after = true

/-- From `c` to `d` a call has gone on: the stage changes as the table allows, the other calls are where
they were, and the call has asked for the session. -/
structure GoesOn (id : CallId) (c d : Controller) : Prop where
  stage : Advances c.stage d.stage
  others : ∀ a, a ≠ id → d.phase? a = c.phase? a
  asked : ∀ p, d.phase? id = some p → p.isOpen = false

theorem GoesOn.of_calls {id : CallId} {c d e : Controller} (h : GoesOn id d e) (hstage : d.stage = c.stage)
    (hcalls : d.calls = c.calls) : GoesOn id c e :=
  ⟨hstage ▸ h.stage, fun a ha => (h.others a ha).trans (phase?_congr hcalls a), h.asked⟩

theorem tryChangeStage_eq (c : Controller) (source target : Stage) :
    c.tryChangeStage source target =
      { c with stage := if c.stage = source ∧ source.canBecome target = true then target
        else c.stage } := by
  rw [tryChangeStage, changeStage]
  by_cases h : c.stage = source ∧ source.canBecome target = true
  · rw [if_pos h, if_pos h]
  · rw [if_neg h, if_neg h]

theorem calls_tryChangeStage (c : Controller) (source target : Stage) :
    (c.tryChangeStage source target).calls = c.calls := by
  rw [tryChangeStage_eq]

theorem advances_tryChangeStage (c : Controller) (source target : Stage) :
    Advances c.stage (c.tryChangeStage source target).stage := by
  rw [tryChangeStage_eq]
  dsimp only
  split
  case isTrue h => exact .inr (by rw [h.1]; exact h.2)
  case isFalse => exact .inl rfl

/-- To open a call is to have an answer at once, or to add the call. -/
theorem openCall_cases (c : Controller) (id : CallId) (kind : CallKind) :
    (∃ answer, c.openCall id kind = (c, some answer)) ∨
      ∃ stage p, p.isOpen = true ∧ p.kind = kind ∧
        c.openCall id kind = ({ c with stage }.addCall id p, none) := by
  cases kind with
  | start =>
    rw [openCall, openStart, changeStage]
    by_cases h : c.stage = .idle ∧ Stage.canBecome .idle .starting = true
    · rw [if_pos h]
      exact .inr ⟨.starting, .startOpen, rfl, rfl, rfl⟩
    · rw [if_neg h]
      exact .inl ⟨_, rfl⟩
  | stop =>
    rw [openCall, openStop]
    cases c.stage with
    | idle | stopping => exact .inl ⟨_, rfl⟩
    | starting | running => exact .inr ⟨.stopping, .stopOpen, rfl, rfl, rfl⟩
  | question q =>
    show (∃ answer, c.openQuestion id q = (c, some answer)) ∨ ∃ stage p, _ ∧ _ ∧ c.openQuestion id q = _
    rw [openQuestion]
    split
    · exact .inl ⟨_, rfl⟩
    · exact .inr ⟨c.stage, .asking q, rfl, rfl, rfl⟩

theorem advances_openCall (c : Controller) (id : CallId) (kind : CallKind) :
    Advances c.stage (c.openCall id kind).1.stage := by
  cases kind with
  | start =>
    rw [openCall, openStart, changeStage]
    by_cases h : c.stage = .idle ∧ Stage.canBecome .idle .starting = true
    · rw [if_pos h]
      exact .inr (by rw [h.1]; rfl)
    · rw [if_neg h]
      exact .inl rfl
  | stop =>
    rw [openCall, openStop]
    cases h : c.stage with
    | idle => exact .inl h
    | starting => exact .inr rfl
    | running => exact .inr rfl
    | stopping => exact .inl h
  | question q =>
    show Advances c.stage (c.openQuestion id q).1.stage
    rw [openQuestion]
    split <;> exact .inl rfl

theorem goesOn_setPhase (c : Controller) (id : CallId) {q : Phase} (hq : q.isOpen = false) :
    GoesOn id c (c.setPhase id q) where
  stage := .inl rfl
  others a ha := by
    cases hid : c.phase? id with
    | none => rw [setPhase_of_phase?_eq_none q hid]
    | some p => rw [phase?_setPhase q hid, if_neg ha]
  asked p hp := by
    cases hid : c.phase? id with
    | none =>
      rw [setPhase_of_phase?_eq_none q hid, hid] at hp
      cases hp
    | some r =>
      rw [phase?_setPhase q hid, if_pos rfl] at hp
      rw [← Option.some.inj hp, hq]

theorem goesOn_leave {c d : Controller} (id : CallId) (hstage : Advances c.stage d.stage)
    (hcalls : d.calls = c.calls) : GoesOn id c ((d.dropCall id).releaseSession) where
  stage := hstage
  others a ha := by
    rw [phase?_releaseSession, phase?_dropCall, if_neg ha]
    exact phase?_congr hcalls a
  asked p hp := by
    rw [phase?_releaseSession, phase?_dropCall, if_pos rfl] at hp
    cases hp

theorem goesOn_afterLaunch (c : Controller) (id : CallId) (w : World) (l : Launch) :
    GoesOn id c (c.afterLaunch id w l).1 := by
  cases l with
  | failed e =>
    exact goesOn_leave id (advances_tryChangeStage { c with running := false } _ _)
      (calls_tryChangeStage { c with running := false } _ _)
  | launched handles =>
    rw [afterLaunch, changeStage]
    by_cases h : c.stage = .starting ∧ Stage.canBecome .starting .running = true
    · rw [if_pos h]
      exact goesOn_leave id (.inr (by rw [h.1]; rfl)) rfl
    · rw [if_neg h]
      exact goesOn_leave id (.inl rfl) rfl
  | settling handles | failing e endings => exact goesOn_setPhase c id rfl

/-- The launch of a start, as far as it comes at once. -/
def firstLaunch (s : System World) (config : Config) (w : World) : Launch × World :=
  match config.check with
  | .error e => (.failed e, w)
  | .ok () => Launch.begin s config [] w

theorem afterClear_eq (c : Controller) (id : CallId) (w : World) (s : System World) :
    afterClear s c id w =
      { c with feed := { c.feed with tracker := .empty }, running := true }.afterLaunch id
        (firstLaunch s c.config w).2 (firstLaunch s c.config w).1 := by
  rw [afterClear, firstLaunch]
  dsimp only
  cases c.config.check <;> rfl

theorem goesOn_afterClear (s : System World) (c : Controller) (id : CallId) (w : World) :
    GoesOn id c (afterClear s c id w).1 := by
  rw [afterClear_eq]
  exact (goesOn_afterLaunch { c with feed := _, running := true } id _ _).of_calls rfl rfl

theorem goesOn_afterBus (s : System World) (c : Controller) (id : CallId) (w : World)
    (answered : Bus × Option BusAnswer) : GoesOn id c (afterBus s c id w answered).1 := by
  obtain ⟨bus, _ | answer⟩ := answered
  · exact (goesOn_setPhase { c with feed := { c.feed with bus } } id rfl).of_calls rfl rfl
  · exact (goesOn_afterClear s { c with feed := { c.feed with bus } } id w).of_calls rfl rfl

theorem goesOn_afterEnding (c : Controller) (id : CallId) (w : World) (es : List Ending) :
    GoesOn id c (c.afterEnding id w es).1 := by
  rw [afterEnding]
  split
  · exact goesOn_setPhase c id rfl
  · have hleave := goesOn_leave (c := c) (d := { c with session := {} }) id (.inl rfl) rfl
    have hcalls := calls_tryChangeStage ((({ c with session := {} } : Controller).dropCall id).releaseSession)
      .stopping .idle
    exact {
      stage := advances_tryChangeStage ((({ c with session := {} } : Controller).dropCall id).releaseSession)
        .stopping .idle
      others := fun a ha => (phase?_congr hcalls a).trans (hleave.others a ha)
      asked := fun p hp => hleave.asked p ((phase?_congr hcalls id).symm.trans hp) }

theorem goesOn_enter (s : System World) (c : Controller) (id : CallId) (w : World) {p : Phase}
    (hp : p.isInside = false) : GoesOn id c (enter s c id w p).1 := by
  cases p with
  | startOpen | startQueued => exact goesOn_afterBus s c id w _
  | stopOpen | stopQueued => exact (goesOn_afterEnding _ id _ _).of_calls rfl rfl
  | asking q | askQueued q => exact goesOn_leave id (.inl rfl) rfl
  | startClearing | startLaunching _ | stopEnding _ => cases hp

theorem goesOn_request (s : System World) (c : Controller) (id : CallId) (w : World) {p : Phase}
    (hp : p.isOpen = true) : GoesOn id c (request s c id w p).1 := by
  have hi : p.isInside = false := by
    cases p <;> first | rfl | exact absurd hp Bool.false_ne_true
  have h (d : Controller) : GoesOn id d
      (if d.holder.isNone then enter s { d with holder := some id } id w p
        else ({ d with queue := d.queue ++ [id] }.setPhase id (Phase.queued p), w, none)).1 := by
    split
    · exact (goesOn_enter s { d with holder := some id } id w hi).of_calls rfl rfl
    · exact (goesOn_setPhase { d with queue := d.queue ++ [id] } id (isOpen_queued p)).of_calls rfl rfl
  rw [request]
  by_cases hp : p = .stopOpen
  · simp only [if_pos hp]
    exact (h { c with running := false }).of_calls rfl rfl
  · simp only [if_neg hp]
    exact h c

/-- A step concerns one call. -/
theorem goesOn_step (s : System World) (c : Controller) (id : CallId) (timeOver : Bool) (w : World) :
    GoesOn id c (c.step s id timeOver w).1 := by
  have hstays {p : Phase} (hp : c.phase? id = some p) (ho : p.isOpen = false) : GoesOn id c c :=
    ⟨.inl rfl, fun _ _ => rfl, fun q hq => by rwa [← Option.some.inj (hp.symm.trans hq)]⟩
  rw [step]
  cases hp : c.phase? id with
  | none => exact ⟨.inl rfl, fun _ _ => rfl, fun q hq => by rw [hp] at hq; cases hq⟩
  | some p =>
    cases p with
    | startOpen | stopOpen | asking q => exact goesOn_request s c id w rfl
    | startClearing => exact goesOn_afterBus s c id w _
    | startLaunching l => exact goesOn_afterLaunch c id _ _
    | stopEnding es => exact goesOn_afterEnding c id _ _
    | startQueued | stopQueued | askQueued q =>
      dsimp only
      split
      · exact goesOn_enter s c id w rfl
      · exact hstays hp rfl

end Controller

namespace Course

/-- Every change of the stage so far is allowed. -/
def Allowed (x : Course World) : Prop :=
  ∀ change ∈ x.changes, change.1.canBecome change.2 = true

theorem Allowed.goOn {x : Course World} (hx : x.Allowed) {c : Controller} {w : World}
    (h : Controller.Advances x.controller.stage c.stage) : (x.goOn c w).Allowed := by
  rw [Allowed, Course.goOn]
  dsimp only
  split
  case isTrue => exact hx
  case isFalse hne =>
    intro change hchange
    rcases List.mem_cons.1 hchange with rfl | hchange
    · exact h.resolve_left hne
    · exact hx change hchange

/-- Whatever the order of the steps, the stage changes as the table allows. -/
theorem Interleaved.allowed {s : System World} {passes : World → World → Prop}
    {guard : Controller → CallId → Prop} {config : Config} {w₀ : World} {x : Course World}
    (hx : Interleaved s passes guard config w₀ x) : x.Allowed := by
  induction hx with
  | fresh =>
    intro change hchange
    exact absurd hchange List.not_mem_nil
  | opens id kind hx h ih => exact ih.goOn (Controller.advances_openCall _ _ _)
  | resumes id timeOver hx h ih => exact ih.goOn (Controller.goesOn_step _ _ _ _ _).stage
  | elapses hx h ih =>
    cases h with
    | time => exact ih.goOn (.inl rfl)
    | feed => exact ih.goOn (.inl rfl)

end Course

end ClusterWatch
