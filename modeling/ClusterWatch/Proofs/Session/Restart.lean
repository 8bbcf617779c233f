import ClusterWatch.Proofs.Bus.Traffic
import ClusterWatch.Proofs.Session.Overlap

/-!
# A restarted controller is as good as a new one

A start of a controller that rests goes on exactly like the start of a new controller in the same world, with the
same answers, events and tracker, whatever happened before. Only the number of events that were ever published
tells them apart (`Course.Reachable.start_afresh`). Outside a running session no drain has any effect.
-/

namespace ClusterWatch

open Text Time

/-! ## What is done to a session -/

/-- The drain takes items, and its output is left like this. -/
def DrainTask.take (t : DrainTask) (f : Feed) (running : Bool) (time : Instant) (items : List PipeItem)
    (output : NodeOutput) : DrainTask × Feed :=
  if t.isFinished then (t, f)
  else
    ({ t with drain := (t.drain.run f (items.map fun item => ⟨item, running, time⟩)).1, output },
      (t.drain.run f (items.map fun item => ⟨item, running, time⟩)).2)

theorem DrainTask.receive_eq_take (t : DrainTask) (f : Feed) (running : Bool) (time : Instant)
    (standard errors : List UInt8) (atEnd : Bool) :
    t.receive f running time standard errors atEnd =
      t.take f running time (t.output.receive standard errors atEnd).1
        (t.output.receive standard errors atEnd).2 := rfl

theorem Drain.node_run (d : Drain) (f : Feed) (arrivals : List Arrival) : (d.run f arrivals).1.node = d.node := by
  induction arrivals generalizing d f with
  | nil => rfl
  | cons a arrivals ih =>
    have hstep : (d.step a).1.node = d.node := by
      obtain ⟨item, running, time⟩ := a
      rw [step]
      cases d.outcome with
      | cancelled | failed => rfl
      | endOfStream =>
        cases running <;> cases item with
        | line text => dsimp only; cases Line.classify text <;> rfl
        | failure text => rfl
    exact (ih _ _).trans hstep

theorem DrainTask.source_take (t : DrainTask) (f : Feed) (running : Bool) (time : Instant) (items : List PipeItem)
    (output : NodeOutput) : (t.take f running time items output).1.source = t.source := by
  rw [take]
  split
  · rfl
  · simp only [source, Drain.node_run]

/-- What can happen to a controller and to the world of its nodes. -/
inductive SessionStep (World : Type)
  | call (id : CallId) (kind : CallKind)
  | resume (id : CallId) (timeOver : Bool)
  | time (w : World)
  /-- The drain in this place takes items. -/
  | drain (place : Nat) (time : Instant) (items : List PipeItem) (output : NodeOutput)
  | bus (step : BusStep)

namespace Course
variable {World : Type}

/-- The answers of calls, to the controller and to the bus. -/
abbrev Answers := Option CallAnswer × Option BusAnswer

def perform (s : System World) (x : Course World) : SessionStep World → Course World × Answers
  | .call id kind => ((x.call s id kind).1, (x.call s id kind).2, none)
  | .resume id timeOver => ((x.resume s id timeOver).1, (x.resume s id timeOver).2, none)
  | .time w => (x.goOn x.controller w, none, none)
  | .drain place time items output =>
    match x.controller.session.drains[place]? with
    | none => (x, none, none)
    | some t =>
      let (t, feed) := t.take x.controller.feed x.controller.running time items output
      (x.goOn { x.controller with
          feed, session := { x.controller.session with drains := x.controller.session.drains.set place t } }
        x.world, none, none)
  | .bus step =>
    let (bus, answer) := x.controller.feed.bus.perform step
    (x.goOn { x.controller with feed := { x.controller.feed with bus } } x.world, none, answer)

/-- All that is answered in the course of steps. -/
def performAll (s : System World) (x : Course World) : List (SessionStep World) → Course World × List Answers
  | [] => (x, [])
  | step :: steps =>
    ((performAll s (x.perform s step).1 steps).1,
      (x.perform s step).2 :: (performAll s (x.perform s step).1 steps).2)

end Course

/-! ## Events of earlier sessions -/

/-- The bus after so many more events, none of which is left. -/
def Bus.credit (b : Bus) (k : Nat) : Bus := { b with published := k + b.published }

namespace Bus
variable (b : Bus) (k : Nat)

theorem publish_credit (e : Event) : (b.credit k).publish e = (b.publish e).credit k := rfl

theorem resume_credit (id : CallId) :
    (b.credit k).resume id = ((b.resume id).1.credit k, (b.resume id).2) := by
  obtain ⟨queue, published, holder, waiting⟩ := b
  cases holder with
  | none => rfl
  | some held =>
    obtain ⟨other, call⟩ := held
    by_cases h : other = id
    · subst h
      cases call <;> cases queue <;> simp [resume, credit, release]
    · simp [resume, credit, h]

theorem begin_credit (id : CallId) (call : BusCall) :
    (b.credit k).begin id call = ((b.begin id call).1.credit k, (b.begin id call).2) := by
  by_cases h : b.holder = none
  · rw [begin_of_free h, begin_of_free (b := b.credit k) h]
    exact resume_credit { b with holder := some (id, call) } k id
  · rw [begin_of_held h, begin_of_held (b := b.credit k) h]
    rfl

theorem abandon_credit (id : CallId) : (b.credit k).abandon id = (b.abandon id).credit k := by
  rw [abandon, abandon]
  show (if b.holder.any (·.1 = id) then _ else _) = _
  split <;> rfl

theorem expire_credit (id : CallId) :
    (b.credit k).expire id = ((b.expire id).1.credit k, (b.expire id).2) := by
  rw [expire, expire, resume_credit]
  obtain ⟨c, _ | answer⟩ := b.resume id
  · exact congrArg (·, _) (abandon_credit c k id)
  · rfl

theorem perform_credit (step : BusStep) :
    (b.credit k).perform step = ((b.perform step).1.credit k, (b.perform step).2) := by
  cases step with
  | publish e => exact congrArg (·, none) (publish_credit b k e)
  | tryReceive =>
    obtain ⟨queue, published, holder, waiting⟩ := b
    cases holder <;> cases queue <;> rfl
  | begin id call => exact begin_credit b k id call
  | resume id => exact resume_credit b k id
  | expire id => simp only [perform, expire_credit]
  | abandon id => simp only [perform, abandon_credit]

end Bus

def Feed.credit (f : Feed) (k : Nat) : Feed := { f with bus := f.bus.credit k }

theorem Feed.perform_credit (f : Feed) (k : Nat) (action : DrainAction) :
    (f.credit k).perform action = (f.perform action).credit k := by
  cases action with
  | observe e => rfl
  | publish e => exact congrArg (fun bus => ({ f with bus } : Feed)) (f.bus.publish_credit k e)

theorem Drain.run_credit (d : Drain) (f : Feed) (k : Nat) (arrivals : List Arrival) :
    d.run (f.credit k) arrivals = ((d.run f arrivals).1, (d.run f arrivals).2.credit k) := by
  have hfold (actions : List DrainAction) (f : Feed) :
      actions.foldl .perform (f.credit k) = (actions.foldl .perform f).credit k := by
    induction actions generalizing f with
    | nil => rfl
    | cons action actions ih => rw [List.foldl_cons, f.perform_credit, ih, List.foldl_cons]
  induction arrivals generalizing d f with
  | nil => rfl
  | cons a arrivals ih => rw [run, run, hfold, ih]

theorem DrainTask.take_credit (t : DrainTask) (f : Feed) (k : Nat) (running : Bool) (time : Instant)
    (items : List PipeItem) (output : NodeOutput) :
    t.take (f.credit k) running time items output =
      ((t.take f running time items output).1, (t.take f running time items output).2.credit k) := by
  rw [take, take]
  split
  · rfl
  · rw [Drain.run_credit]

namespace Controller
variable {World : Type}

/-- The controller with a bus that has carried so many more events. -/
def credit (c : Controller) (k : Nat) : Controller := { c with feed := c.feed.credit k }

/-- The same for what a step leads to. -/
def creditStepped (r : Stepped World) (k : Nat) : Stepped World := (r.1.credit k, r.2)

variable (c : Controller) (k : Nat) (id : CallId) (w : World)

theorem changeStage_credit (source target : Stage) :
    (c.credit k).changeStage source target = (c.changeStage source target).map (credit · k) := by
  by_cases h : c.stage = source ∧ source.canBecome target = true
  · rw [changeStage, changeStage, if_pos h]
    exact if_pos h
  · rw [changeStage, changeStage, if_neg h]
    exact if_neg h

theorem tryChangeStage_credit (source target : Stage) :
    (c.credit k).tryChangeStage source target = (c.tryChangeStage source target).credit k := by
  rw [tryChangeStage, tryChangeStage, changeStage_credit]
  cases c.changeStage source target <;> rfl

theorem afterLaunch_credit (l : Launch) :
    (c.credit k).afterLaunch id w l = creditStepped (c.afterLaunch id w l) k := by
  cases l with
  | failed e =>
    have hstage := tryChangeStage_credit { c with running := false } k .starting .idle
    simp only [afterLaunch]
    exact congrArg (finish · id (.started (.error e)) w) hstage
  | launched handles =>
    simp only [afterLaunch, changeStage_credit]
    cases c.changeStage .starting .running <;> rfl
  | settling handles | failing e endings => rfl

theorem afterClear_credit (s : System World) :
    afterClear s (c.credit k) id w = creditStepped (afterClear s c id w) k := by
  rw [afterClear_eq, afterClear_eq]
  exact afterLaunch_credit { c with feed := { c.feed with tracker := .empty }, running := true } k id _ _

theorem afterBus_credit (s : System World) (bus : Bus) (answer : Option BusAnswer) :
    afterBus s (c.credit k) id w (bus.credit k, answer) = creditStepped (afterBus s c id w (bus, answer)) k := by
  cases answer with
  | none => rfl
  | some answer => exact afterClear_credit { c with feed := { c.feed with bus } } k id w s

theorem afterEnding_credit (es : List Ending) :
    (c.credit k).afterEnding id w es = creditStepped (c.afterEnding id w es) k := by
  rw [afterEnding, afterEnding]
  cases Ending.results? es with
  | none => rfl
  | some results =>
    have hstage := tryChangeStage_credit ((({ c with session := {} } : Controller).dropCall id).releaseSession) k
      .stopping .idle
    exact congrArg (fun d => ((d, w, some CallAnswer.stopped) : Stepped World)) hstage

theorem enter_credit (s : System World) (p : Phase) :
    enter s (c.credit k) id w p = creditStepped (enter s c id w p) k := by
  have hbus : afterBus s (c.credit k) id w ((c.feed.bus.credit k).begin id .clear) =
      creditStepped (afterBus s c id w (c.feed.bus.begin id .clear)) k := by
    rw [Bus.begin_credit]
    exact afterBus_credit c k id w s _ _
  cases p with
  | startOpen | startQueued => exact hbus
  | stopOpen | stopQueued =>
    exact afterEnding_credit { c with session := { c.session with nodes := none } } k id _ _
  | asking q | askQueued q => cases q <;> rfl
  | startClearing | startLaunching l | stopEnding es => rfl

/-- To ask for the session is to get it or to stand behind the others. -/
def ask (s : System World) (p : Phase) : Stepped World :=
  if c.holder.isNone then enter s { c with holder := some id } id w p
  else ({ c with queue := c.queue ++ [id] }.setPhase id (Phase.queued p), w, none)

theorem ask_credit (s : System World) (p : Phase) :
    ask (c.credit k) id w s p = creditStepped (ask c id w s p) k := by
  by_cases h : c.holder.isNone = true
  · rw [ask, ask, if_pos h]
    exact (if_pos h).trans (enter_credit { c with holder := some id } k id w s p)
  · rw [ask, ask, if_neg h]
    exact if_neg h

theorem request_credit (s : System World) (p : Phase) :
    request s (c.credit k) id w p = creditStepped (request s c id w p) k := by
  have h (d : Controller) (q : Phase) : request s d id w q =
      ask (if q = .stopOpen then { d with running := false } else d) id w s q := rfl
  rw [h, h]
  by_cases hp : p = .stopOpen
  · rw [if_pos hp, if_pos hp]
    exact ask_credit { c with running := false } k id w s p
  · rw [if_neg hp, if_neg hp]
    exact ask_credit c k id w s p

theorem step_credit (s : System World) (timeOver : Bool) :
    (c.credit k).step s id timeOver w = creditStepped (c.step s id timeOver w) k := by
  have hphase : (c.credit k).phase? id = c.phase? id := rfl
  have hqueued (p : Phase) :
      (if c.holder = some id then enter s (c.credit k) id w p else (c.credit k, w, none)) =
        creditStepped (if c.holder = some id then enter s c id w p else (c, w, none)) k := by
    split
    · exact enter_credit c k id w s p
    · rfl
  rw [step, step, hphase]
  cases c.phase? id with
  | none => rfl
  | some p =>
    cases p with
    | startOpen | stopOpen | asking q => exact request_credit c k id w s _
    | startClearing =>
      show afterBus s (c.credit k) id w ((c.feed.bus.credit k).resume id) = _
      rw [Bus.resume_credit]
      exact afterBus_credit c k id w s _ _
    | startLaunching l => exact afterLaunch_credit c k id _ _
    | stopEnding es => exact afterEnding_credit c k id _ _
    | startQueued | stopQueued | askQueued q => exact hqueued _

theorem openCall_credit (kind : CallKind) :
    (c.credit k).openCall id kind = ((c.openCall id kind).1.credit k, (c.openCall id kind).2) := by
  have hstage : (c.credit k).stage = c.stage := rfl
  cases kind with
  | start =>
    rw [openCall, openCall, openStart, openStart, changeStage_credit]
    cases c.changeStage .idle .starting <;> rfl
  | stop =>
    rw [openCall, openCall, openStop, openStop, hstage]
    cases c.stage <;> rfl
  | question q =>
    show (c.credit k).openQuestion id q = ((c.openQuestion id q).1.credit k, (c.openQuestion id q).2)
    rw [openQuestion, openQuestion, hstage]
    split <;> rfl

end Controller

namespace Course
variable {World : Type} {s : System World} {x y : Course World} {k : Nat}

/-- The first course has got as far as the second, but for so many events before. -/
structure Credited (k : Nat) (x y : Course World) : Prop where
  controller : x.controller = y.controller.credit k
  world : x.world = y.world

theorem Credited.openCall (h : Credited k x y) (id : CallId) (kind : CallKind) :
    Credited k (x.openCall id kind).1 (y.openCall id kind).1 ∧ (x.openCall id kind).2 = (y.openCall id kind).2 := by
  have hopen := y.controller.openCall_credit k id kind
  rw [← h.controller] at hopen
  obtain ⟨hcontroller, hanswer⟩ := Prod.mk.inj hopen
  exact ⟨⟨hcontroller, h.world⟩, hanswer⟩

theorem Credited.resume (h : Credited k x y) (id : CallId) (timeOver : Bool) :
    Credited k (x.resume s id timeOver).1 (y.resume s id timeOver).1 ∧
      (x.resume s id timeOver).2 = (y.resume s id timeOver).2 := by
  have hstep := y.controller.step_credit k id y.world s timeOver
  rw [← h.controller, ← h.world] at hstep
  rw [Course.resume, Course.resume, hstep, h.world]
  exact ⟨⟨rfl, rfl⟩, rfl⟩

theorem call_eq (s : System World) (x : Course World) (id : CallId) (kind : CallKind) :
    x.call s id kind = match (x.openCall id kind).2 with
      | some answer => ((x.openCall id kind).1, some answer)
      | none => (x.openCall id kind).1.resume s id false := by
  rw [Course.call]
  obtain ⟨y, _ | answer⟩ := x.openCall id kind <;> rfl

theorem Credited.call (h : Credited k x y) (id : CallId) (kind : CallKind) :
    Credited k (x.call s id kind).1 (y.call s id kind).1 ∧ (x.call s id kind).2 = (y.call s id kind).2 := by
  obtain ⟨hopen, hanswer⟩ := h.openCall id kind
  rw [call_eq, call_eq, hanswer]
  cases (y.openCall id kind).2 with
  | some answer => exact ⟨hopen, rfl⟩
  | none => exact hopen.resume id false

/-- Whatever happens, happens to both in the same way. -/
theorem Credited.perform (h : Credited k x y) (step : SessionStep World) :
    Credited k (x.perform s step).1 (y.perform s step).1 ∧ (x.perform s step).2 = (y.perform s step).2 := by
  cases step with
  | call id kind =>
    obtain ⟨hcall, hanswer⟩ := h.call (s := s) id kind
    exact ⟨hcall, congrArg (·, none) hanswer⟩
  | resume id timeOver =>
    obtain ⟨hresume, hanswer⟩ := h.resume (s := s) id timeOver
    exact ⟨hresume, congrArg (·, none) hanswer⟩
  | time w => exact ⟨⟨h.controller, rfl⟩, rfl⟩
  | drain place time items output =>
    have hdrains : x.controller.session.drains[place]? = y.controller.session.drains[place]? := by
      rw [h.controller]
      rfl
    simp only [Course.perform, hdrains]
    cases y.controller.session.drains[place]? with
    | none => exact ⟨h, rfl⟩
    | some t =>
      have htake := t.take_credit y.controller.feed k y.controller.running time items output
      refine ⟨⟨?_, h.world⟩, rfl⟩
      simp only [goOn, h.controller]
      show ({ y.controller with feed := _, session := _ } : Controller) = _
      rw [show (y.controller.credit k).feed = y.controller.feed.credit k from rfl,
        show (y.controller.credit k).running = y.controller.running from rfl, htake]
      rfl
  | bus step =>
    have hperform := y.controller.feed.bus.perform_credit k step
    have hbus : x.controller.feed.bus = y.controller.feed.bus.credit k := by
      rw [h.controller]
      rfl
    simp only [Course.perform, hbus, hperform]
    refine ⟨⟨?_, h.world⟩, trivial⟩
    simp only [goOn, h.controller]
    rfl

theorem Credited.performAll (h : Credited k x y) (steps : List (SessionStep World)) :
    Credited k (x.performAll s steps).1 (y.performAll s steps).1 ∧
      (x.performAll s steps).2 = (y.performAll s steps).2 := by
  induction steps generalizing x y with
  | nil => exact ⟨h, rfl⟩
  | cons step steps ih =>
    obtain ⟨hstep, hanswer⟩ := h.perform (s := s) step
    obtain ⟨hrest, hanswers⟩ := ih hstep
    rw [Course.performAll, Course.performAll, hanswer, hanswers]
    exact ⟨hrest, rfl⟩

end Course

/-! ## A start of a controller that rests -/

namespace Controller
variable {World : Type} {s : System World} {c : Controller} {id : CallId}

/-- A start that is alone discards what is left on the bus and in the tracker, and comes to its launch. -/
theorem step_startOpen (hcalls : c.calls = [(id, .startOpen)]) (hh : c.holder = none)
    (hbus : c.feed.bus.holder = none) (hwaiting : c.feed.bus.waiting = []) (timeOver : Bool) (w : World) :
    c.step s id timeOver w =
      { c with holder := some id, running := true,
               feed := { tracker := .empty, bus := { published := c.feed.bus.published } } }.afterLaunch id
        (firstLaunch s c.config w).2 (firstLaunch s c.config w).1 := by
  have hphase : c.phase? id = some .startOpen := by simp [phase?, hcalls]
  have hclear : c.feed.bus.begin id .clear =
      ({ published := c.feed.bus.published }, some (.cleared c.feed.bus.queue.length)) := by
    rw [Bus.begin_of_free hbus, Bus.resume_clear rfl]
    simp [Bus.release, hwaiting]
  have hask : c.step s id timeOver w = afterBus s { c with holder := some id } id w (c.feed.bus.begin id .clear) := by
    simp [step, hphase, request, hh, enter]
  rw [hask, hclear]
  exact afterClear_eq
    { c with holder := some id, feed := { c.feed with bus := { published := c.feed.bus.published } } } id w s

/-- Nothing is under way: the controller is idle, and neither it nor the bus has a call in progress. -/
structure Rests (c : Controller) : Prop where
  stage : c.stage = .idle
  calls : c.calls = []
  holder : c.feed.bus.holder = none
  waiting : c.feed.bus.waiting = []

/-- The controller with a start that has been opened. -/
def started (c : Controller) (id : CallId) : Controller := { c with stage := .starting }.addCall id .startOpen

theorem Rests.line_eq_nil (h : c.Rests) (hl : c.Lined) : c.line = [] := by
  rw [List.eq_nil_iff_forall_not_mem]
  intro a ha
  obtain ⟨p, hp, -⟩ := (hl.mem_line a).1 ha
  rw [phase?, h.calls] at hp
  cases hp

/-- The first step of a start leads to the same as that of a new controller. -/
theorem Rests.step_started (h : c.Rests) {w : World} (hcons : Consistent s c w) (id : CallId) :
    (c.started id).step s id false w =
      creditStepped ((({ config := c.config } : Controller).started id).step s id false w) c.feed.bus.published := by
  obtain ⟨hstage, hcalls, hbus, hwaiting⟩ := h
  have hline := Rests.line_eq_nil ⟨hstage, hcalls, hbus, hwaiting⟩ hcons.lined
  have hsession := hcons.staged.idle_session hstage
  obtain ⟨config, stage, running, ⟨tracker, ⟨queue, published, busHolder, waiting⟩⟩, session, holder, line, calls⟩ := c
  obtain ⟨hholder, rfl⟩ := List.append_eq_nil_iff.1 hline
  obtain rfl : holder = none := by simpa using hholder
  cases hcalls
  cases hbus
  cases hwaiting
  cases hsession
  rw [step_startOpen rfl rfl rfl rfl, step_startOpen rfl rfl rfl rfl]
  exact afterLaunch_credit { ({ config } : Controller).started id with holder := some id, running := true }
    published id _ _

end Controller

namespace Course
open Controller
variable {World : Type} {s : System World} {passes : World → World → Prop} {config : Config} {w₀ : World}
  {x : Course World}

/-- A new controller with the configuration of another one, in the world as it is now. -/
def anew (x : Course World) : Course World := ⟨{ config := x.controller.config }, x.world, []⟩

theorem call_start (hidle : x.controller.stage = .idle) (id : CallId) :
    x.call s id .start = (x.goOn (x.controller.started id) x.world).resume s id false := by
  rw [call_eq, Course.openCall, Controller.openCall, openStart, changeStage, if_pos ⟨hidle, rfl⟩]
  rfl

theorem credited_start (h : x.controller.Rests) (hcons : Consistent s x.controller x.world) (id : CallId) :
    Credited x.controller.feed.bus.published (x.call s id .start).1 (x.anew.call s id .start).1 ∧
      (x.call s id .start).2 = (x.anew.call s id .start).2 := by
  have hstep : (x.controller.started id).step s id false x.world =
      creditStepped ((x.anew.controller.started id).step s id false x.world) x.controller.feed.bus.published :=
    h.step_started hcons id
  rw [call_start h.stage, call_start (x := x.anew) rfl]
  obtain ⟨hcontroller, hrest⟩ := Prod.mk.inj hstep
  obtain ⟨hworld, hanswer⟩ := Prod.mk.inj hrest
  exact ⟨⟨hcontroller, hworld⟩, hanswer⟩

end Course

/-! ## Drains outside a running session -/

namespace Controller
variable {World : Type} {s : System World} {c : Controller} {id : CallId} {w : World}

/-- Outside a running session the drains, if there are any, have been told to end. -/
def Quiet (c : Controller) : Prop := c.session.drains ≠ [] → c.stage ≠ .running → c.running = false

theorem quiet_of_nil (h : c.session.drains = []) : c.Quiet := fun hne => absurd h hne

theorem quiet_afterLaunch (h : c.session.drains = []) (l : Launch) : Quiet (c.afterLaunch id w l).1 := by
  cases l with
  | failed e =>
    rw [afterLaunch, tryChangeStage_eq]
    exact fun _ _ => rfl
  | launched handles =>
    rw [afterLaunch, changeStage]
    by_cases hs : c.stage = .starting ∧ Stage.canBecome .starting .running = true
    · rw [if_pos hs]
      exact fun _ hne => absurd rfl hne
    · rw [if_neg hs]
      exact quiet_of_nil h
  | settling handles | failing e endings => exact quiet_of_nil h

theorem quiet_afterBus (h : c.session.drains = []) (answered : Bus × Option BusAnswer) :
    Quiet (afterBus s c id w answered).1 := by
  obtain ⟨bus, _ | answer⟩ := answered
  · exact quiet_of_nil h
  · rw [afterBus, afterClear_eq]
    exact quiet_afterLaunch (c := { c with feed := _, running := true }) h _

theorem quiet_afterEnding (h : c.Quiet) (es : List Ending) : Quiet (c.afterEnding id w es).1 := by
  rw [afterEnding]
  split
  · exact h
  · refine quiet_of_nil ?_
    dsimp only
    rw [tryChangeStage_eq]
    rfl

theorem quiet_enter_stop (h : c.Quiet) : Quiet (enter s c id w .stopQueued).1 :=
  quiet_afterEnding (c := { c with session := { c.session with nodes := none } }) h _

theorem quiet_request {p : Phase} (hp : p.isOpen = true) (h : p ≠ .stopOpen → c.Quiet)
    (hstart : p.kind = .start → c.session.drains = []) : Quiet (request s c id w p).1 := by
  cases p with
  | startOpen =>
    simp only [request, reduceCtorEq, if_false]
    split
    · exact quiet_afterBus (c := { c with holder := some id }) (hstart rfl) _
    · exact h (by simp)
  | stopOpen =>
    simp only [request, if_true]
    split
    · exact quiet_enter_stop (c := { c with running := false, holder := some id }) fun _ _ => rfl
    · exact fun _ _ => rfl
  | asking q =>
    simp only [request, reduceCtorEq, if_false]
    split <;> exact h (by simp)
  | _ => cases hp

theorem quiet_step (hcons : Consistent s c w) (h : c.phase? id ≠ some .stopOpen → c.Quiet) (timeOver : Bool) :
    Quiet (c.step s id timeOver w).1 := by
  have hstart {p : Phase} (hp : c.phase? id = some p) (hkind : p.kind = .start) : c.session.drains = [] := by
    rw [hcons.staged.start_session ⟨p, hp, hkind⟩]
  rw [step]
  cases hp : c.phase? id with
  | none => exact h (by simp [hp])
  | some p =>
    have hquiet (hne : p ≠ .stopOpen) : c.Quiet := h (by simpa [hp] using hne)
    cases p with
    | startOpen | stopOpen | asking q => exact quiet_request rfl hquiet (hstart hp)
    | startClearing => exact quiet_afterBus (hstart hp rfl) _
    | startLaunching l => exact quiet_afterLaunch (hstart hp rfl) _
    | stopEnding es => exact quiet_afterEnding (hquiet (by simp)) _
    | startQueued =>
      dsimp only
      split
      · exact quiet_afterBus (hstart hp rfl) _
      · exact hquiet (by simp)
    | stopQueued =>
      dsimp only
      split
      · exact quiet_enter_stop (hquiet (by simp))
      · exact hquiet (by simp)
    | askQueued q =>
      dsimp only
      split <;> exact hquiet (by simp)

/-- To open a call leaves the drains alone, but a stop has yet to tell them to end. -/
theorem quiet_openCall (hcons : Consistent s c w) (h : c.Quiet) (hnew : c.phase? id = none) (kind : CallKind) :
    (c.openCall id kind).1.phase? id ≠ some .stopOpen → (c.openCall id kind).1.Quiet := by
  intro hne
  cases kind with
  | start =>
    rw [openCall, openStart, changeStage]
    by_cases hidle : c.stage = .idle
    · rw [if_pos ⟨hidle, rfl⟩]
      have hdrains : c.session.drains = [] := by rw [hcons.staged.idle_session hidle]
      exact quiet_of_nil hdrains
    · rw [if_neg fun hs => hidle hs.1]
      exact h
  | stop =>
    have hopen : ({ c with stage := .stopping }.addCall id .stopOpen).phase? id = some .stopOpen :=
      (phase?_addCall (c := { c with stage := .stopping }) .stopOpen hnew id).trans (if_pos rfl)
    rw [openCall, openStop] at hne ⊢
    cases hs : c.stage with
    | idle | stopping => exact h
    | starting | running =>
      rw [hs] at hne
      exact absurd hopen hne
  | question q =>
    show (c.openQuestion id q).1.Quiet
    rw [openQuestion]
    split <;> exact h

end Controller

/-- A drain that has been told to end, or has stopped, does nothing with an item. -/
theorem Drain.step_of_not_running (d : Drain) (item : Text.PipeItem) (time : Time.Instant) :
    (d.step ⟨item, false, time⟩).2 = [] := by
  rw [step]
  cases d.outcome <;> rfl

theorem Drain.run_of_not_running (d : Drain) (f : Feed) {arrivals : List Arrival}
    (h : ∀ a ∈ arrivals, a.running = false) : (d.run f arrivals).2 = f := by
  induction arrivals generalizing d with
  | nil => rfl
  | cons a arrivals ih =>
    obtain ⟨ha, harrivals⟩ := List.forall_mem_cons.1 h
    obtain ⟨item, running, time⟩ := a
    cases ha
    rw [run, d.step_of_not_running item time]
    exact ih _ harrivals

namespace Course
open Controller
variable {World : Type} {s : System World} {passes : World → World → Prop} {config : Config} {w₀ : World}
  {x : Course World}

/-- A drain that takes items is one of the things that can happen between the steps of calls. -/
theorem Reachable.drain (hx : Reachable s passes config w₀ x) (place : Nat) (time : Time.Instant)
    (items : List Text.PipeItem) (output : NodeOutput) :
    Reachable s passes config w₀ (x.perform s (.drain place time items output)).1 := by
  rw [Course.perform]
  cases hplace : x.controller.session.drains[place]? with
  | none => exact hx
  | some t =>
    refine hx.elapses (.feed _ ?_)
    have hsource := t.source_take x.controller.feed x.controller.running time items output
    obtain ⟨hlt, rfl⟩ := List.getElem?_eq_some_iff.1 hplace
    rw [List.map_set, hsource, ← List.getElem_map DrainTask.source (h := by simpa using hlt),
      List.set_getElem_self]

theorem Reachable.quiet (laws : s.Lawful passes) (hnew : ∀ pid, s.isAlive w₀ pid = false)
    (hx : Reachable s passes config w₀ x) : x.controller.Quiet := by
  induction hx with
  | fresh => exact quiet_of_nil rfl
  | @calls x id kind hx hphase ih =>
    have hcons := hx.interleaved.1.consistent laws hnew
    rcases call_cases s hphase kind with ⟨answer, -, hcall⟩ | ⟨p, -, -, -, hcall⟩
    · rw [hcall]
      exact ih
    · rw [hcall]
      exact quiet_step (hcons.openCall hphase kind) (quiet_openCall hcons ih hphase kind) false
  | resumes id timeOver hx ih =>
    exact quiet_step (hx.interleaved.1.consistent laws hnew) (fun _ => ih) timeOver
  | elapses hx h ih =>
    cases h with
    | time => exact ih
    | feed feed hsource =>
      intro hne
      refine ih fun hnil => hne ?_
      rw [hnil] at hsource
      exact List.map_eq_nil_iff.1 hsource

/-- Outside a running session a drain takes items without any effect on the bus or the tracker. -/
theorem Reachable.feed_drain (laws : s.Lawful passes) (hnew : ∀ pid, s.isAlive w₀ pid = false)
    (hx : Reachable s passes config w₀ x) (hstage : x.controller.stage ≠ .running) (place : Nat)
    (time : Time.Instant) (items : List Text.PipeItem) (output : NodeOutput) :
    (x.perform s (.drain place time items output)).1.controller.feed = x.controller.feed := by
  rw [Course.perform]
  cases hplace : x.controller.session.drains[place]? with
  | none => rfl
  | some t =>
    have hrunning := hx.quiet laws hnew (List.ne_nil_of_mem (List.mem_of_getElem? hplace)) hstage
    show (t.take x.controller.feed x.controller.running time items output).2 = _
    rw [DrainTask.take]
    split
    · rfl
    · apply Drain.run_of_not_running
      intro a ha
      obtain ⟨item, -, rfl⟩ := List.mem_map.1 ha
      exact hrunning

/-- A start of a controller that rests goes on, whatever happens after it, like that of a new controller in the
same world: all calls answer the same, and bus and tracker are the same but for the number of events that were
ever published. In any state, a drain has an effect on them only while the session runs. -/
theorem Reachable.start_afresh (laws : s.Lawful passes) (hnew : ∀ pid, s.isAlive w₀ pid = false)
    (hx : Reachable s passes config w₀ x) :
    (x.controller.Rests → ∀ id steps,
      (x.performAll s (.call id .start :: steps)).2 = (x.anew.performAll s (.call id .start :: steps)).2 ∧
      (x.performAll s (.call id .start :: steps)).1.world = (x.anew.performAll s (.call id .start :: steps)).1.world ∧
      (x.performAll s (.call id .start :: steps)).1.controller =
        (x.anew.performAll s (.call id .start :: steps)).1.controller.credit x.controller.feed.bus.published) ∧
    (x.controller.stage ≠ .running → ∀ place time items output,
      (x.perform s (.drain place time items output)).1.controller.feed = x.controller.feed) := by
  refine ⟨fun hrests id steps => ?_, hx.feed_drain laws hnew⟩
  obtain ⟨hstart, hanswer⟩ := credited_start hrests (hx.interleaved.1.consistent laws hnew) id
  obtain ⟨hrest, hanswers⟩ := hstart.performAll (s := s) steps
  refine ⟨?_, hrest.world, hrest.controller⟩
  show ((x.call s id .start).2, none) :: _ = ((x.anew.call s id .start).2, none) :: _
  rw [hanswer]
  exact congrArg _ hanswers

/-- A session of one node is stopped with an event unread; the next one receives nothing of it. -/
theorem start_afresh_unread :
    ∃ x, Reachable System.stubborn (fun w w' => w' ⊆ w) { nodes := 1 } [] x ∧ x.controller.Rests ∧
      x.controller.feed.bus.queue.length = 1 ∧ x.controller.feed.tracker ≠ .empty ∧
      (x.performAll System.stubborn [.call 3 .start, .resume 3 true, .bus .tryReceive]).2 =
        (x.anew.performAll System.stubborn [.call 3 .start, .resume 3 true, .bus .tryReceive]).2 ∧
      (x.performAll System.stubborn [.call 3 .start, .resume 3 true, .bus .tryReceive]).1.controller =
        (x.anew.performAll System.stubborn
          [.call 3 .start, .resume 3 true, .bus .tryReceive]).1.controller.credit 1 := by
  have h₀ : Reachable System.stubborn (fun w w' => w' ⊆ w) { nodes := 1 } [] ⟨{ config := { nodes := 1 } }, [], []⟩ :=
    .fresh
  have h₁ := ((h₀.calls 1 .start rfl).resumes 1 true).drain 0 ⟨0, 0⟩
    [.line "[Node 0] Generation 3: 5 live cells".toList] {}
  have h₂ := (h₁.calls 2 .stop (by decide)).resumes 2 true
  obtain ⟨hanswers, -, hcontroller⟩ := (h₂.start_afresh System.lawful_stubborn fun _ => rfl).1
    ⟨rfl, rfl, rfl, rfl⟩ 3 [.resume 3 true, .bus .tryReceive]
  exact ⟨_, h₂, ⟨rfl, rfl, rfl, rfl⟩, by decide, by decide, hanswers, hcontroller⟩

end Course

end ClusterWatch
