import ClusterWatch.Follow
import ClusterWatch.Proofs.Drain.Crew
import ClusterWatch.Proofs.Session.Restart

/-!
# A follower sees the whole session

A follower is the only consumer of a running session. Nodes exit, drains read and publish, and the follower goes
on, all in any order. When the follower is through, it has shown every event that was published, and nothing is
left (`Vigil.seen_run`): the drains were finished when it asked, so what was published by then was on the bus.
-/

namespace ClusterWatch

open Text Time

/-- An action of a drain publishes its event, if any, and does nothing else to the bus. -/
theorem Feed.bus_perform (f : Feed) (action : DrainAction) :
    (f.perform action).bus =
      { f.bus with
        queue := f.bus.queue ++ action.published?.toList
        published := f.bus.published + action.published?.toList.length } := by
  cases action with
  | observe e => simp [Feed.perform, DrainAction.published?]
  | publish e => rfl

/-- The session runs, and no call has it or waits for it. -/
structure Controller.Free (c : Controller) : Prop where
  stage : c.stage = .running
  calls : c.calls = []
  holder : c.holder = none
  queue : c.queue = []

theorem Controller.Free.congr {c d : Controller} (h : c.Free) (hstage : d.stage = c.stage) (hcalls : d.calls = c.calls)
    (hholder : d.holder = c.holder) (hqueue : d.queue = c.queue) : d.Free where
  stage := hstage.trans h.stage
  calls := hcalls.trans h.calls
  holder := hholder.trans h.holder
  queue := hqueue.trans h.queue

/-- A question is answered at once when nobody has the session, and changes nothing. -/
theorem Course.call_question {World : Type} {s : System World} {x : Course World} (h : x.controller.Free) (id : CallId)
    (q : Question) : x.call s id (.question q) = (x, some (x.controller.reply s x.world q)) := by
  obtain ⟨⟨config, stage, running, feed, session, holder, queue, calls⟩, w, changes⟩ := x
  obtain ⟨rfl, rfl, rfl, rfl⟩ := h
  cases q <;>
    simp [Course.call, Course.openCall, Controller.openCall, Controller.openQuestion, Controller.addCall, Course.resume,
      Controller.step, Controller.phase?, Controller.request, Controller.enter, Controller.finish, Controller.dropCall,
      Controller.releaseSession, Controller.reply, Course.goOn]

/-! ## A session and its follower -/

/-- A running session and its follower, with the `receive` that the follower waits for, and with all that was
published so far. A drain has actions due when it has taken an item and not yet done with it. -/
structure Vigil (World : Type) where
  course : Course World
  due : Nat → List DrainAction := fun _ => []
  follower : Follower := {}
  waiting : Option CallId := none
  published : List Event := []

/-- One step of the world, of the drain in a place, or of the follower. -/
inductive VigilStep (World : Type)
  | time (w : World)
  | read (place : Nat) (item : PipeItem) (time : Instant)
  | act (place : Nat)
  /-- The output that the drain reads stands like this, perhaps at its end. -/
  | output (place : Nat) (output : NodeOutput)
  | follow (id : CallId)
  /-- The time of the `receive` is over. -/
  | expire

namespace Vigil

variable {World : Type} {s : System World} {v : Vigil World} {k : Nat}

def drains (v : Vigil World) : List DrainTask := v.course.controller.session.drains

def bus (v : Vigil World) : Bus := v.course.controller.feed.bus

def setDrain (v : Vigil World) (place : Nat) (t : DrainTask) : Vigil World :=
  let session := { v.course.controller.session with drains := v.drains.set place t }
  { v with course := v.course.goOn { v.course.controller with session } v.course.world }

def setFeed (v : Vigil World) (feed : Feed) : Vigil World :=
  { v with course := v.course.goOn { v.course.controller with feed } v.course.world }

def setBus (v : Vigil World) (bus : Bus) : Vigil World := v.setFeed { v.course.controller.feed with bus }

def tell (v : Vigil World) (input : FollowInput) : Vigil World := { v with follower := v.follower.step input }

/-- A `receive` goes on: it has an answer for the follower, or the follower waits for it. -/
def await (v : Vigil World) (call : CallId) : Bus × Option BusAnswer → Vigil World
  | (bus, some answer) => { (v.setBus bus).tell (.received (Watch.eventOf answer)) with waiting := none }
  | (bus, none) => { v.setBus bus with waiting := some call }

/-- The follower asks something of the session. -/
def ask (s : System World) (v : Vigil World) (id : CallId) (q : Question) (input : Bool → FollowInput) :
    Vigil World :=
  match v.course.call s id (.question q) with
  | (course, some answer) => { v with course }.tell (input answer.isTrue)
  | (course, none) => { v with course }

def follow (s : System World) (v : Vigil World) (id : CallId) : Vigil World :=
  match v.follower.phase with
  | .receiving =>
    match v.waiting with
    | none => v.await id (v.bus.begin id .receive)
    | some call => v.await call (v.bus.resume call)
  | .askingRunning => v.ask s id .isRunning .running
  | .askingDrains => v.ask s id .drainsFinished .drained
  | .taking =>
    match v.bus.tryTake? with
    | some (e, bus) => (v.setBus bus).tell (.taken (some e))
    | none => v.tell (.taken none)
  | .finished => v

/-- The drain in a place takes an item, unless it is still busy with the last one or at its end. -/
def read (v : Vigil World) (place : Nat) (item : PipeItem) (time : Instant) : Vigil World :=
  match v.drains[place]? with
  | none => v
  | some t =>
    if v.due place = [] ∧ t.isFinished = false then
      let (drain, due) := t.drain.step ⟨item, v.course.controller.running, time⟩
      { v.setDrain place { t with drain } with due := Function.update v.due place due }
    else v

/-- The drain in a place performs the next action that is due. -/
def act (v : Vigil World) (place : Nat) : Vigil World :=
  match v.due place with
  | [] => v
  | action :: due =>
    { v.setFeed (v.course.controller.feed.perform action) with
      due := Function.update v.due place due
      published := v.published ++ action.published?.toList }

/-- The output of the drain in a place has come this far, and the drain has done with all items. -/
def output (v : Vigil World) (place : Nat) (output : NodeOutput) : Vigil World :=
  match v.drains[place]? with
  | none => v
  | some t => if v.due place = [] ∧ t.isFinished = false then v.setDrain place { t with output } else v

def step (s : System World) (v : Vigil World) : VigilStep World → Vigil World
  | .time w => { v with course := v.course.goOn v.course.controller w }
  | .read place item time => v.read place item time
  | .act place => v.act place
  | .output place output => v.output place output
  | .follow id => v.follow s id
  | .expire =>
    match v.follower.phase, v.waiting with
    | .receiving, some call => v.await call ((v.bus.expire call).1, some (v.bus.expire call).2)
    | _, _ => v

def run (s : System World) (v : Vigil World) (steps : List (VigilStep World)) : Vigil World :=
  steps.foldl (step s) v

/-! ## What is kept -/

/-- The figures of events. -/
def figures (events : List Event) : ClusterStats := events.foldl (fun stats e => stats.apply e.toReport) .empty

/-- What every step keeps, when the bus has carried `k` events before. -/
structure Kept (k : Nat) (v : Vigil World) : Prop where
  free : v.course.controller.Free
  /-- Nobody but the follower uses the receiving end. -/
  waiting : v.bus.waiting = []
  holder : v.bus.holder = v.waiting.map (·, .receive)
  receiving : v.waiting ≠ none → v.follower.phase = .receiving
  account : v.follower.shown ++ v.bus.queue = v.published
  count : v.bus.published = k + v.published.length
  stats : v.follower.stats = figures v.follower.shown
  /-- A drain with actions due is not finished. -/
  busy : ∀ place, v.due place ≠ [] → ∃ t, v.drains[place]? = some t ∧ t.isFinished = false
  /-- The follower takes what is left when all drains are finished. -/
  done : v.follower.phase = .taking ∨ v.follower.phase = .finished → ∀ t ∈ v.drains, t.isFinished = true
  emptied : v.follower.phase = .finished → v.bus.queue = []

theorem figures_concat (events : List Event) (e : Event) :
    figures (events ++ [e]) = (figures events).apply e.toReport := by
  rw [figures, List.foldl_append]
  rfl

namespace Kept

/-- The follower waits for an event. -/
theorem waits (h : Kept k v) (hphase : v.follower.phase = .receiving) (call : CallId) :
    Kept k { v.setBus { v.bus with holder := some (call, .receive) } with waiting := some call } :=
  { h with
    free := h.free.congr rfl rfl rfl rfl
    holder := rfl
    receiving := fun _ => hphase }

/-- The follower is shown the first event of the bus. -/
theorem shows (h : Kept k v) {input : FollowInput} {e : Event} {rest : List Event}
    (hstep : v.follower.step input = v.follower.present e) (hqueue : v.bus.queue = e :: rest)
    {waiting : Option CallId} (hwaiting : waiting = none) :
    Kept k { (v.setBus { v.bus with queue := rest, holder := none }).tell input with waiting } := by
  have hkept : Kept k { v.setBus { v.bus with queue := rest, holder := none } with
      follower := v.follower.present e, waiting } := { h with
    free := h.free.congr rfl rfl rfl rfl
    holder := by
      rw [hwaiting]
      rfl
    receiving := fun hne => absurd hwaiting hne
    account := by
      show (v.follower.shown ++ [e]) ++ rest = v.published
      rw [List.append_assoc, ← h.account, hqueue]
      rfl
    stats := (congrArg (·.apply e.toReport) h.stats).trans (figures_concat _ e).symm
    emptied := fun hphase => by
      have hempty := h.emptied hphase
      rw [hqueue] at hempty
      cases hempty }
  rw [← hstep] at hkept
  exact hkept

/-- The follower does not wait any longer. -/
theorem leaves (h : Kept k v) : Kept k { v.setBus { v.bus with holder := none } with waiting := none } :=
  { h with
    free := h.free.congr rfl rfl rfl rfl
    holder := rfl
    receiving := fun hne => absurd rfl hne }

/-- The follower goes on to another phase without being shown an event. -/
theorem turns (h : Kept k v) {input : FollowInput} {phase : FollowPhase}
    (hstep : v.follower.step input = { v.follower with phase }) (hwaiting : v.waiting = none)
    (hdone : phase = .taking ∨ phase = .finished → ∀ t ∈ v.drains, t.isFinished = true)
    (hempty : phase = .finished → v.bus.queue = []) : Kept k (v.tell input) := by
  have hkept : Kept k { v with follower := { v.follower with phase } } :=
    { h with
      receiving := fun hne => absurd hwaiting hne
      done := hdone
      emptied := hempty }
  rw [← hstep] at hkept
  exact hkept

/-- What comes of a `receive` that holds the receiving end, when it goes on and when its time is over. -/
theorem await (h : Kept k v) (hphase : v.follower.phase = .receiving) {b : Bus} {call : CallId}
    (hb : b = { v.bus with holder := some (call, .receive) }) :
    Kept k (v.await call (b.resume call)) ∧ Kept k (v.await call ((b.expire call).1, some (b.expire call).2)) := by
  have hholder : b.holder = some (call, .receive) := by rw [hb]
  have hwaiting : v.bus.waiting = [] := h.waiting
  cases hqueue : v.bus.queue with
  | nil =>
    have hresume : b.resume call = (b, none) := Bus.resume_receive_nil hholder (by rw [hb]; exact hqueue)
    have hexpire : b.expire call = ({ v.bus with holder := none }, .received none) := by
      rw [Bus.expire_of_none (by rw [hresume]), hresume, hb]
      simp [Bus.abandon, Bus.release, hwaiting]
    constructor
    · rw [hresume, hb]
      exact h.waits hphase call
    · have hturn : v.follower.step (.received none) = { v.follower with phase := .askingRunning } := by
        simp [Follower.step, hphase]
      rw [hexpire]
      exact h.leaves.turns hturn rfl (by simp) (by simp)
  | cons e rest =>
    have hresume : b.resume call = ({ v.bus with queue := rest, holder := none }, some (.received (some e))) := by
      rw [Bus.resume_receive_cons hholder (show b.queue = e :: rest by rw [hb]; exact hqueue), hb]
      simp [Bus.release, hwaiting]
    have hexpire : b.expire call = ((b.resume call).1, .received (some e)) :=
      Bus.expire_of_answer (by rw [hresume])
    have hshow : v.follower.step (.received (some e)) = v.follower.present e := by
      simp [Follower.step, hphase]
    constructor
    · rw [hresume]
      exact h.shows hshow hqueue rfl
    · rw [hexpire, hresume]
      exact h.shows hshow hqueue rfl

theorem held (h : Kept k v) {call : CallId} (hcall : v.waiting = some call) :
    v.bus = { v.bus with holder := some (call, .receive) } := by
  have hholder : v.bus.holder = some (call, .receive) := by
    rw [h.holder, hcall]
    rfl
  rw [← hholder]

/-- A question is answered at once. -/
theorem ask_eq (h : Kept k v) (id : CallId) (q : Question) (input : Bool → FollowInput) :
    v.ask s id q input = v.tell (input (v.course.controller.reply s v.course.world q).isTrue) := by
  rw [Vigil.ask, Course.call_question h.free]

theorem follow (h : Kept k v) (id : CallId) : Kept k (v.follow s id) := by
  have hidle (hne : v.follower.phase ≠ .receiving) : v.waiting = none := not_imp_comm.1 h.receiving hne
  rw [Vigil.follow]
  cases hphase : v.follower.phase with
  | receiving =>
    cases hcall : v.waiting with
    | none =>
      have hholder : v.bus.holder = none := by rw [h.holder, hcall]; rfl
      dsimp only
      rw [Bus.begin_of_free hholder]
      exact (h.await hphase rfl).1
    | some call => exact (h.await hphase (h.held hcall)).1
  | askingRunning =>
    have hturn (b : Bool) : v.follower.step (.running b) =
        { v.follower with phase := if b then .receiving else .askingDrains } := by
      simp [Follower.step, hphase]
    dsimp only
    rw [h.ask_eq]
    refine h.turns (hturn _) (hidle (by simp [hphase])) ?_ ?_ <;> split <;> simp
  | askingDrains =>
    have hturn (b : Bool) : v.follower.step (.drained b) =
        { v.follower with phase := if b then .taking else .receiving } := by
      simp [Follower.step, hphase]
    dsimp only
    rw [h.ask_eq]
    refine h.turns (hturn _) (hidle (by simp [hphase])) ?_ ?_
    · split
      case isTrue hall => exact fun _ => List.all_eq_true.1 hall
      case isFalse => simp
    · split <;> simp
  | taking =>
    have hwaiting := hidle (by simp [hphase])
    have hholder : v.bus.holder = none := by rw [h.holder, hwaiting]; rfl
    cases hqueue : v.bus.queue with
    | nil =>
      have htake : v.bus.tryTake? = none := by simp [Bus.tryTake?, hholder, hqueue]
      have hturn : v.follower.step (.taken none) = { v.follower with phase := .finished } := by
        simp [Follower.step, hphase]
      dsimp only
      rw [htake]
      exact h.turns hturn hwaiting (fun _ => h.done (.inl hphase)) fun _ => hqueue
    | cons e rest =>
      have htake : v.bus.tryTake? = some (e, { v.bus with queue := rest, holder := none }) := by
        simp [Bus.tryTake?, hholder, hqueue]
      have hshow : v.follower.step (.taken (some e)) = v.follower.present e := by
        simp [Follower.step, hphase]
      dsimp only
      rw [htake]
      exact h.shows hshow hqueue hwaiting
  | finished => exact h

/-- While a drain is not finished, the follower does not yet take what is left. -/
theorem early (h : Kept k v) {t : DrainTask} (ht : t ∈ v.drains) (hopen : t.isFinished = false) :
    ¬ (v.follower.phase = .taking ∨ v.follower.phase = .finished) := fun hphase =>
  absurd (h.done hphase t ht) (by simp [hopen])

/-- A drain that is not finished stands differently, perhaps with other actions due. -/
theorem setDrain (h : Kept k v) {place : Nat} {t t' : DrainTask} (hplace : v.drains[place]? = some t)
    (hopen : t.isFinished = false) {due : Nat → List DrainAction}
    (hothers : ∀ other, other ≠ place → due other = v.due other) (hbusy : due place ≠ [] → t'.isFinished = false) :
    Kept k { v.setDrain place t' with due } :=
  { h with
    free := h.free.congr rfl rfl rfl rfl
    busy := fun other hdue => by
      by_cases hother : other = place
      · subst hother
        exact ⟨t', List.getElem?_set_self (List.getElem?_eq_some_iff.1 hplace).1, hbusy hdue⟩
      · obtain ⟨u, hu, hopen'⟩ := h.busy other (hothers other hother ▸ hdue)
        exact ⟨u, (List.getElem?_set_ne (Ne.symm hother)).trans hu, hopen'⟩
    done := fun hphase => absurd hphase (h.early (List.mem_of_getElem? hplace) hopen) }

theorem read (h : Kept k v) (place : Nat) (item : PipeItem) (time : Instant) : Kept k (v.read place item time) := by
  rw [Vigil.read]
  cases hplace : v.drains[place]? with
  | none => exact h
  | some t =>
    dsimp only
    split
    case isFalse => exact h
    case isTrue hready =>
      exact h.setDrain hplace hready.2 (fun _ hother => Function.update_of_ne hother ..) fun _ => hready.2

theorem output (h : Kept k v) (place : Nat) (output : NodeOutput) : Kept k (v.output place output) := by
  rw [Vigil.output]
  cases hplace : v.drains[place]? with
  | none => exact h
  | some t =>
    dsimp only
    split
    case isFalse => exact h
    case isTrue hready => exact h.setDrain hplace hready.2 (fun _ _ => rfl) fun hdue => absurd hready.1 hdue

theorem act (h : Kept k v) (place : Nat) : Kept k (v.act place) := by
  rw [Vigil.act]
  cases hdue : v.due place with
  | nil => exact h
  | cons action rest =>
    obtain ⟨t, ht, hopen⟩ := h.busy place (by simp [hdue])
    have hearly := h.early (List.mem_of_getElem? ht) hopen
    have hbus := v.course.controller.feed.bus_perform action
    exact { h with
      free := h.free.congr rfl rfl rfl rfl
      waiting := (congrArg Bus.waiting hbus).trans h.waiting
      holder := (congrArg Bus.holder hbus).trans h.holder
      account := by
        show v.follower.shown ++ (v.course.controller.feed.perform action).bus.queue =
          v.published ++ action.published?.toList
        rw [hbus, ← h.account, List.append_assoc]
        rfl
      count := by
        show (v.course.controller.feed.perform action).bus.published =
          k + (v.published ++ action.published?.toList).length
        rw [hbus, List.length_append, ← Nat.add_assoc, ← h.count]
        rfl
      busy := fun other hdue' => by
        by_cases hother : other = place
        · subst hother
          exact ⟨t, ht, hopen⟩
        · exact h.busy other (Function.update_of_ne hother _ v.due ▸ hdue')
      done := fun hphase => absurd hphase hearly
      emptied := fun hphase => absurd (.inr hphase) hearly }

theorem time (h : Kept k v) (w : World) : Kept k { v with course := v.course.goOn v.course.controller w } :=
  { h with }

theorem step (h : Kept k v) (step : VigilStep World) : Kept k (v.step s step) := by
  cases step with
  | time w => exact h.time w
  | read place item time => exact h.read place item time
  | act place => exact h.act place
  | output place output => exact h.output place output
  | follow id => exact h.follow id
  | expire =>
    rw [Vigil.step]
    split
    case h_1 call hphase hcall => exact (h.await hphase (h.held hcall)).2
    case h_2 => exact h

theorem run (h : Kept k v) (steps : List (VigilStep World)) : Kept k (v.run s steps) := by
  induction steps generalizing v with
  | nil => exact h
  | cons step steps ih => exact ih (h.step step)

/-- At the beginning nothing is kept on the bus. -/
theorem start {x : Course World} (h : x.controller.Free) (hbus : x.controller.feed.bus = { published := k }) :
    Kept k ({ course := x } : Vigil World) where
  free := h
  waiting := congrArg Bus.waiting hbus
  holder := congrArg Bus.holder hbus
  receiving hne := absurd rfl hne
  account := congrArg Bus.queue hbus
  count := congrArg Bus.published hbus
  stats := rfl
  busy _ hne := absurd rfl hne
  done hphase := by rcases hphase with h | h <;> cases h
  emptied hphase := nomatch hphase

end Kept

end Vigil

/-! ## The start before -/

namespace Controller
variable {World : Type} {s : System World} {c : Controller} {id : CallId} {k : Nat}

/-- A start is the only call, and has the session; it is in this phase. -/
structure Launching (id : CallId) (k : Nat) (p : Phase) (c : Controller) : Prop where
  stage : c.stage = .starting
  calls : c.calls = [(id, p)]
  queue : c.queue = []
  holder : c.holder = some id
  bus : c.feed.bus = { published := k }

/-- How it stands with the controller and its start after an answer. -/
structure Launched (id : CallId) (k : Nat) (c : Controller) (answer : Option CallAnswer) : Prop where
  going : answer = none → ∃ l, Launching id k (.startLaunching l) c
  through : answer = some (.started (.ok ())) → c.Free ∧ c.feed.bus = { published := k }

theorem Launching.setPhase {p : Phase} (h : Launching id k p c) (q : Phase) : Launching id k q (c.setPhase id q) where
  stage := h.stage
  calls := by simp [Controller.setPhase, h.calls]
  queue := h.queue
  holder := h.holder
  bus := h.bus

theorem Launching.afterLaunch {p : Phase} (h : Launching id k p c) (w : World) (l : Launch) :
    Launched id k (c.afterLaunch id w l).1 (c.afterLaunch id w l).2.2 := by
  have hcalls : (c.calls.filter (·.1 ≠ id)) = [] := by simp [h.calls]
  cases l with
  | failed e => constructor <;> rintro ⟨⟩
  | launched handles =>
    rw [Controller.afterLaunch, changeStage, if_pos ⟨h.stage, rfl⟩]
    exact {
      going := by rintro ⟨⟩
      through := fun _ => ⟨⟨rfl, hcalls, congrArg List.head? h.queue, congrArg List.tail h.queue⟩, h.bus⟩ }
  | settling handles | failing e endings =>
    exact ⟨fun _ => ⟨_, h.setPhase _⟩, by rintro ⟨⟩⟩

end Controller

namespace Course
open Controller
variable {World : Type} {s : System World} {id : CallId} {x y : Course World} {answer : Option CallAnswer}

/-- A start that nothing happens beside, but that time passes: how far it comes, and its answer when it is through. -/
inductive Starts (s : System World) (id : CallId) (x : Course World) : Course World → Option CallAnswer → Prop
  | calls : Starts s id x (x.call s id .start).1 (x.call s id .start).2
  | time {y : Course World} {answer : Option CallAnswer} (h : Starts s id x y answer) (w : World) :
      Starts s id x (y.goOn y.controller w) answer
  | resumes {y : Course World} {answer : Option CallAnswer} (h : Starts s id x y answer) (hgoing : answer = none)
      (timeOver : Bool) : Starts s id x (y.resume s id timeOver).1 (y.resume s id timeOver).2

theorem Starts.launched (hrests : x.controller.Rests) (hlined : x.controller.Lined) (h : Starts s id x y answer) :
    Launched id x.controller.feed.bus.published y.controller answer := by
  induction h with
  | calls =>
    obtain ⟨hholder, hqueue⟩ := List.append_eq_nil_iff.1 (hrests.line_eq_nil hlined)
    have hfree : x.controller.holder = none := by simpa using hholder
    have hopen : (x.controller.started id).calls = [(id, .startOpen)] := by
      simp [Controller.started, addCall, hrests.calls]
    rw [call_start hrests.stage]
    show Launched _ _ (Controller.step s (x.controller.started id) id false x.world).1
      (Controller.step s (x.controller.started id) id false x.world).2.2
    rw [step_startOpen hopen hfree hrests.holder hrests.waiting]
    apply Launching.afterLaunch
    exact ⟨rfl, hopen, hqueue, rfl, rfl⟩
  | time h w ih => exact ih
  | @resumes y answer h hgoing timeOver ih =>
    obtain ⟨l, hl⟩ := ih.going hgoing
    have hphase : y.controller.phase? id = some (.startLaunching l) := by simp [phase?, hl.calls]
    have hstep : Controller.step s y.controller id timeOver y.world = y.controller.afterLaunch id
        (Launch.resume s y.controller.config [] timeOver y.world l).2
        (Launch.resume s y.controller.config [] timeOver y.world l).1 := by
      rw [Controller.step, hphase]
    show Launched _ _ (Controller.step s y.controller id timeOver y.world).1
      (Controller.step s y.controller id timeOver y.world).2.2
    rw [hstep]
    exact hl.afterLaunch _ _

end Course

/-! ## The whole session -/

namespace Vigil
variable {World : Type} {s : System World} {passes : World → World → Prop} {config : Config} {w₀ : World}
  {x y : Course World} {id : CallId}

/-- The follower has seen all that was published after the first `k` events, and nothing is left. -/
structure Seen (k : Nat) (v : Vigil World) : Prop where
  shown : v.follower.shown = v.published
  queue : v.bus.queue = []
  stats : v.follower.stats = v.published.foldl (fun stats e => stats.apply e.toReport) .empty
  count : v.bus.published = k + v.published.length
  drained : ∀ t ∈ v.drains, t.isFinished = true

theorem Kept.seen {k : Nat} {v : Vigil World} (h : Kept k v) (hphase : v.follower.phase = .finished) : Seen k v := by
  have hqueue := h.emptied hphase
  have hshown : v.follower.shown = v.published := by rw [← h.account, hqueue, List.append_nil]
  exact ⟨hshown, hqueue, hshown ▸ h.stats, h.count, h.done (.inr hphase)⟩

/-- Whatever the nodes, the drains and the follower do after a start, and in whatever order: a follower that is
through has seen everything that was published since. -/
theorem seen_run (laws : s.Lawful passes) (hnew : ∀ pid, s.isAlive w₀ pid = false)
    (hx : Course.Reachable s passes config w₀ x) (hrests : x.controller.Rests)
    (hstart : x.Starts s id y (some (.started (.ok ())))) (steps : List (VigilStep World))
    (hfinished : (run s { course := y } steps).follower.phase = .finished) :
    Seen x.controller.feed.bus.published (run s { course := y } steps) := by
  obtain ⟨hfree, hbus⟩ := (hstart.launched hrests (hx.interleaved.1.consistent laws hnew).lined).through rfl
  exact ((Kept.start hfree hbus).run steps).seen hfinished

/-- One event comes when the wait of the follower is over, another one when it knows that no node runs. -/
theorem seen_run_late :
    let line (text : String) : VigilStep (List Pid) := .read 0 (.line text.toList) ⟨0, 0⟩
    let steps := [.follow 2, .expire, line "[Node 0] Generation 3: 5 live cells", .act 0, .act 0, .time [],
      .follow 3, line "[Node 0] Generation 4: 6 live cells", .act 0, .act 0, .output 0 { ended := true },
      .follow 4, .follow 0, .follow 0, .follow 0]
    ∃ y, Course.Starts System.stubborn 1 ⟨{ config := { nodes := 1 } }, [], []⟩ y (some (.started (.ok ()))) ∧
      Seen 0 (run System.stubborn { course := y } steps) ∧
      (run System.stubborn { course := y } steps).follower.shown.length = 2 := by
  intro line steps
  have hcall : Course.Starts System.stubborn 1 ⟨{ config := { nodes := 1 } }, [], []⟩ _ _ := .calls
  have hstart := hcall.resumes rfl true
  exact ⟨_, hstart,
    seen_run System.lawful_stubborn (fun _ => rfl) .fresh ⟨rfl, rfl, rfl, rfl⟩ hstart steps (by decide), by decide⟩

end Vigil

end ClusterWatch
