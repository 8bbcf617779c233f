import ClusterWatch.Drain
import ClusterWatch.Session.Launch

/-! # Sessions

The stages of a session, and the calls that lead from one to another.
-/
namespace ClusterWatch
open Time

/-! ## Stages of a session

A session is idle, starting, running or stopping. `Stage.canBecome` is the table of the changes that
are allowed.
-/

inductive Stage
  | idle
  | starting
  | running
  | stopping
deriving DecidableEq, Repr

namespace Stage

def name : Stage → String
  | idle => "idle"
  | starting => "starting"
  | running => "running"
  | stopping => "stopping"

def all : List Stage := [idle, starting, running, stopping]

/-- The allowed changes. A start can succeed, fail or be overtaken by a stop. -/
def canBecome : Stage → Stage → Bool
  | idle, starting => true
  | starting, running => true
  | starting, stopping => true
  | starting, idle => true
  | running, stopping => true
  | stopping, idle => true
  | _, _ => false

end Stage

/-! ## The lifecycle of a session

A `Controller` starts, observes and stops one cluster at a time. Its calls may overlap: a call that
has to wait is a phase of the controller, and other calls go on in the meantime. The calls share the
session, which belongs to one call at a time, in the order in which they ask for it.

A call is opened and then stepped. Opening looks at the stage, and changes it, at one stroke. The first
step asks for the session; each further step leads from one wait to the next: for the session, for the
receiving end of the bus, for the nodes to settle, for the nodes to end. A stop that comes while a start
is under way leaves it to the start to notice: the start then keeps what it has launched in the session
and the stop, which waits for the session, ends it.
-/

/-- What the calls share: the nodes that are launched and the drains of their output. -/
structure Session where
  nodes : Option (List NodeHandle) := none
  drains : List DrainTask := []
deriving DecidableEq, Inhabited

inductive Question
  | isRunning
  | liveCount
  | drainsFinished
deriving DecidableEq, Repr

inductive Phase
  /-- The call is open and has not yet asked for the session. -/
  | startOpen
  | stopOpen
  | asking (q : Question)
  /-- The call waits for the session. -/
  | startQueued
  | stopQueued
  | askQueued (q : Question)
  /-- The call has the session and waits for the receiving end of the bus. -/
  | startClearing
  | startLaunching (launch : Launch)
  | stopEnding (endings : List Ending)
deriving DecidableEq, Repr

inductive CallAnswer
  | started (result : Except ClusterError Unit)
  | stopped
  | truth (b : Bool)
  | count (n : Nat)

def CallAnswer.result : CallAnswer → Except ClusterError Unit
  | .started result => result
  | _ => .ok ()

def CallAnswer.isTrue : CallAnswer → Bool
  | .truth b => b
  | _ => false

def CallAnswer.number : CallAnswer → Nat
  | .count n => n
  | _ => 0

structure Controller where
  config : Config
  stage : Stage := .idle
  /-- Tells the drains whether to go on. -/
  running : Bool := false
  feed : Feed := {}
  session : Session := {}
  /-- The call that has the session, and the calls that wait for it, first come first. -/
  holder : Option CallId := none
  queue : List CallId := []
  calls : List (CallId × Phase) := []

namespace Controller
variable {World : Type}

abbrev Stepped (World : Type) := Controller × World × Option CallAnswer

def phase? (c : Controller) (id : CallId) : Option Phase :=
  (c.calls.find? (·.1 = id)).map (·.2)

def setPhase (c : Controller) (id : CallId) (p : Phase) : Controller :=
  { c with calls := c.calls.map fun call => if call.1 = id then (id, p) else call }

def addCall (c : Controller) (id : CallId) (p : Phase) : Controller :=
  { c with calls := c.calls ++ [(id, p)] }

def dropCall (c : Controller) (id : CallId) : Controller :=
  { c with calls := c.calls.filter (·.1 ≠ id) }

/-- The session goes to the call that has waited for it the longest. -/
def releaseSession (c : Controller) : Controller :=
  { c with holder := c.queue.head?, queue := c.queue.tail }

/-- Changes the stage, if it is `source` and the change is allowed. -/
def changeStage (c : Controller) (source target : Stage) : Except ClusterError Controller :=
  if c.stage = source ∧ source.canBecome target then .ok { c with stage := target }
  else .error (.invalidTransition c.stage.name target.name)

def tryChangeStage (c : Controller) (source target : Stage) : Controller :=
  match c.changeStage source target with
  | .ok c => c
  | .error _ => c

def openStart (c : Controller) (id : CallId) : Controller × Option CallAnswer :=
  match c.changeStage .idle .starting with
  | .ok c => (c.addCall id .startOpen, none)
  | .error e => (c, some (.started (.error e)))

/-- Opens a stop. It has nothing to do if the session is idle or stopping already. -/
def openStop (c : Controller) (id : CallId) : Controller × Option CallAnswer :=
  match c.stage with
  | .idle | .stopping => (c, some .stopped)
  | .starting | .running => ({ c with stage := .stopping }.addCall id .stopOpen, none)

/-- Opens a question. No session runs in any stage but one. -/
def openQuestion (c : Controller) (id : CallId) (q : Question) : Controller × Option CallAnswer :=
  if q = .isRunning ∧ c.stage ≠ .running then (c, some (.truth false))
  else (c.addCall id (.asking q), none)

/-- The call is through and gives the session away. -/
def finish (c : Controller) (id : CallId) (answer : CallAnswer) (w : World) : Stepped World :=
  ((c.dropCall id).releaseSession, w, some answer)

def freshDrains (handles : List NodeHandle) : List DrainTask :=
  handles.map fun h => { drain := { node := h.node }, pid := h.pid }

def afterLaunch (c : Controller) (id : CallId) (w : World) : Launch → Stepped World
  | .failed e =>
    ({ c with running := false }.tryChangeStage .starting .idle).finish id (.started (.error e)) w
  | .launched handles =>
    match c.changeStage .starting .running with
    | .ok c =>
      { c with session := ⟨some handles, freshDrains handles⟩ }.finish id (.started (.ok ())) w
    | .error _ =>
      { c with session := { c.session with nodes := some handles } }.finish id
        (.started (.error .startAborted)) w
  | l => (c.setPhase id (.startLaunching l), w, none)

/-- A start has the session and the bus is clear: what is known of an earlier session goes, and the
nodes are launched. -/
def afterClear (s : System World) (c : Controller) (id : CallId) (w : World) : Stepped World :=
  let c := { c with feed := { c.feed with tracker := .empty }, running := true }
  match c.config.check with
  | .error e => c.afterLaunch id w (.failed e)
  | .ok () =>
    let (l, w) := Launch.begin s c.config [] w
    c.afterLaunch id w l

/-- A start discards what is left on the bus, when it is its turn there. -/
def afterBus (s : System World) (c : Controller) (id : CallId) (w : World) :
    Bus × Option BusAnswer → Stepped World
  | (bus, some _) => afterClear s { c with feed := { c.feed with bus } } id w
  | (bus, none) => ({ c with feed := { c.feed with bus } }.setPhase id .startClearing, w, none)

def afterEnding (c : Controller) (id : CallId) (w : World) (endings : List Ending) :
    Stepped World :=
  match Ending.results? endings with
  | none => (c.setPhase id (.stopEnding endings), w, none)
  | some _ =>
    let (c, w, answer) := { c with session := {} }.finish id .stopped w
    (c.tryChangeStage .stopping .idle, w, answer)

def reply (s : System World) (c : Controller) (w : World) : Question → CallAnswer
  | .isRunning => .truth (s.anyAlive w (c.session.nodes.getD []))
  | .liveCount => .count (s.liveCount w (c.session.nodes.getD []))
  | .drainsFinished => .truth (c.session.drains.all (·.isFinished))

def enter (s : System World) (c : Controller) (id : CallId) (w : World) : Phase → Stepped World
  | .startOpen | .startQueued => afterBus s c id w (c.feed.bus.begin id .clear)
  | .stopOpen | .stopQueued =>
    let (endings, w) := Ending.forAll (Ending.begin s) w (c.session.nodes.getD [])
    { c with session := { c.session with nodes := none } }.afterEnding id w endings
  | .asking q | .askQueued q => c.finish id (c.reply s w q) w
  | _ => (c, w, none)

def Phase.queued : Phase → Phase
  | .startOpen => .startQueued
  | .stopOpen => .stopQueued
  | .asking q => .askQueued q
  | p => p

/-- A call asks for the session. A stop first tells the drains to end. -/
def request (s : System World) (c : Controller) (id : CallId) (w : World) (p : Phase) :
    Stepped World :=
  let c := if p = .stopOpen then { c with running := false } else c
  if c.holder.isNone then enter s { c with holder := some id } id w p
  else ({ c with queue := c.queue ++ [id] }.setPhase id (Phase.queued p), w, none)

/-- Lets a call go on. `timeOver` says that its pause, or the grace period, is over. -/
def step (s : System World) (c : Controller) (id : CallId) (timeOver : Bool) (w : World) :
    Stepped World :=
  match c.phase? id with
  | none => (c, w, none)
  | some .startOpen => request s c id w .startOpen
  | some .stopOpen => request s c id w .stopOpen
  | some (.asking q) => request s c id w (.asking q)
  | some .startClearing => afterBus s c id w (c.feed.bus.resume id)
  | some (.startLaunching l) =>
    let (l, w) := Launch.resume s c.config [] timeOver w l
    c.afterLaunch id w l
  | some (.stopEnding endings) =>
    let (endings, w) := Ending.forAll (Ending.resume s timeOver) w endings
    c.afterEnding id w endings
  | some p => if c.holder = some id then enter s c id w p else (c, w, none)

/-- The pause that a call is in, in milliseconds. -/
def pause? (c : Controller) (id : CallId) : Option Nat :=
  match c.phase? id with
  | some (.startLaunching l) => some (l.pause c.config)
  | some (.stopEnding _) => some c.config.timings.gracePeriod.toNat
  | _ => none

end Controller

end ClusterWatch
