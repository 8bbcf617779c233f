import ClusterWatch.Host.Basic
import ClusterWatch.Session.Lifecycle

/-! # Sessions on a host

A rehearsal is a controller together with the host on which its nodes run. Time passes only while
somebody waits: `tick` lets the drains take what the nodes have written, one millisecond pass, and the
calls go on whose wait is over.
-/
namespace ClusterWatch
open Host Time

/-- A controller and its host, with the moments at which pauses end, and the answers of calls. -/
structure Rehearsal where
  controller : Controller
  host : Host
  deadlines : List (CallId × Nat) := []
  answers : List (CallId × CallAnswer) := []
  nextCall : CallId := 1

def millisecond : Nat := 1000

/-- The milliseconds after which a wait for something that does not come is given up. -/
def patience : Nat := 5000

namespace Rehearsal

def instant (r : Rehearsal) : Instant := .ofMicroseconds r.host.now

def answer? (r : Rehearsal) (id : CallId) : Option CallAnswer :=
  (r.answers.find? (·.1 = id)).map (·.2)

/-- A phase in which nodes are being ended; its time runs from its beginning. -/
def isEnding : Phase → Bool
  | .stopEnding _ => true
  | .startLaunching (.failing ..) => true
  | _ => false

/-- Lets a call go on, and notes its answer or the end of its next pause. -/
def stepCall (r : Rehearsal) (id : CallId) : Rehearsal :=
  let timeOver := r.deadlines.any fun d => d.1 = id ∧ d.2 ≤ r.host.now
  let before := r.controller.phase? id
  let (controller, host, answer) := r.controller.step Host.system id timeOver r.host
  let after := controller.phase? id
  let deadlines :=
    if after = before ∨ (before.any isEnding ∧ after.any isEnding) then r.deadlines
    else
      ((controller.pause? id).map fun ms => (id, host.now + ms * millisecond)).toList ++
        r.deadlines.filter (·.1 ≠ id)
  { r with controller, host, deadlines, answers := (answer.map (id, ·)).toList ++ r.answers }

/-- Lets every call go on that can, in their order, until none can. -/
def settle : (rounds : Nat) → Rehearsal → Rehearsal
  | 0, r => r
  | rounds + 1, r => settle rounds ((r.controller.calls.map (·.1)).foldl stepCall r)

/-- Lets the calls go on. A call can wait for those before it, so they are looked at more than once. -/
def poke (r : Rehearsal) : Rehearsal := settle (r.controller.calls.length + 1) r

/-- Opens a call and lets it go on to its first wait. -/
def begin (r : Rehearsal) (opening : Controller → CallId → Controller × Option CallAnswer) :
    CallId × Rehearsal :=
  let id := r.nextCall
  let (controller, answer) := opening r.controller id
  let r := { r with controller, nextCall := id + 1 }
  match answer with
  | some answer => (id, { r with answers := (id, answer) :: r.answers })
  | none => (id, r.stepCall id)

def serve (r : Rehearsal) : Rehearsal :=
  let c := r.controller
  let (drains, feed, host) := c.session.drains.foldl (fun (drains, feed, host) (t : DrainTask) =>
    let closed := Host.isClosed host t.pid
    let (output, errors, host) := Host.takeOutput host t.pid
    let (t, feed) := t.receive feed c.running (.ofMicroseconds host.now) output errors closed
    (drains ++ [t], feed, host)) (([] : List DrainTask), c.feed, r.host)
  { r with host, controller := { c with feed, session := { c.session with drains } } }

def tick (r : Rehearsal) : Rehearsal :=
  let r := r.serve
  poke { r with host := r.host.advance (r.host.now + millisecond) }

/-- Time passes until a condition holds, at most so many milliseconds. Tells whether it holds. -/
def waitFor (condition : Rehearsal → Bool) : (most : Nat) → Rehearsal → Bool × Rehearsal
  | 0, r => (condition r, r)
  | most + 1, r => if condition r then (true, r) else waitFor condition most r.tick

def callTime (r : Rehearsal) : Nat :=
  let c := r.controller.config
  c.timings.coordinatorSettle.toNat + c.nodes.toNat * c.timings.collaboratorSettle.toNat +
    2 * c.timings.gracePeriod.toNat + patience

def finish (r : Rehearsal) (id : CallId) : CallAnswer × Rehearsal :=
  let (_, r) := waitFor (fun r => (r.answer? id).isSome) r.callTime r
  ((r.answer? id).getD .stopped, r)

def call (r : Rehearsal) (opening : Controller → CallId → Controller × Option CallAnswer) :
    CallAnswer × Rehearsal :=
  let (id, r) := r.begin opening
  r.finish id

def pass (r : Rehearsal) (ms : Nat) : Rehearsal := (waitFor (fun _ => false) ms r).2

def start (r : Rehearsal) : Except ClusterError Unit × Rehearsal :=
  let (a, r) := r.call Controller.openStart
  (a.result, r)

def stop (r : Rehearsal) : Rehearsal := (r.call Controller.openStop).2

def isRunning (r : Rehearsal) : Bool × Rehearsal :=
  let (a, r) := r.call (·.openQuestion · .isRunning)
  (a.isTrue, r)

def liveCount (r : Rehearsal) : Nat × Rehearsal :=
  let (a, r) := r.call (·.openQuestion · .liveCount)
  (a.number, r)

def drainsFinished (r : Rehearsal) : Bool × Rehearsal :=
  let (a, r) := r.call (·.openQuestion · .drainsFinished)
  (a.isTrue, r)

/-- A start and, so many milliseconds after it has begun, a second call. -/
def startAnd (r : Rehearsal) (ms : Nat)
    (opening : Controller → CallId → Controller × Option CallAnswer) :
    CallId × CallId × Rehearsal :=
  let (first, r) := r.begin Controller.openStart
  let r := r.pass ms
  let (second, r) := r.begin opening
  (first, second, r)

/-- A start and a stop after it: the result of the start, and the stage before the stop. -/
def startAndStop (r : Rehearsal) (ms : Nat) : Except ClusterError Unit × Stage × Rehearsal :=
  let (first, r) := r.begin Controller.openStart
  let r := r.pass ms
  let stage := r.controller.stage
  let (second, r) := r.begin Controller.openStop
  let (a, r) := r.finish first
  (a.result, stage, (r.finish second).2)

def startAndStart (r : Rehearsal) (ms : Nat) :
    Except ClusterError Unit × Except ClusterError Unit × Rehearsal :=
  let (first, second, r) := r.startAnd ms Controller.openStart
  let (a, r) := r.finish first
  let (b, r) := r.finish second
  (a.result, CallAnswer.result b, r)

def stopAndStop (r : Rehearsal) : Stage × Rehearsal :=
  let (first, r) := r.begin Controller.openStop
  let (second, r) := r.begin Controller.openStop
  let (_, r) := r.finish second
  (r.controller.stage, (r.finish first).2)

def stopAndStart (r : Rehearsal) : Except ClusterError Unit × Rehearsal :=
  let (first, r) := r.begin Controller.openStop
  let (second, r) := r.begin Controller.openStart
  let (a, r) := r.finish second
  (a.result, (r.finish first).2)

/-- Time passes until no node runs and all drains are finished. Tells whether that comes about. -/
def waitExit (r : Rehearsal) : Bool × Rehearsal :=
  waitFor (fun r => !r.isRunning.1 && r.drainsFinished.1) patience r

def waitEvents (r : Rehearsal) (count : Nat) : Bool × Rehearsal :=
  waitFor (fun r => count ≤ r.controller.feed.bus.published) patience r

def waitLive (r : Rehearsal) (count : Nat) : Bool × Rehearsal :=
  waitFor (fun r => r.liveCount.1 ≤ count) patience r

/-! ## The bus -/

def withBus (r : Rehearsal) (bus : Bus) : Rehearsal :=
  { r with controller := { r.controller with feed := { r.controller.feed with bus } } }

def bus (r : Rehearsal) : Bus := r.controller.feed.bus

def observe (r : Rehearsal) (report : Report) : Rehearsal :=
  { r with controller := { r.controller with
      feed := { r.controller.feed with tracker := r.controller.feed.tracker.observe report } } }

def beginBus (r : Rehearsal) (call : BusCall) : CallId × Option BusAnswer × Rehearsal :=
  let (bus, answer) := r.bus.begin r.nextCall call
  (r.nextCall, answer, { r.withBus bus with nextCall := r.nextCall + 1 })

def awaitEvent (id : CallId) : (ms : Nat) → Rehearsal → Option Event × Rehearsal
  | 0, r =>
    let (bus, answer) := r.bus.expire id
    (match answer with
      | .received e => e
      | .cleared _ => none, r.withBus bus)
  | ms + 1, r =>
    let r := r.tick
    match r.bus.resume id with
    | (bus, some (.received e)) => (e, r.withBus bus)
    | (bus, _) => awaitEvent id ms (r.withBus bus)

def finishReceive (r : Rehearsal) (id : CallId) (ms : Nat) (answer : Option BusAnswer) :
    Option Event × Rehearsal :=
  match answer with
  | some (.received e) => (e, r)
  | some (.cleared _) => (none, r)
  | none => awaitEvent id (max ms 1) r

def receive (r : Rehearsal) (ms : Nat) : Option Event × Rehearsal :=
  let (id, answer, r) := r.beginBus .receive
  r.finishReceive id ms answer

def clear (r : Rehearsal) : Nat × Rehearsal :=
  match r.bus.call .clear with
  | (bus, .cleared n) => (n, r.withBus bus)
  | (bus, _) => (0, r.withBus bus)

/-- A `receive` begins, and a `clear` while it waits. -/
def clearWhile (r : Rehearsal) (ms : Nat) : Option Event × Nat × Rehearsal :=
  let (id, answer, r) := r.beginBus .receive
  let (clearing, cleared, r) := r.beginBus .clear
  let (e, r) := r.finishReceive id ms answer
  let (bus, cleared) := match cleared with
    | some a => (r.bus, some a)
    | none => r.bus.resume clearing
  (e, match cleared with
    | some (.cleared n) => n
    | _ => 0, r.withBus bus)

def tryReceive (r : Rehearsal) : Option Event × Rehearsal :=
  match r.bus.tryTake? with
  | some (e, bus) => (some e, r.withBus bus)
  | none => (none, r)

/-- Takes events as long as there are any; the fuel bounds their number. -/
def takeAll : (fuel : Nat) → Rehearsal → List Event × Rehearsal
  | 0, r => ([], r)
  | fuel + 1, r =>
    match r.tryReceive with
    | (some e, r) =>
      let (es, r) := takeAll fuel r
      (e :: es, r)
    | (none, r) => ([], r)

def queuedEvents (r : Rehearsal) : List Event × Rehearsal := takeAll r.bus.queue.length r

end Rehearsal

end ClusterWatch
