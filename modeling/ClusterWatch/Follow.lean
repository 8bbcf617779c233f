import ClusterWatch.Display.View
import ClusterWatch.Event.Basic
import ClusterWatch.Rehearsal.Session
import ClusterWatch.Stats

/-! # Following a session

A follower shows the events of the bus until the nodes are through. When it has waited for an event in
vain, it asks whether a node still runs, and if not, whether all drains are finished; if they are,
nothing more will be published, and it takes what is left on the bus. An interruption ends it while it
waits for an event.

The follower is a machine: its phase says what it waits for, and `step` is what it does with the answer.
-/
namespace ClusterWatch

inductive FollowPhase
  /-- An event, for a limited time. -/
  | receiving
  | askingRunning
  /-- Whether all drains are finished. -/
  | askingDrains
  /-- An event that is still on the bus. -/
  | taking
  | finished
deriving DecidableEq, Repr

inductive FollowInput
  /-- The event that came in time, if one did. -/
  | received (event : Option Event)
  | running (b : Bool)
  | drained (b : Bool)
  /-- The event that was left, if one was. -/
  | taken (event : Option Event)
  | interrupted
deriving DecidableEq, Repr

structure Follower where
  phase : FollowPhase := .receiving
  shown : List Event := []
  stats : ClusterStats := .empty
deriving DecidableEq

namespace Follower

def present (f : Follower) (e : Event) : Follower :=
  { f with shown := f.shown ++ [e], stats := f.stats.apply e.toReport }

/-- What a follower does when it is told something that it waits for; anything else it passes over. -/
def step (f : Follower) (input : FollowInput) : Follower :=
  match f.phase, input with
  | .receiving, .received (some e) => f.present e
  | .receiving, .received none => { f with phase := .askingRunning }
  | .receiving, .interrupted => { f with phase := .finished }
  | .askingRunning, .running b => { f with phase := if b then .receiving else .askingDrains }
  | .askingDrains, .drained b => { f with phase := if b then .taking else .receiving }
  | .taking, .taken (some e) => f.present e
  | .taking, .taken none => { f with phase := .finished }
  | _, _ => f

end Follower

/-! ## Following a session on a host

A watch is a follower of a rehearsal: it asks the session what the follower waits for. The user may
interrupt it, a while after a number of lines has been printed.
-/

structure WatchSettings where
  view : View := {}
  /-- How long each event is waited for, in milliseconds. -/
  poll : Nat := 100
  interruptAfter : Option Nat := none

/-- A follower, the wait for an event that it is in with the moment of its end, the lines it has
printed, and the moment of the interruption. -/
structure Watch where
  follower : Follower := {}
  waiting : Option (CallId × Nat) := none
  printed : Nat := 0
  interruptAt : Option Nat := none

/-- The milliseconds between the last line before an interruption and the interruption. -/
def interruptDelay : Nat := 100

def watchLimit : Nat := 1000000

namespace Watch

def tell (s : WatchSettings) (now : Nat) (w : Watch) (input : FollowInput) : Watch :=
  let follower := w.follower.step input
  let fresh := follower.shown.drop w.follower.shown.length
  let printed := w.printed + (linesOfTexts (fresh.map s.view.event)).length
  let interruptAt := w.interruptAt.or <|
    if s.interruptAfter.any (· ≤ printed) then some (now + interruptDelay * millisecond) else none
  { follower, waiting := none, printed, interruptAt }

def eventOf : BusAnswer → Option Event
  | .received e => e
  | .cleared _ => none

def await (s : WatchSettings) (w : Watch) (id : CallId) (deadline : Nat) (r : Rehearsal) :
    Watch × Rehearsal :=
  if w.interruptAt.any (· ≤ r.host.now) then
    (w.tell s r.host.now .interrupted, r.withBus (r.bus.abandon id))
  else
    let r := r.tick
    match r.bus.resume id with
    | (bus, some answer) => (w.tell s r.host.now (.received (eventOf answer)), r.withBus bus)
    | (bus, none) =>
      if r.host.now < deadline then (w, r.withBus bus)
      else
        let (bus, answer) := bus.expire id
        (w.tell s r.host.now (.received (eventOf answer)), r.withBus bus)

def step (s : WatchSettings) (w : Watch) (r : Rehearsal) : Watch × Rehearsal :=
  match w.follower.phase, w.waiting with
  | .receiving, some (id, deadline) => w.await s id deadline r
  | .receiving, none =>
    let (id, answer, r) := r.beginBus .receive
    match answer with
    | some answer => (w.tell s r.host.now (.received (eventOf answer)), r)
    | none => ({ w with waiting := some (id, r.host.now + s.poll * millisecond) }, r)
  | .askingRunning, _ =>
    let (b, r) := r.isRunning
    (w.tell s r.host.now (.running b), r)
  | .askingDrains, _ =>
    let (b, r) := r.drainsFinished
    (w.tell s r.host.now (.drained b), r)
  | .taking, _ =>
    let (e, r) := r.tryReceive
    (w.tell s r.host.now (.taken e), r)
  | .finished, _ => (w, r)

/-- Takes steps until the follower is through; the fuel bounds their number. -/
def run (s : WatchSettings) : (fuel : Nat) → Watch → Rehearsal → Watch × Rehearsal
  | 0, w, r => (w, r)
  | fuel + 1, w, r =>
    if w.follower.phase = .finished then (w, r)
    else
      let (w, r) := w.step s r
      run s fuel w r

end Watch

def Rehearsal.follow (r : Rehearsal) (s : WatchSettings) : Follower × Rehearsal :=
  let (w, r) := Watch.run s watchLimit {} r
  (w.follower, r)

end ClusterWatch
