import ClusterWatch.Bus
import ClusterWatch.Line.Rules
import ClusterWatch.Text.Lines
import ClusterWatch.Tracker

/-! # Drains

A drain takes what the pipes of one node deliver, item by item, and turns lines into events: the
tracker observes an event, then the bus carries it. A drain stops at the first item that arrives after
the session has been told to end, or at the first failed read, which it reports as an error of its
node. From then on it reads and discards what still comes, so that the node is never held up.
-/
namespace ClusterWatch
open Text Time

/-- An item as it reaches the drain: with the running flag and the time at that moment. -/
structure Arrival where
  item : PipeItem
  running : Bool
  time : Instant
deriving DecidableEq, Repr

structure Feed where
  tracker : Tracker := {}
  bus : Bus := {}
deriving DecidableEq, Inhabited

inductive DrainAction
  | observe (e : Event)
  | publish (e : Event)
deriving DecidableEq, Repr

def Feed.perform (f : Feed) : DrainAction → Feed
  | .observe e => { f with tracker := f.tracker.observe e.toReport }
  | .publish e => { f with bus := f.bus.publish e }

/-- How a drain stands, or why it stopped. -/
inductive DrainOutcome
  /-- Nothing has stopped the drain; at the end of its pipes it has read them all. -/
  | endOfStream
  | cancelled
  | failed
deriving DecidableEq, Repr

def DrainOutcome.name : DrainOutcome → String
  | .endOfStream => "EndOfStream"
  | .cancelled => "Cancelled"
  | .failed => "Failed"

structure Drain where
  node : NodeId
  lines : Nat := 0
  events : Nat := 0
  outcome : DrainOutcome := .endOfStream
  /-- The items that were read after the drain had stopped. -/
  discarded : Nat := 0
deriving DecidableEq, Repr

namespace Drain

/-- One item arrives: the drain after it, and the actions to be performed in this order. -/
def step (d : Drain) (a : Arrival) : Drain × List DrainAction :=
  match d.outcome with
  | .endOfStream =>
    if a.running then
      match a.item with
      | .line text =>
        match Line.classify text with
        | some r =>
          let e : Event := { r with observedAt := a.time }
          ({ d with lines := d.lines + 1, events := d.events + 1 }, [.observe e, .publish e])
        | none => ({ d with lines := d.lines + 1 }, [])
      | .failure text =>
        ({ d with events := d.events + 1, outcome := .failed },
          [.publish { node := d.node, payload := .error text, observedAt := a.time }])
    else ({ d with outcome := .cancelled }, [])
  | .cancelled | .failed => ({ d with discarded := d.discarded + 1 }, [])

def run (d : Drain) (f : Feed) : List Arrival → Drain × Feed
  | [] => (d, f)
  | a :: arrivals => run (d.step a).1 ((d.step a).2.foldl .perform f) arrivals

end Drain

/-! ## The output of a node

A node writes to two pipes. `NodeOutput` keeps the unfinished line of each, and `receive` turns bytes
that have come into items, one from each pipe in turn. A `DrainTask` is a drain with the output that
it reads; it is finished when the output has ended.
-/

/-- The unfinished lines of the two pipes, their bytes in reverse order. -/
structure NodeOutput where
  standard : List UInt8 := []
  errors : List UInt8 := []
  ended : Bool := false
deriving DecidableEq, Repr

namespace NodeOutput

def receive (o : NodeOutput) (standard errors : List UInt8) (atEnd : Bool) :
    List PipeItem × NodeOutput :=
  let (first, restFirst) := feed o.standard standard
  let (second, restSecond) := feed o.errors errors
  if atEnd then
    (alternate (first ++ unendedLine restFirst) (second ++ unendedLine restSecond),
      { ended := true })
  else (alternate first second, ⟨restFirst, restSecond, false⟩)

end NodeOutput

structure DrainTask where
  drain : Drain
  pid : Nat
  output : NodeOutput := {}
deriving DecidableEq, Repr

namespace DrainTask

def isFinished (t : DrainTask) : Bool := t.output.ended

def receive (t : DrainTask) (f : Feed) (running : Bool) (time : Instant)
    (standard errors : List UInt8) (atEnd : Bool) : DrainTask × Feed :=
  if t.isFinished then (t, f)
  else
    let (items, output) := t.output.receive standard errors atEnd
    let (drain, f) := t.drain.run f (items.map fun item => ⟨item, running, time⟩)
    ({ t with drain, output }, f)

end DrainTask

end ClusterWatch
