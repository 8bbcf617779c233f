import ClusterWatch.Event.Basic

/-! # The event bus

Events queue on the bus in the order in which they are published, without a limit. One consumer at a
time holds the receiving end. A call of `receive` takes the first event, and holds the receiving end
while there is none; `clear` waits for the receiving end and discards what is queued; `tryTake?` takes
nothing while somebody holds it. Calls that wait are served in the order in which they came.

A waiting call is a state of the bus. `begin` starts a call, `resume` lets it go on, and `expire` ends
a `receive` whose time is over; each gives the answer of the call once there is one.
-/
namespace ClusterWatch

/-- A call that may have to wait for the receiving end. -/
inductive BusCall
  | receive
  | clear
deriving DecidableEq, Repr

abbrev CallId := Nat

/-- What a call answers: the event received, if any came in time, or the number of events discarded. -/
inductive BusAnswer
  | received (event : Option Event)
  | cleared (discarded : Nat)
deriving DecidableEq, Repr

/-- The bus: what is queued, how much was ever published, who holds the receiving end, and who waits
for it, first come first. -/
structure Bus where
  queue : List Event := []
  published : Nat := 0
  holder : Option (CallId × BusCall) := none
  waiting : List (CallId × BusCall) := []
deriving DecidableEq, Inhabited

namespace Bus

def empty : Bus := {}

def publish (b : Bus) (e : Event) : Bus :=
  { b with queue := b.queue ++ [e], published := b.published + 1 }

/-- The first event, if one is queued and nobody holds the receiving end. -/
def tryTake? (b : Bus) : Option (Event × Bus) :=
  match b.holder, b.queue with
  | none, e :: queue => some (e, { b with queue })
  | _, _ => none

/-- The receiving end goes to the call that has waited longest. -/
def release (b : Bus) : Bus :=
  { b with holder := b.waiting.head?, waiting := b.waiting.tail }

/-- Lets a call go on that holds the receiving end. A `receive` without an event keeps it. -/
def resume (b : Bus) (id : CallId) : Bus × Option BusAnswer :=
  match b.holder with
  | some (holder, call) =>
    if holder = id then
      match call, b.queue with
      | .clear, queue => ({ b with queue := [] }.release, some (.cleared queue.length))
      | .receive, e :: queue => ({ b with queue }.release, some (.received (some e)))
      | .receive, [] => (b, none)
    else (b, none)
  | none => (b, none)

/-- Starts a call: it gets the receiving end at once, if that is free, or waits for it. -/
def begin (b : Bus) (id : CallId) (call : BusCall) : Bus × Option BusAnswer :=
  if b.holder.isNone then { b with holder := some (id, call) }.resume id
  else ({ b with waiting := b.waiting ++ [(id, call)] }, none)

/-- Ends a call without an answer of its own; it takes nothing. -/
def abandon (b : Bus) (id : CallId) : Bus :=
  if b.holder.any (·.1 = id) then b.release
  else { b with waiting := b.waiting.filter (·.1 ≠ id) }

/-- The time of a `receive` is over: it takes an event that has come, and ends without one if none
has. -/
def expire (b : Bus) (id : CallId) : Bus × BusAnswer :=
  match b.resume id with
  | (b, some answer) => (b, answer)
  | (b, none) => (b.abandon id, .received none)

/-- A call that nobody disturbs while it waits. -/
def call (b : Bus) (c : BusCall) : Bus × BusAnswer :=
  match b.begin 0 c with
  | (b, some answer) => (b, answer)
  | (b, none) => b.expire 0

def describe (b : Bus) : String := s!"EventBus \x7b event_count: {b.published} \x7d"

theorem published_publish (b : Bus) (e : Event) : (b.publish e).published = b.published + 1 := rfl

theorem queue_publish (b : Bus) (e : Event) : (b.publish e).queue = b.queue ++ [e] := rfl

end Bus

end ClusterWatch
