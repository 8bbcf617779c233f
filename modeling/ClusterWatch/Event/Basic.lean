import ClusterWatch.Decimal.Binary64
import ClusterWatch.Time.Basic

/-! # Events

An event is what one node of the cluster reports at one moment. A `Report` is an event without the
moment: it is all that a line of output says.
-/
namespace ClusterWatch
open Decimal Time

/-- The number of a node; node 0 is the coordinator. -/
abbrev NodeId := UInt32

inductive BarrierAction
  | passed
deriving DecidableEq, Repr

inductive EventKind
  | generation
  | pageFaults
  | network
  | barrier
  | init
  | complete
  | error
deriving DecidableEq, Repr

inductive Payload
  /-- A generation is computed, with this many live cells in the node's rows. -/
  | generation (generation liveCells : UInt64)
  /-- The page faults so far. -/
  | pageFaults (total read write : UInt64)
  /-- The traffic so far, in kilobytes. -/
  | network (kbSent kbReceived : Binary64)
  | barrier (name : String) (action : BarrierAction)
  /-- The node owns the rows from the first up to, and without, the second. -/
  | init (startRow endRow : UInt32)
  /-- The computation is over, perhaps with the final number of live cells. -/
  | complete (finalLiveCells : Option UInt64)
  | error (message : String)
deriving DecidableEq, Repr

structure Report where
  node : NodeId
  payload : Payload
deriving DecidableEq, Repr

structure Event extends Report where
  observedAt : Instant
deriving DecidableEq, Repr

def Payload.kind : Payload → EventKind
  | .generation .. => .generation
  | .pageFaults .. => .pageFaults
  | .network .. => .network
  | .barrier .. => .barrier
  | .init .. => .init
  | .complete .. => .complete
  | .error .. => .error

def EventKind.name : EventKind → String
  | .generation => "generation"
  | .pageFaults => "page_faults"
  | .network => "network"
  | .barrier => "barrier"
  | .init => "init"
  | .complete => "complete"
  | .error => "error"

def BarrierAction.name : BarrierAction → String
  | .passed => "passed"

def EventKind.all : List EventKind :=
  [.generation, .pageFaults, .network, .barrier, .init, .complete, .error]

def EventKind.ofName? (name : String) : Option EventKind :=
  EventKind.all.find? (·.name = name)

def BarrierAction.ofName? (name : String) : Option BarrierAction :=
  if name = BarrierAction.passed.name then some .passed else none

theorem EventKind.ofName?_name (k : EventKind) : ofName? k.name = some k := by
  cases k <;> decide

theorem BarrierAction.ofName?_name (a : BarrierAction) : ofName? a.name = some a := by
  cases a; decide

end ClusterWatch
