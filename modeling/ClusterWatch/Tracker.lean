import ClusterWatch.NodeMap

/-! # What is known of each node

The tracker keeps, for every node that has said so, the last generation it reported and the rows it
owns. A later generation replaces an earlier one; the rows of a node are set once and stay until the
tracker is reset.
-/
namespace ClusterWatch

/-- The rows of a node: from `startRow` up to, and without, `endRow`. -/
structure Partition where
  startRow : UInt32
  endRow : UInt32
deriving DecidableEq, Repr

/-- The number of rows, zero if the end does not lie behind the start. -/
def Partition.rows (p : Partition) : UInt32 :=
  if p.startRow ≤ p.endRow then p.endRow - p.startRow else 0

def Partition.contains (p : Partition) (row : UInt32) : Bool :=
  p.startRow ≤ row && row < p.endRow

structure NodeState where
  lastGeneration : Option UInt64 := none
  /-- The node has told its rows. -/
  isInitialized : Bool := false
  partition : Option Partition := none
deriving DecidableEq, Repr

structure Tracker where
  nodes : NodeMap NodeState := ∅
deriving DecidableEq, Inhabited

namespace Tracker

def empty : Tracker := {}

def recordGeneration (t : Tracker) (node : NodeId) (generation : UInt64) : Tracker where
  nodes := t.nodes.alter node fun s => { s.getD {} with lastGeneration := some generation }

def partition? (t : Tracker) (node : NodeId) : Option Partition :=
  (t.nodes.get? node).bind (·.partition)

/-- The node owns these rows, unless its rows are known already. -/
def recordPartition (t : Tracker) (node : NodeId) (p : Partition) : Tracker where
  nodes := t.nodes.alter node fun s =>
    let s := s.getD {}
    { s with isInitialized := true, partition := s.partition.or (some p) }

/-- Whether `recordPartition` would set the rows of the node. -/
def acceptsPartition (t : Tracker) (node : NodeId) : Bool := (t.partition? node).isNone

/-- The tracker after a report. Only generations and rows count. -/
def observe (t : Tracker) (r : Report) : Tracker :=
  match r.payload with
  | .generation generation _ => t.recordGeneration r.node generation
  | .init startRow endRow => t.recordPartition r.node ⟨startRow, endRow⟩
  | _ => t

def node? (t : Tracker) (node : NodeId) : Option NodeState := t.nodes.get? node

def isInitialized (t : Tracker) (node : NodeId) : Bool :=
  (t.nodes.get? node).any (·.isInitialized)

def snapshot (t : Tracker) : List (NodeId × NodeState) := t.nodes.toList

/-- The nodes whose rows are known, with their rows, by node. -/
def partitions (t : Tracker) : List (NodeId × Partition) :=
  t.snapshot.filterMap fun (node, s) => s.partition.map (node, ·)

/-- The least of the last generations, zero if there is none. Nodes without one do not count. -/
def minimumGeneration (t : Tracker) : UInt64 :=
  ((t.snapshot.filterMap (·.2.lastGeneration)).min?).getD 0

end Tracker

end ClusterWatch
