import ClusterWatch.NodeMap

/-! # Figures of the run

The figures of every node that has reported something, and their totals. The counts of a report
replace earlier ones, barriers are counted, and a completion stays. A total of counts that needs more
than 64 bits is an error.
-/
namespace ClusterWatch
open Decimal

structure NodeStats where
  generation : UInt64 := 0
  liveCells : UInt64 := 0
  pageFaults : UInt64 := 0
  readFaults : UInt64 := 0
  writeFaults : UInt64 := 0
  kbSent : Binary64 := .zero false
  kbReceived : Binary64 := .zero false
  barriersPassed : UInt64 := 0
  completed : Bool := false
  finalLiveCells : Option UInt64 := none
  lastError : Option String := none
deriving DecidableEq, Repr

def NodeStats.apply (s : NodeStats) : Payload → NodeStats
  | .generation generation liveCells => { s with generation, liveCells }
  | .pageFaults total read write =>
    { s with pageFaults := total, readFaults := read, writeFaults := write }
  | .network kbSent kbReceived => { s with kbSent, kbReceived }
  | .barrier .. => { s with barriersPassed := s.barriersPassed + 1 }
  | .init .. => s
  | .complete finalLiveCells =>
    { s with completed := true, finalLiveCells := finalLiveCells.or s.finalLiveCells }
  | .error message => { s with lastError := some message }

/-- The live cells that count for the total: the final ones, or those of the last generation. -/
def NodeStats.cellsForTotal (s : NodeStats) : UInt64 := s.finalLiveCells.getD s.liveCells

structure ClusterStats where
  nodes : NodeMap NodeStats := ∅
deriving DecidableEq, Inhabited

/-- A total that does not fit into 64 bits. -/
inductive TotalError
  | overflow
deriving DecidableEq, Repr

def TotalError.message : TotalError → String
  | .overflow => "attempt to add with overflow"

/-- The exact sum, if it fits. -/
def checkedSum (terms : List UInt64) : Except TotalError UInt64 :=
  let sum := terms.foldr (fun term sum => term.toNat + sum) 0
  if sum < UInt64.size then .ok (UInt64.ofNat sum) else .error .overflow

namespace ClusterStats

def empty : ClusterStats := {}

def apply (s : ClusterStats) (r : Report) : ClusterStats where
  nodes := s.nodes.alter r.node fun n => (n.getD {}).apply r.payload

def node? (s : ClusterStats) (node : NodeId) : Option NodeStats := s.nodes.get? node

/-- The sum of amounts, added one after the other from zero. -/
def amountSum (amounts : List Binary64) : Binary64 := amounts.foldl .add (.zero false)

/-- The kilobytes sent, added in the order of the nodes. -/
def totalKbSent (s : ClusterStats) : Binary64 := amountSum (s.nodes.values.map (·.kbSent))

def totalKbReceived (s : ClusterStats) : Binary64 := amountSum (s.nodes.values.map (·.kbReceived))

def totalPageFaults (s : ClusterStats) : Except TotalError UInt64 :=
  checkedSum (s.nodes.values.map (·.pageFaults))

def totalLiveCells (s : ClusterStats) : Except TotalError UInt64 :=
  checkedSum (s.nodes.values.map (·.cellsForTotal))

def completedNodes (s : ClusterStats) : Nat := s.nodes.values.countP (·.completed)

end ClusterStats

end ClusterWatch
