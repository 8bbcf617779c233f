import ClusterWatch.Event.Basic

/-! # Processes

What a session needs of the system that runs its nodes, and how it ends them.
-/
namespace ClusterWatch

/-! ## The system that runs nodes

A session starts processes, asks whether they live, and ends them. `System` lists these operations on
a state of the outside world; whatever else happens there, happens between the operations.
-/

abbrev Pid := Nat

structure System (World : Type) where
  /-- Whether there is something at a path. -/
  pathExists : World → String → Bool
  /-- Starts a program with arguments for a node; the text says why it cannot be started. -/
  spawn : World → (path : String) → (node : NodeId) → (args : List String) →
    Except String Pid × World
  isAlive : World → Pid → Bool
  /-- Asks a process to exit. -/
  requestExit : World → Pid → World
  /-- Ends a process at once. -/
  kill : World → Pid → World

structure NodeHandle where
  node : NodeId
  pid : Pid
deriving DecidableEq, Repr

namespace System
variable {World : Type}

def anyAlive (s : System World) (w : World) (handles : List NodeHandle) : Bool :=
  handles.any fun h => s.isAlive w h.pid

def liveCount (s : System World) (w : World) (handles : List NodeHandle) : Nat :=
  handles.countP fun h => s.isAlive w h.pid

end System

/-! ## Ending nodes

All nodes are ended together. One that has exited is left alone. Every other is asked to exit, and
killed if it has not done so within the grace period. The result has one entry a node, in the order of
the nodes, whatever the order in which they exit.
-/

inductive Termination
  | alreadyExited
  | graceful
  | killed
deriving DecidableEq, Repr

def Termination.name : Termination → String
  | .alreadyExited => "AlreadyExited"
  | .graceful => "Graceful"
  | .killed => "Killed"

/-- A node that is being ended, and how it ended if it has. -/
structure Ending where
  handle : NodeHandle
  result : Option Termination
deriving DecidableEq, Repr

namespace Ending
variable {World : Type}

/-- Looks at one node at the beginning: it has exited, or it is asked to. -/
def begin (s : System World) (w : World) (h : NodeHandle) : Ending × World :=
  if s.isAlive w h.pid then (⟨h, none⟩, s.requestExit w h.pid)
  else (⟨h, some .alreadyExited⟩, w)

/-- Looks at one node again. When the grace period is over, a node that still lives is killed. -/
def resume (s : System World) (graceOver : Bool) (w : World) (e : Ending) : Ending × World :=
  match e.result with
  | some _ => (e, w)
  | none =>
    if !s.isAlive w e.handle.pid then ({ e with result := some .graceful }, w)
    else if graceOver then ({ e with result := some .killed }, s.kill w e.handle.pid)
    else (e, w)

def forAll {α : Type} (look : World → α → Ending × World) (w : World) : List α → List Ending × World
  | [] => ([], w)
  | a :: rest =>
    let (e, w) := look w a
    let (es, w) := forAll look w rest
    (e :: es, w)

/-- The results, once all nodes have ended. -/
def results? (es : List Ending) : Option (List (NodeId × Termination)) :=
  es.mapM fun e => e.result.map (e.handle.node, ·)

end Ending

end ClusterWatch
