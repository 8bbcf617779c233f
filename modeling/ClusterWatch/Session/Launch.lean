import ClusterWatch.Config.Basic
import ClusterWatch.Session.System

/-! # Launching

What each node is told, and how all nodes are launched.
-/
namespace ClusterWatch

/-! ## What a node is told

A node learns its part from its arguments. The coordinator is node 0; a collaborator is also told its
number and where to find the coordinator.
-/

inductive Role
  | coordinator
  | collaborator
deriving DecidableEq, Repr

def Role.ofNode (node : NodeId) : Role := if node = 0 then .coordinator else .collaborator

def Role.name : Role → String
  | .coordinator => "coordinator"
  | .collaborator => "collaborator"

namespace Config

def displayInterval : String := "1"

def boardArgs (c : Config) : List String :=
  ["--grid", c.grid.toText, "--generations", toString c.generations.toNat, "--pattern", c.pattern,
    "--port", toString c.port.toNat, "--display-interval", displayInterval]

def coordinatorArgs (c : Config) : List String :=
  ["--manager", "--nodes", toString c.nodes.toNat] ++ c.boardArgs

def collaboratorArgs (c : Config) (node : NodeId) : List String :=
  ["--worker", "--node-id", toString node.toNat, "--nodes", toString c.nodes.toNat,
    "--manager-host", c.coordinatorHost] ++ c.boardArgs

def argsFor (c : Config) (node : NodeId) : List String :=
  match Role.ofNode node with
  | .coordinator => c.coordinatorArgs
  | .collaborator => c.collaboratorArgs node

end Config

/-! ## Launching nodes

The coordinator is started first and given time to listen; the collaborators follow in order, with a
pause after each. Launching is all or nothing: if a node cannot be started, those before it are ended
and nothing is left.

A launch goes from pause to pause. `Launch.begin` leads to the first one, `Launch.resume` from one to
the next.
-/

inductive Launch
  /-- These nodes are started, and the pause after the last of them lasts. -/
  | settling (handles : List NodeHandle)
  /-- A node could not be started, and those before it are being ended. -/
  | failing (error : ClusterError) (endings : List Ending)
  | launched (handles : List NodeHandle)
  | failed (error : ClusterError)
deriving DecidableEq, Repr

namespace Launch
variable {World : Type}

def fail (s : System World) (w : World) (handles : List NodeHandle) (error : ClusterError) :
    Launch × World :=
  let (endings, w) := Ending.forAll (Ending.begin s) w handles
  match Ending.results? endings with
  | some _ => (.failed error, w)
  | none => (.failing error endings, w)

/-- Starts the next node. If it cannot be started, all nodes end that are held from before or started
by this launch. -/
def spawnNext (s : System World) (c : Config) (held : List NodeHandle) (w : World)
    (handles : List NodeHandle) : Launch × World :=
  let node := UInt32.ofNat handles.length
  match s.spawn w c.executable node (c.argsFor node) with
  | (.ok pid, w) => (.settling (handles ++ [⟨node, pid⟩]), w)
  | (.error cause, w) => fail s w (held ++ handles) (.spawn node cause)

/-- Begins a launch: the program has to be there, and the coordinator is started. -/
def begin (s : System World) (c : Config) (held : List NodeHandle) (w : World) : Launch × World :=
  if s.pathExists w c.executable then spawnNext s c held w []
  else (.failed (.executableNotFound c.executable), w)

/-- Goes on when a pause is over, or with nodes that are ending; those that still live when their
time is over are killed. -/
def resume (s : System World) (c : Config) (held : List NodeHandle) (timeOver : Bool) (w : World) :
    Launch → Launch × World
  | .settling handles =>
    if !timeOver then (.settling handles, w)
    else if c.nodes.toNat ≤ handles.length then (.launched handles, w)
    else spawnNext s c held w handles
  | .failing error endings =>
    let (endings, w) := Ending.forAll (Ending.resume s timeOver) w endings
    match Ending.results? endings with
    | some _ => (.failed error, w)
    | none => (.failing error endings, w)
  | l => (l, w)

/-- The pause that a launch is in, in milliseconds. -/
def pause (c : Config) : Launch → Nat
  | .settling handles =>
    if handles.length ≤ 1 then c.timings.coordinatorSettle.toNat
    else c.timings.collaboratorSettle.toNat
  | .failing .. => c.timings.gracePeriod.toNat
  | _ => 0

end Launch

end ClusterWatch
