import ClusterWatch.Event.Basic
import ClusterWatch.Text.Characters

/-! # Configurations

What is needed to launch a cluster, and the errors that tell why none can be launched.
-/
namespace ClusterWatch
open Text

/-! ## Errors

What can go wrong with a cluster, and how it is told.
-/

inductive ClusterError
  | executableNotFound (path : String)
  | spawn (node : NodeId) (cause : String)
  | invalidConfig (reason : String)
  /-- The text of a configuration does not say one; a reason is given if the text is well formed and
  a value is refused for what it says. -/
  | configParse (reason : Option String)
  | invalidTransition (source target : String)
  | startAborted
  | io (cause : String)
deriving DecidableEq, Repr

namespace ClusterError

def message : ClusterError → String
  | executableNotFound path => s!"Executable not found: {path}"
  | spawn node cause => s!"Failed to spawn node {node.toNat}: {cause}"
  | invalidConfig reason => s!"Invalid configuration: {reason}"
  | configParse reason => "Failed to parse configuration: " ++ reason.getD "not a configuration"
  | invalidTransition source target => s!"Invalid state transition from {source} to {target}"
  | startAborted => "Start aborted by a concurrent stop"
  | io cause => s!"IO error: {cause}"

def cause? : ClusterError → Option String
  | spawn _ cause | io cause => some cause
  | configParse reason => some (reason.getD "not a configuration")
  | _ => none

def notAGrid (text : List Char) : ClusterError :=
  invalidConfig s!"grid must be WxH, got '{String.ofList text}'"

end ClusterError

/-! ## Grid sizes

The size of the grid that a cluster computes, written `WxH`. `Grid.parse?` also takes a capital `X`,
white space around each number and around the whole, a plus sign and leading zeros.
-/

structure Grid where
  width : UInt32
  height : UInt32
deriving DecidableEq, Repr

namespace Grid

def toText (g : Grid) : String := s!"{g.width.toNat}x{g.height.toNat}"

/-- A side: digits with at most one plus sign in front, and white space around. -/
def side? (cs : List Char) : Option UInt32 :=
  (signedNaturalBelow? UInt32.size (trim cs)).map UInt32.ofNat

def isSeparator (c : Char) : Bool := c == 'x' || c == 'X'

/-- The size that a text spells; the first separator divides it. -/
def parse? (cs : List Char) : Option Grid :=
  match (trim cs).dropWhile fun c => !isSeparator c with
  | [] => none
  | _ :: height =>
    match side? ((trim cs).takeWhile fun c => !isSeparator c), side? height with
    | some width, some height => some ⟨width, height⟩
    | _, _ => none

def read (cs : List Char) : Except ClusterError Grid :=
  match parse? cs with
  | some grid => .ok grid
  | none => .error (.notAGrid cs)

def hasCells (g : Grid) : Bool := g.width != 0 && g.height != 0

end Grid

/-! ## Configuration of a cluster

What is needed to launch a cluster, with the defaults of what is not given. `Config.check` tells
whether a cluster can be launched from it.
-/

/-- The pauses of launching and stopping, in milliseconds. -/
structure Timings where
  coordinatorSettle : UInt64 := 1000
  collaboratorSettle : UInt64 := 500
  /-- What a node gets to exit by itself before it is killed. -/
  gracePeriod : UInt64 := 2000
deriving DecidableEq, Repr

structure Config where
  executable : String := ""
  nodes : UInt32 := 2
  grid : Grid := ⟨100, 100⟩
  generations : UInt64 := 100
  pattern : String := "random"
  coordinatorHost : String := "127.0.0.1"
  port : UInt16 := 5000
  timings : Timings := {}
deriving DecidableEq, Repr

namespace Config

/-- Why no cluster can be launched from the configuration, if so. The number of nodes is looked at
first. -/
def fault? (c : Config) : Option ClusterError :=
  if c.nodes = 0 then some (.invalidConfig "at least one node is required")
  else if c.grid.hasCells then none
  else some (.invalidConfig s!"grid {c.grid.toText} has no cells")

def check (c : Config) : Except ClusterError Unit :=
  match c.fault? with
  | some e => .error e
  | none => .ok ()

theorem nodes_pos_of_check {c : Config} (h : c.check = .ok ()) : 0 < c.nodes.toNat := by
  have hne : c.nodes ≠ 0 := by
    intro hzero
    simp [check, fault?, hzero] at h
  exact Nat.pos_of_ne_zero fun hzero => hne (UInt32.toNat_inj.1 hzero)

end Config

end ClusterWatch
