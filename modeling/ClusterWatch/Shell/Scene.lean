import ClusterWatch.Host.Files
import ClusterWatch.Shell.Format
import ClusterWatch.Shell.Syntax
import ClusterWatch.Text.Characters

/-! # Shells and their scenes

The state of a shell holds a stack of frames that says what is still to be done. What a step of a shell
does outside of it is gathered in the scene: writing to the pipes of the process, changing files, time,
signals to processes, new processes.
-/
namespace ClusterWatch.Shell
open Text Host

inductive Sink
  | output
  | errors
  | null
  /-- The text of a command in a word, or the pipe to the next command. -/
  | capture
  | file (place : Path)
  | closed
deriving DecidableEq, Repr

inductive Frame
  | script (source : List Char)
  | run (c : Command)
  | ifSucceeded (c : Command)
  | ifFailed (c : Command)
  | negate
  | decide (yes no : Command)
  /-- The condition of a loop is through; the number is the status of the last round. -/
  | tested (isUntil : Bool) (condition body : Command) (last : Nat)
  | again (isUntil : Bool) (condition body : Command)
  | each (name : String) (values : List (List Char)) (body : Command)
  | restore (sinks : List (Nat × Sink)) (input : Option (List UInt8))
  /-- A function is through: the arguments and the variables that were its own get back what they
  were. -/
  | leave (arguments : List (List Char)) (saved : List (String × Option (List Char)))
  | forget (saved : List (String × Option (List Char)))
  | trapped (status : Nat)
  | ended (status : Nat)
  | fail (message : List Char) (status : Nat)
deriving DecidableEq, Repr

structure Machine where
  pid : Nat
  /-- The number of the shell that runs the script, for all shells within it. -/
  shellPid : Nat
  name : List Char
  arguments : List (List Char)
  bindings : List (String × List Char) := []
  /-- The variables that the programs which the shell starts get to know. -/
  exported : List String := []
  functions : List (String × Command) := []
  /-- The actions of traps; an empty action ignores the signal. -/
  traps : List (String × List Char) := []
  ignored : List String := []
  /-- The signals that have come and whose actions have not run. -/
  pending : List String := []
  status : Nat := 0
  sinks : List (Nat × Sink) := [(1, .output), (2, .errors)]
  input : List UInt8 := []
  stack : List Frame
  lastChild : Option Nat := none
  directory : Path
  exitOnError : Bool := false
  unsetIsError : Bool := false
  /-- Commands are written to the error output before they are carried out. -/
  traces : Bool := false
  captured : List UInt8 := []

def Sink.isPipe (s : Sink) : Bool := s = .output || s = .errors

/-- Whether a stream of the shell leads to a pipe of the process, now or after a redirection. -/
def Machine.holdsPipes (m : Machine) : Bool :=
  m.sinks.any (·.2.isPipe) || m.stack.any fun
    | .restore sinks _ => sinks.any (·.2.isPipe)
    | _ => false

structure Scene where
  machine : Machine
  files : Files
  /-- Bytes written to the pipes, the last ones first; `true` stands for the error output. -/
  emitted : List (Bool × List UInt8) := []
  /-- Microseconds in which the shell waits for a program. -/
  elapsed : Nat := 0
  /-- That program has no stream that leads to a pipe of the process. -/
  quiet : Bool := false
  signals : List (Nat × String) := []
  forked : List Machine := []
  nextPid : Nat
  broken : Bool := false

inductive Outcome
  | goesOn
  /-- The shell waits for one of the processes that it has started, or for all. -/
  | waits (pid : Option Nat)
  | ended (status : Nat)
deriving DecidableEq, Repr

def startTime : Nat := 700

namespace Scene

def update (s : Scene) (f : Machine → Machine) : Scene := { s with machine := f s.machine }

def withStatus (s : Scene) (status : Nat) : Scene := s.update ({ · with status })

def push (s : Scene) (frames : List Frame) : Scene :=
  s.update fun m => { m with stack := frames ++ m.stack }

def sink (s : Scene) (stream : Nat) : Sink :=
  ((s.machine.sinks.find? (·.1 = stream)).map (·.2)).getD .closed

def write (s : Scene) (stream : Nat) (bytes : List UInt8) : Scene :=
  match s.sink stream with
  | .output => { s with emitted := (false, bytes) :: s.emitted }
  | .errors => { s with emitted := (true, bytes) :: s.emitted }
  | .null => s
  | .capture => s.update fun m => { m with captured := m.captured ++ bytes }
  | .file place =>
    match s.files.write? place ((s.files.content? place).getD [] ++ bytes) with
    | some files => { s with files }
    | none => s
  | .closed => s.withStatus 1

def complain (s : Scene) (message : String) : Scene :=
  s.write 2 (bytesOf (s.machine.name ++ ": ".toList ++ message.toList ++ ['\n']))

def valueOf? (s : Scene) (name : String) : Option (List Char) :=
  (s.machine.bindings.find? (·.1 = name)).map (·.2)

def assign (s : Scene) (name : String) (value : List Char) : Scene :=
  s.update fun m => { m with bindings := (name, value) :: m.bindings.filter (·.1 ≠ name) }

def reset (s : Scene) (name : String) (value : Option (List Char)) : Scene :=
  match value with
  | some value => s.assign name value
  | none => s.update fun m => { m with bindings := m.bindings.filter (·.1 ≠ name) }

def resetAll (s : Scene) (saved : List (String × Option (List Char))) : Scene :=
  saved.foldl (fun s (name, value) => s.reset name value) s

def placeText (place : Path) : List Char := '/' :: (String.intercalate "/" place).toList

def parameter? (s : Scene) (name : String) : Option (List Char) :=
  let m := s.machine
  match name with
  | "@" | "*" => if m.arguments.isEmpty then none else some (joinWords m.arguments)
  | "#" => some (toString m.arguments.length).toList
  | "?" => some (toString m.status).toList
  | "$" => some (toString m.shellPid).toList
  | "!" => m.lastChild.map fun p => (toString p).toList
  | "-" => some []
  | _ =>
    match natural? name.toList with
    | some 0 => some m.name
    | some (n + 1) => m.arguments[n]?
    | none =>
      (s.valueOf? name).or (if name = "PWD" then some (placeText m.directory) else none)

end Scene

end ClusterWatch.Shell
