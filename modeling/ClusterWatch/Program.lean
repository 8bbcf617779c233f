import ClusterWatch.CommandLine
import ClusterWatch.Config.Toml
import ClusterWatch.Follow

/-! # The program

A run of the whole program: the command line is read, the configuration with it, the session is
started, followed and stopped, and the summary is printed. Every failure is told with its causes.
-/
namespace ClusterWatch
open Host Time

structure Invocation where
  arguments : List (List Char)
  environment : List (String × String) := []
  host : Host
  /-- The output goes to a terminal. -/
  toTerminal : Bool := false
  /-- After so many lines the user interrupts. -/
  interruptAfter : Option Nat := none
  /-- The time of an event in JSON. -/
  time : Instant → List Char := Instant.toChars

structure RunResult where
  code : Nat := 0
  output : List (List Char) := []
  errors : List (List Char) := []
deriving DecidableEq, Repr

namespace Invocation

def valueOf? (i : Invocation) (name : String) : Option String :=
  (i.environment.find? (·.1 = name)).map (·.2)

/-- A switch in the environment: `0` is off, anything else on. -/
def switch? (i : Invocation) (name : String) : Option Bool := (i.valueOf? name).map (· ≠ "0")

/-- Whether colors are used: they can be forced and forbidden, and are else for terminals. -/
def colors (i : Invocation) : Bool :=
  if i.switch? "CLICOLOR_FORCE" = some true then true
  else if (i.valueOf? "NO_COLOR").isSome then false
  else (i.switch? "CLICOLOR").getD true && i.toTerminal

end Invocation

/-- The spaces before a line of a cause: the first one may have a number. -/
def causeIndent (number : Option Nat) (isFirst : Bool) : List Char :=
  match number with
  | none => List.replicate 4 ' '
  | some n => if isFirst then padLeft 5 (numberText n) ++ [':', ' '] else List.replicate 7 ' '

def causeLines (number : Option Nat) (cause : String) : List (List Char) :=
  match splitLines cause.toList with
  | [] => []
  | line :: more =>
    (causeIndent number true ++ line) :: more.map (causeIndent number false ++ ·)

/-- What is told about a failure: what could not be done, and why. Several causes are numbered. -/
def failureText (context : String) (causes : List String) : List (List Char) :=
  let numbered := causes.length ≠ 1
  ("Error: " ++ context).toList ::
    if causes.isEmpty then []
    else [] :: "Caused by:".toList ::
      (causes.zipIdx.flatMap fun (cause, n) => causeLines (if numbered then some n else none) cause)

def RunResult.failed (context : String) (e : ClusterError) : RunResult where
  code := 1
  errors := failureText context (e.message :: e.cause?.toList)

def RunResult.stopped : ArgumentStop → RunResult
  | .help => { output := CommandLine.help.map String.toList }
  | .version => { output := CommandLine.version.map String.toList }
  | stop => { code := 2, errors := [stop.message.toList] }

namespace Invocation

/-- The session has been started: it is followed and stopped, and summed up unless JSON is wanted. -/
def afterStart (i : Invocation) (o : Options) (r : Rehearsal) : RunResult :=
  let view : View := { json := o.json, colors := i.colors, time := i.time }
  let (follower, r) := r.follow
    { view, poll := o.pollMs.toNat, interruptAfter := i.interruptAfter }
  let r := r.stop
  let output := follower.shown.map view.event
  if o.json then { output }
  else
    let (lines, e) := view.summary r.controller.config.nodes r.controller.feed.tracker follower.stats
    match e with
    | none => { output := output ++ lines }
    | some e => { code := 101, output := output ++ lines, errors := [e.message.toList] }

def withConfig (i : Invocation) (o : Options) (c : Config) : RunResult :=
  if c.executable.isEmpty then
    { code := 1
      errors := failureText
        s!"No executable given; pass --executable or set it in {o.config}" [] }
  else
    let environment := i.environment.map fun (name, value) => (name, value.toList)
    let host := { i.host with environment }
    match Rehearsal.start { controller := { config := c }, host } with
    | (.error e, _) => .failed "Failed to start Game of Life nodes" e
    | (.ok (), r) => i.afterStart o r

def run (i : Invocation) : RunResult :=
  match Options.ofArguments i.arguments with
  | .error stop => .stopped stop
  | .ok o =>
    match Config.ofFile? (i.host.files.find? i.host.directory o.config) with
    | .error e => .failed s!"Failed to load {o.config}" e
    | .ok c => i.withConfig o (o.applyTo c)

end Invocation

end ClusterWatch
