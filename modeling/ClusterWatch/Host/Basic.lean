import ClusterWatch.Session.System
import ClusterWatch.Shell.Machine

/-! # A host

A host runs the processes of a session on a clock of its own. Its processes are shells; each goes on
at some time, takes a step, and goes on again a little later, or after the program that it waits for.
`Host.advance` lets time pass up to a moment, and `Host.system` is the host as a session sees it.
-/
namespace ClusterWatch.Host
open Shell

/-- A process. All processes that come from one launch write to the pipes of that launch. -/
structure Process where
  machine : Machine
  parent : Option Pid
  launch : Pid
  wakeAt : Nat
  inProgram : Bool := false
  quiet : Bool := false
  /-- It waits for one of the processes that it has started, or for all. -/
  waiting : Option (Option Pid) := none
  alive : Bool := true

/-- The two pipes of a launch: what is written and not yet read. -/
structure Pipes where
  launch : Pid
  output : List UInt8 := []
  errors : List UInt8 := []
  /-- Programs that are left over hold the pipes up to this time. -/
  heldUntil : Nat := 0
  /-- Nobody reads from the pipes any more: who writes to them gets a signal. -/
  broken : Bool := false

/-- Microseconds from one step of a process to the next. -/
def stepTime : Nat := 10

def standardFiles : Files where
  entries :=
    (["boot", "dev", "etc", "home", "media", "mnt", "opt", "proc", "root", "run", "srv", "sys", "tmp",
      "usr", "var", "work"].map fun name => ([name], .directory)) ++
    (["bin", "include", "lib", "local", "sbin", "share", "src"].map fun name =>
      (["usr", name], .directory)) ++
    (["bin", "lib", "sbin"].map fun name => ([name], .link ["usr", name])) ++
    (["bin", "lib", "sbin", "share"].map fun name => (["usr", "local", name], .directory)) ++
    (["cache", "lib", "log", "tmp"].map fun name => (["var", name], .directory)) ++
    (["full", "null", "random", "tty", "urandom", "zero"].map fun name =>
      (["dev", name], .file [] false)) ++
    [(["etc", "passwd"], .file (bytesOf "root:x:0:0:root:/root:/bin/bash\n".toList) false)] ++
    programNames.map fun name => (["usr", "bin", name], .program name)

end ClusterWatch.Host

namespace ClusterWatch
open Host Shell

/-- A host: its time in microseconds, its files and its processes. -/
structure Host where
  now : Nat := 0
  files : Files
  directory : Path
  processes : List Process := []
  pipes : List Pipes := []
  nextPid : Pid := 100
  environment : List (String × List Char) := []

namespace Host

def process? (h : Host) (pid : Pid) : Option Process :=
  h.processes.find? (·.machine.pid = pid)

def isAlive (h : Host) (pid : Pid) : Bool := (h.process? pid).any (·.alive)

def modify (h : Host) (pid : Pid) (f : Process → Process) : Host :=
  { h with processes := h.processes.map fun p => if p.machine.pid = pid then f p else p }

def emit (h : Host) (launch : Pid) (toErrors : Bool) (bytes : List UInt8) : Host :=
  { h with pipes := h.pipes.map fun p =>
      if p.launch ≠ launch then p
      else if toErrors then { p with errors := p.errors ++ bytes }
      else { p with output := p.output ++ bytes } }

def hasChildren (h : Host) (pid : Pid) : Bool :=
  h.processes.any fun p => p.alive && p.parent = some pid

def hasToWait (h : Host) (pid : Pid) : Option Pid → Bool
  | some child => h.isAlive child
  | none => h.hasChildren pid

def waitStatus (h : Host) (child : Option Pid) : Nat :=
  match child with
  | some child => ((h.process? child).map (·.machine.status)).getD 127
  | none => 0

def wakeWaiting (h : Host) : Host :=
  { h with processes := h.processes.map fun p =>
      match p.waiting with
      | some child =>
        if h.hasToWait p.machine.pid child then p
        else { p with
          waiting := none, wakeAt := h.now
          machine := { p.machine with status := h.waitStatus child } }
      | none => p }

/-- A process dies. A program that it waits for lives on and holds the pipes. -/
def die (h : Host) (pid : Pid) : Host :=
  match h.process? pid with
  | some p =>
    let h := h.modify pid fun p => { p with alive := false, waiting := none }
    let h := if p.inProgram && !p.quiet then { h with pipes := h.pipes.map fun q =>
        if q.launch = p.launch then { q with heldUntil := max q.heldUntil p.wakeAt } else q }
      else h
    h.wakeWaiting
  | none => h

/-- A process gets a signal: it is ignored, caught, or the process dies. -/
def signal (h : Host) (pid : Pid) (name : String) : Host :=
  match h.process? pid with
  | none => h
  | some p =>
    let ended := h.modify pid fun p =>
      { p with machine := { p.machine with status := signalStatus name } }
    if !p.alive then h
    else if name = "KILL" then ended.die pid
    else if p.machine.ignored.contains name then h
    else
      match p.machine.traps.find? (·.1 = name) with
      | some (_, action) =>
        if action.isEmpty then h
        else h.modify pid fun p =>
          { p with
            machine := { p.machine with pending := p.machine.pending ++ [name] }
            wakeAt := if p.waiting.isSome then h.now else p.wakeAt
            waiting := none }
      | none => if name = "CHLD" ∨ name = "CONT" ∨ name = "STOP" then h else ended.die pid

def stepProcess (h : Host) (p : Process) (time : Nat) : Host :=
  let pid := p.machine.pid
  let (scene, outcome) := Shell.step (runToEnd innerFuel)
    { machine := p.machine, files := h.files, nextPid := h.nextPid }
  let isLast := match scene.machine.stack with
    | [.ended _] => true
    | _ => false
  let next : Process := { p with
    machine := scene.machine
    wakeAt := time + stepTime + scene.elapsed
    inProgram := scene.elapsed ≠ 0 && !isLast
    quiet := scene.quiet }
  let next := match outcome with
    | .waits child =>
      if h.hasToWait pid child then { next with waiting := some child }
      else { next with machine := { next.machine with status := h.waitStatus child } }
    | _ => next
  let children := scene.forked.map fun m =>
    { machine := m, parent := some pid, launch := p.launch, wakeAt := time + startTime : Process }
  let h := { h with
    files := scene.files, nextPid := scene.nextPid
    processes := h.processes.map (fun q => if q.machine.pid = pid then next else q) ++ children }
  let h := scene.emitted.reverse.foldl (fun h (toErrors, bytes) =>
    h.emit p.launch toErrors bytes) h
  let isBroken := h.pipes.any fun q => q.launch = p.launch && q.broken
  let h := if isBroken && !scene.emitted.isEmpty then h.signal pid "PIPE" else h
  let h := scene.signals.foldl (fun h (pid, name) => h.signal pid name) h
  match outcome with
  | .ended _ => h.die pid
  | _ => h

/-- The living process that goes on first, of several the one that was started first. -/
def nextProcess? (h : Host) : Option Process :=
  h.processes.foldl (fun best p =>
    if p.alive && p.waiting.isNone then
      match best with
      | some b => if p.wakeAt < b.wakeAt then some p else best
      | none => some p
    else best) none

def advance (h : Host) (target : Nat) : Host :=
  if h.now < target then
    match h.nextProcess? with
    | some p =>
      if p.wakeAt < target then
        advance { h.stepProcess p (max h.now p.wakeAt) with now := max h.now p.wakeAt + 1 } target
      else { h with now := target }
    | none => { h with now := target }
  else h
termination_by target - h.now
decreasing_by omega

/-- Whether a process holds the pipes of its launch. A process that another one has started becomes the
program of its last command. -/
def holdsPipes (p : Process) : Bool :=
  p.alive && p.machine.holdsPipes && !(p.parent.isSome && p.machine.stack.isEmpty && p.quiet)

def isClosed (h : Host) (launch : Pid) : Bool :=
  !(h.processes.any fun p => p.launch = launch && holdsPipes p) &&
    (h.pipes.all fun p => p.launch ≠ launch || p.heldUntil ≤ h.now)

def takeOutput (h : Host) (launch : Pid) : List UInt8 × List UInt8 × Host :=
  match h.pipes.find? (·.launch = launch) with
  | some p =>
    (p.output, p.errors, { h with pipes := h.pipes.map fun q =>
      if q.launch = launch then { q with output := [], errors := [] } else q })
  | none => ([], [], h)

/-- Nobody reads any more what is written to the pipes of a launch. -/
def breakPipes (h : Host) (launch : Pid) : Host :=
  { h with pipes := h.pipes.map fun q => if q.launch = launch then { q with broken := true } else q }

def pathExists (h : Host) (path : String) : Bool :=
  !path.contains (Char.ofNat 0) && (h.files.find? h.directory path).isSome

def refusalText : Refusal → String
  | .missing => "No such file or directory (os error 2)"
  | .forbidden => "Permission denied (os error 13)"
  | .unreadable => "Exec format error (os error 8)"
  | .tangled => "Too many levels of symbolic links (os error 40)"

/-- The bytes that one argument of a program may have. -/
def argumentLimit : Nat := 131072

def spawn (h : Host) (path : String) (args : List String) : Except String Pid × Host :=
  if (path :: args).any (·.contains (Char.ofNat 0)) then
    (.error "nul byte found in provided data", h)
  else if args.any (argumentLimit ≤ ·.utf8ByteSize) then
    (.error "Argument list too long (os error 7)", h)
  else
    let words := args.map String.toList
    let search := ((h.environment.find? (·.1 = "PATH")).map (·.2)).getD standardSearch
    match startNamed h.files h.directory search path.toList words with
    | .error refusal => (.error (refusalText refusal), h)
    | .ok _ =>
      let command := ("exec".toList :: path.toList :: words).map fun w => [Part.text true w]
      let machine : Machine := {
        pid := h.nextPid, shellPid := h.nextPid, name := path.toList, arguments := words
        stack := [.run (.simple [] command [])]
        bindings := h.environment, exported := h.environment.map (·.1), directory := h.directory }
      (.ok h.nextPid, { h with
        processes := h.processes ++
          [{ machine, parent := none, launch := h.nextPid, wakeAt := h.now + startTime }]
        pipes := h.pipes ++ [{ launch := h.nextPid }]
        nextPid := h.nextPid + 1 })

def system : System Host where
  pathExists := Host.pathExists
  spawn h path _ args := h.spawn path args
  isAlive := Host.isAlive
  requestExit h pid := h.signal pid "TERM"
  kill h pid := h.signal pid "KILL"

end Host

end ClusterWatch
