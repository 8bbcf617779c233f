import ClusterWatch.Shell.Builtin
import ClusterWatch.Shell.Program

/-! # The shell machine

A script runs in small steps: `step` takes the top frame off the stack and does the next thing. A shell
within the shell, such as that of a command in a word, runs to its end in one step.
-/
namespace ClusterWatch.Shell
open Text Host

/-- Carries out redirections from left to right; `false` if one is impossible. -/
def redirect (inner : Runner) (s : Scene) : List Redirect → Bool × Scene
  | [] => (true, s)
  | r :: rs =>
    let (text, s) := wordText inner s r.target
    let name := String.ofList text
    let place := s.files.place? s.machine.directory name
    let lead (s : Scene) (sink : Sink) : Scene :=
      s.update fun m => { m with sinks := (r.stream, sink) :: m.sinks.filter (·.1 ≠ r.stream) }
    let refused (why : String) : Bool × Scene :=
      (false, s.complain s!"cannot open {name}: {why}")
    match r.kind with
    | .here => redirect inner (s.update ({ · with input := bytesOf text })) rs
    | .duplicate =>
      if name = "-" then redirect inner (lead s .closed) rs
      else
        match natural? text with
        | some n => redirect inner (if r.stream = 0 then s else lead s (s.sink n)) rs
        | none => refused "bad number"
    | .read =>
      if name = "/dev/null" then redirect inner (s.update ({ · with input := [] })) rs
      else
        match s.files.find? s.machine.directory name with
        | some (.file content _) =>
          redirect inner (s.update ({ · with input := content })) rs
        | _ => refused "No such file"
    | .write | .append =>
      if name = "/dev/null" then redirect inner (lead s .null) rs
      else if name = "/dev/stderr" then redirect inner (lead s (s.sink 2)) rs
      else if name = "/dev/stdout" then redirect inner (lead s (s.sink 1)) rs
      else
        let written := place.bind fun place =>
          let content := if r.kind = .append then (s.files.content? place).getD [] else []
          (s.files.write? place content).map (place, ·)
        match written with
        | some (place, files) => redirect inner (lead { s with files } (.file place)) rs
        | none => refused "Directory nonexistent"

/-- Whether a failing command may end the shell: the stack asks for no status. -/
def isUntested (stack : List Frame) : Bool :=
  stack.all fun
    | .ifSucceeded _ | .ifFailed _ | .negate | .decide _ _ | .tested .. => false
    | _ => true

/-- After a command: a shell that is to end on errors does so if it has failed. -/
def afterCommand (s : Scene) : Scene :=
  if s.machine.exitOnError && s.machine.status ≠ 0 && isUntested s.machine.stack then
    exitWith s s.machine.status
  else s

def assignAll (inner : Runner) (s : Scene) : List (String × Word) → Scene
  | [] => s
  | (name, word) :: rest =>
    let (text, s) := wordText inner s word
    assignAll inner (s.assign name text) rest

/-- The commands after which the assignments before them stay. -/
def isSpecial (name : String) : Bool :=
  [":", ".", "break", "continue", "eval", "exec", "exit", "export", "readonly", "return", "set",
    "shift", "times", "trap", "unset"].contains name

/-- Writes a command before it is carried out, if the shell does so: the values of its assignments, and
its words. It goes to the error output that the command does not redirect. -/
def traceCommand (s : Scene) (sinks : List (Nat × Sink)) (names : List String)
    (words : List (List Char)) : Scene :=
  if !s.machine.traces then s
  else
    let settings := names.map fun name => name.toList ++ '=' :: (s.valueOf? name).getD []
    let line := (s.valueOf? "PS4").getD "+ ".toList ++ joinWords (settings ++ words) ++ ['\n']
    let after := (s.update ({ · with sinks })).write 2 (bytesOf line)
    after.update fun m => { m with sinks := s.machine.sinks, status := s.machine.status }

def runSimple (inner : Runner) (s : Scene) (assignments : List (String × Word)) (words : List Word)
    (redirects : List Redirect) : Scene × Outcome :=
  let before := s.machine
  let s := s.withStatus 0
  let (fields, s) := wordFields inner (s.withStatus before.status) words
  let restored (s : Scene) : Scene :=
    let s := s.update ({ · with sinks := before.sinks })
    if redirects.any (·.stream = 0) then s.update ({ · with input := before.input }) else s
  if s.broken then (exitWith { s with broken := false } 2, .goesOn)
  else
    match fields with
    | [] =>
      let s := if words.isEmpty then s.withStatus 0 else s
      let (ok, s) := redirect inner s redirects
      let s := assignAll inner s assignments
      let s := if assignments.isEmpty then s
        else traceCommand s before.sinks (assignments.map (·.1)) []
      let s := restored s
      if s.broken then (exitWith { s with broken := false } 2, .goesOn)
      else (afterCommand (if ok then s else s.withStatus 1), .goesOn)
    | name :: args =>
      let (ok, s) := redirect inner s redirects
      if !ok then (afterCommand ((restored s).withStatus 1), .goesOn)
      else
        let text := String.ofList name
        let (text, name, args) : String × List Char × List (List Char) :=
          if text = "command" ∧ (args.head?.any fun a => a.head? ≠ some '-') then
            (String.ofList (args.headD []), args.headD [], args.tail)
          else (text, name, args)
        let saved := if isSpecial text then []
          else assignments.map fun (name, _) => (name, s.valueOf? name)
        let s := assignAll inner s assignments
        let s := traceCommand s before.sinks (assignments.map (·.1)) fields
        let sharing (s : Scene) : Scene := s.update fun m => { m with
          exported := assignments.map (·.1) ++ m.exported }
        match s.machine.functions.find? (·.1 = text) with
        | some (_, body) =>
          let undo : Frame := .restore before.sinks
            (if redirects.any (·.stream = 0) then some before.input else none)
          (s.update fun m => { m with
            arguments := args
            stack := .run body :: .leave m.arguments [] :: .forget saved :: undo :: m.stack },
            .goesOn)
        | none =>
          if text = "exec" then
            match args with
            | [] => (s.withStatus 0, .goesOn)
            | name :: args => (replaceShell (sharing s) name args, .goesOn)
          else if text = "wait" then
            (restored (s.withStatus 0), .waits (args.head?.bind natural?))
          else if text = "command" ∨ text = "type" then
            let names := args.filter fun a => a.head? ≠ some '-'
            let known := names.all fun n =>
              (builtin? (String.ofList n)).isSome || (s.start n []).isOk
            (afterCommand (restored (s.withStatus (if known then 0 else 127))), .goesOn)
          else
            match builtin? text with
            | some act => (afterCommand (restored ((act s args).resetAll saved)), .goesOn)
            | none =>
              let s := (runProgram inner (sharing s) name args).update
                ({ · with exported := before.exported })
              (afterCommand (restored (s.resetAll saved)), .goesOn)

def runInner (inner : Runner) (s : Scene) (c : Command) (change : Machine → Machine) : Scene :=
  let m := s.machine
  inner { s with
    machine := change { m with
      stack := [.run c], captured := [], traps := m.traps.filter (·.2.isEmpty) } }

def runCommand (inner : Runner) (s : Scene) : Command → Scene × Outcome
  | .nothing => (s, .goesOn)
  | .simple assignments words redirects => runSimple inner s assignments words redirects
  | .sequence c d => (s.push [.run c, .run d], .goesOn)
  | .both c d => (s.push [.run c, .ifSucceeded d], .goesOn)
  | .either c d => (s.push [.run c, .ifFailed d], .goesOn)
  | .negated c => (s.push [.run c, .negate], .goesOn)
  | .pipe c d =>
    let m := s.machine
    let first := runInner inner s c fun m =>
      { m with sinks := (1, .capture) :: m.sinks.filter (·.1 ≠ 1) }
    let written := first.machine.captured
    let second := runInner inner { first with machine := m } d ({ · with input := written })
    (afterCommand { second with machine := { m with
      status := second.machine.status, captured := m.captured ++ second.machine.captured } }, .goesOn)
  | .background c =>
    let m := s.machine
    let child := { m with
      pid := s.nextPid, stack := [.run c], traps := m.traps.filter (·.2.isEmpty), pending := []
      lastChild := none, input := [] }
    ({ s with
      machine := { m with status := 0, lastChild := some s.nextPid }
      forked := s.forked ++ [child], nextPid := s.nextPid + 1 }, .goesOn)
  | .branch condition yes no => (s.push [.run condition, .decide yes no], .goesOn)
  | .loop isUntil condition body =>
    (s.push [.run condition, .tested isUntil condition body 0], .goesOn)
  | .each name words body =>
    let (values, s) := match words with
      | some words => wordFields inner s words
      | none => (s.machine.arguments, s)
    if s.broken then (exitWith { s with broken := false } 2, .goesOn)
    else ((s.withStatus 0).push [.each name values body], .goesOn)
  | .choose subject arms =>
    let (text, s) := wordText inner s subject
    ((s.assign " subject" text).push [.run arms], .goesOn)
  | .arm patterns body rest =>
    let subject := (s.valueOf? " subject").getD []
    let (hit, s) := patterns.foldl (fun (hit, s) pattern =>
      if hit then (hit, s)
      else
        let (segments, s) := expand inner (wordFuel pattern) s pattern
        (matchesAll (Glob.ofMarked (marked segments)) subject, s)) (false, s)
    if hit then ((s.withStatus 0).push [.run body], .goesOn)
    else if rest = .nothing then (s.withStatus 0, .goesOn)
    else (s.push [.run rest], .goesOn)
  | .group c redirects =>
    let before := s.machine
    if redirects.isEmpty then (s.push [.run c], .goesOn)
    else
      let (ok, s) := redirect inner s redirects
      if ok then
        (s.push [.run c, .restore before.sinks
          (if redirects.any (·.stream = 0) then some before.input else none)], .goesOn)
      else ((s.update ({ · with sinks := before.sinks, input := before.input })).withStatus 1, .goesOn)
  | .subshell c redirects =>
    let m := s.machine
    let (ok, s) := redirect inner s redirects
    if ok then
      let after := runInner inner s c id
      (afterCommand { after with machine := { m with
        status := after.machine.status, captured := m.captured ++ after.machine.captured } }, .goesOn)
    else ({ s with machine := { m with status := 1 } }, .goesOn)
  | .function name body =>
    (s.update fun m => { m with
      status := 0, functions := (name, body) :: m.functions.filter (·.1 ≠ name) }, .goesOn)

/-- Puts the action of the first signal that has come on the stack. -/
def startTrap? (s : Scene) : Option Scene :=
  match s.machine.pending with
  | [] => none
  | signal :: pending =>
    let s := s.update ({ · with pending })
    match s.machine.traps.find? (·.1 = signal) with
    | some (_, action) => some (s.push [.script action, .trapped s.machine.status])
    | none => some s

def step (inner : Runner) (s : Scene) : Scene × Outcome :=
  match startTrap? s with
  | some s => (s, .goesOn)
  | none =>
    match s.machine.stack with
    | [] => (exitWith s s.machine.status, .goesOn)
    | frame :: stack =>
      let s := s.update ({ · with stack })
      let status := s.machine.status
      match frame with
      | .fail message status =>
        ((s.write 2 (bytesOf (message ++ ['\n']))).update ({ · with status, stack := [.ended status] }),
          .goesOn)
      | .ended status => (s.update ({ · with status, stack := [.ended status] }), .ended status)
      | .script source =>
        match nextCommand source with
        | .finished => (s, .goesOn)
        | .malformed => (exitWith (s.complain "Syntax error") 2, .goesOn)
        | .command c rest => (s.push [.run c, .script rest], .goesOn)
      | .run c => runCommand inner s c
      | .ifSucceeded c => (if status = 0 then s.push [.run c] else s, .goesOn)
      | .ifFailed c => (if status ≠ 0 then s.push [.run c] else s, .goesOn)
      | .negate => (s.withStatus (if status = 0 then 1 else 0), .goesOn)
      | .decide yes no =>
        if status = 0 then ((s.withStatus 0).push [.run yes], .goesOn)
        else ((if no = .nothing then s.withStatus 0 else s).push [.run no], .goesOn)
      | .tested isUntil condition body last =>
        if (status == 0) != isUntil then (s.push [.run body, .again isUntil condition body], .goesOn)
        else (s.withStatus last, .goesOn)
      | .again isUntil condition body =>
        (s.push [.run condition, .tested isUntil condition body status], .goesOn)
      | .each name values body =>
        match values with
        | [] => (s, .goesOn)
        | v :: vs => ((s.assign name v).push [.run body, .each name vs body], .goesOn)
      | .restore sinks input =>
        (s.update fun m => { m with sinks, input := input.getD m.input }, .goesOn)
      | .leave arguments saved => ((s.update ({ · with arguments })).resetAll saved, .goesOn)
      | .forget saved => (s.resetAll saved, .goesOn)
      | .trapped status => (s.withStatus status, .goesOn)

/-- Runs a shell to its end; the fuel bounds the number of its steps, those of the shells within it
included. Waiting for processes is left out. -/
def runToEnd : (fuel : Nat) → Runner
  | 0, s => s
  | fuel + 1, s =>
    match step (runToEnd fuel) s with
    | (s, .ended _) => s
    | (s, _) => runToEnd fuel s

def innerFuel : Nat := 200000

end ClusterWatch.Shell
