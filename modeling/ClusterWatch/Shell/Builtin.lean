import ClusterWatch.Shell.Condition
import ClusterWatch.Text.Characters

/-! # Commands of the shell itself

The commands that change the shell: its variables and arguments, its traps, what is left of its loops
and functions, and its end.
-/
namespace ClusterWatch.Shell
open Text Host

def signalName? (text : List Char) : Option String :=
  let name := String.ofList (text.map Char.toUpper)
  let name := if name.startsWith "SIG" then (name.drop 3).toString else name
  match name with
  | "0" | "EXIT" => some "EXIT"
  | "1" | "HUP" => some "HUP"
  | "2" | "INT" => some "INT"
  | "3" | "QUIT" => some "QUIT"
  | "9" | "KILL" => some "KILL"
  | "10" | "USR1" => some "USR1"
  | "12" | "USR2" => some "USR2"
  | "13" | "PIPE" => some "PIPE"
  | "14" | "ALRM" => some "ALRM"
  | "15" | "TERM" => some "TERM"
  | "17" | "CHLD" => some "CHLD"
  | "18" | "CONT" => some "CONT"
  | "19" | "STOP" => some "STOP"
  | _ => none

/-- Sets or takes away the action for a signal. Signals ignored from the start stay so. -/
def setTrap (m : Machine) (signal : String) (action : Option (List Char)) : Machine :=
  if m.ignored.contains signal then m
  else { m with
    traps := action.toList.map (signal, ·) ++ m.traps.filter (·.1 ≠ signal) }

def trapCommand (s : Scene) (args : List (List Char)) : Scene :=
  let args := match args with
    | ['-', '-'] :: rest => rest
    | _ => args
  match args with
  | [] => s.withStatus 0
  | [signal] =>
    match signalName? signal with
    | some name => (s.update (setTrap · name none)).withStatus 0
    | none => s.withStatus 1
  | action :: signals =>
    let action? := if action = ['-'] then none else some action
    signals.foldl (fun s signal =>
      match signalName? signal with
      | some name => s.update (setTrap · name action?)
      | none => s.withStatus 1) (s.withStatus 0)

def signalStatus (name : String) : Nat :=
  match name with
  | "HUP" => 129
  | "INT" => 130
  | "QUIT" => 131
  | "KILL" => 137
  | "USR1" => 138
  | "USR2" => 140
  | "PIPE" => 141
  | "ALRM" => 142
  | _ => 143

def unwindFunction (stack : List Frame) : List Frame :=
  stack.dropWhile fun
    | .leave .. => false
    | _ => true

/-- Takes frames off up to so many loops. The loop that is left is taken off too, the one that goes on
is not. -/
def unwindLoops (leaves : Bool) : (depth : Nat) → List Frame → List Frame
  | _, [] => []
  | depth, f :: fs =>
    match f with
    | .again .. | .each .. | .tested .. =>
      match depth with
      | 0 | 1 => if leaves then fs else
          match f with
          | .tested isUntil c b _ => .again isUntil c b :: fs
          | f => f :: fs
      | depth + 1 => unwindLoops leaves depth fs
    | .leave .. => f :: fs
    | _ => unwindLoops leaves depth fs

/-- Ends the shell, after the action of its exit trap. -/
def exitWith (s : Scene) (status : Nat) : Scene :=
  match s.machine.traps.find? (·.1 = "EXIT") with
  | some (_, action) =>
    let s := s.update (setTrap · "EXIT" none)
    if action.isEmpty then s.update ({ · with status, stack := [.ended status] })
    else s.update ({ · with status, stack := [.script action, .ended status] })
  | none => s.update ({ · with status, stack := [.ended status] })

def countArgument (args : List (List Char)) (default : Nat) : Nat :=
  match args with
  | a :: _ => ((integer? a).getD default).toNat
  | [] => default

def setCommand (s : Scene) : List (List Char) → Scene
  | [] => s
  | ['-', '-'] :: args => s.update ({ · with arguments := args })
  | ('-' :: letters) :: args =>
    setCommand (s.update fun m => { m with
      exitOnError := m.exitOnError || letters.contains 'e'
      unsetIsError := m.unsetIsError || letters.contains 'u'
      traces := m.traces || letters.contains 'x' }) args
  | ('+' :: letters) :: args =>
    setCommand (s.update fun m => { m with
      exitOnError := m.exitOnError && !letters.contains 'e'
      unsetIsError := m.unsetIsError && !letters.contains 'u'
      traces := m.traces && !letters.contains 'x' }) args
  | args => s.update ({ · with arguments := args })

/-- The text without separators at its beginning that are white space. -/
def dropSpace (isSeparator : Char → Bool) (cs : List Char) : List Char :=
  cs.dropWhile fun c => isSeparator c && isBlank c

/-- What follows a field: at most one separator that is no white space goes. -/
def dropSeparator (isSeparator : Char → Bool) (cs : List Char) : List Char :=
  match dropSpace isSeparator cs with
  | c :: rest => if isSeparator c then dropSpace isSeparator rest else c :: rest
  | [] => []

/-- Gives the fields of a line to variables; the last one gets all that is left. -/
def readFields (isSeparator : Char → Bool) (s : Scene) (line : List Char) : List String → Scene
  | [] => s
  | [name] => s.assign name (dropSpace isSeparator (dropSpace isSeparator line).reverse).reverse
  | name :: names =>
    let line := dropSpace isSeparator line
    let field := line.takeWhile fun c => !isSeparator c
    readFields isSeparator (s.assign name field) (dropSeparator isSeparator (line.drop field.length))
      names

def readCommand (s : Scene) (args : List (List Char)) : Scene :=
  let names := (args.filter fun a => a.head? ≠ some '-').map String.ofList
  let names := if names.isEmpty then ["REPLY"] else names
  let line := s.machine.input.takeWhile (· ≠ 10)
  let rest := s.machine.input.drop line.length
  let s := s.update ({ · with input := rest.drop 1 })
  let separators := (s.valueOf? "IFS").getD [' ', '\t', '\n']
  (readFields separators.contains s (decodeLossy line) names).withStatus
    (if rest.isEmpty then 1 else 0)

def killCommand (s : Scene) (args : List (List Char)) : Scene :=
  let (signal, pids) : Option String × List (List Char) := match args with
    | ['-', 's'] :: name :: rest => (signalName? name, rest)
    | ('-' :: name) :: rest =>
      (if name = ['0'] then some "0" else signalName? name, rest)
    | rest => (some "TERM", rest)
  match signal with
  | none => s.withStatus 1
  | some "0" => s.withStatus 0
  | some name =>
    pids.foldl (fun s pid =>
      match natural? pid with
      | some pid => { s with signals := s.signals ++ [(pid, name)] }
      | none => s.withStatus 1) (s.withStatus 0)

def assignArguments (s : Scene) (args : List (List Char)) : Scene :=
  args.foldl (fun s a =>
    let name := a.takeWhile isNameChar
    match a.drop name.length with
    | '=' :: value => s.assign (String.ofList name) value
    | _ => s) (s.withStatus 0)

def exportCommand (s : Scene) (args : List (List Char)) : Scene :=
  (assignArguments s args).update fun m => { m with
    exported := args.map (fun a => String.ofList (a.takeWhile isNameChar)) ++ m.exported }

def saveLocal (name : String) (value : Option (List Char)) : List Frame → List Frame
  | .leave arguments saved :: stack =>
    .leave arguments (if saved.any (·.1 = name) then saved else (name, value) :: saved) :: stack
  | frame :: stack => frame :: saveLocal name value stack
  | [] => []

def localCommand (s : Scene) (args : List (List Char)) : Scene :=
  let s := args.foldl (fun s a =>
    let name := String.ofList (a.takeWhile isNameChar)
    s.update fun m => { m with stack := saveLocal name (s.valueOf? name) m.stack }) s
  assignArguments s args

def builtin? (name : String) : Option (Scene → List (List Char) → Scene) :=
  match name with
  | ":" | "true" => some fun s _ => s.withStatus 0
  | "false" => some fun s _ => s.withStatus 1
  | "echo" => some fun s args => (s.withStatus 0).write 1 (echoBytes args)
  | "printf" => some fun s args => match args with
    | format :: args => (s.withStatus 0).write 1 (printfBytes format args)
    | [] => s.withStatus 2
  | "test" => some fun s args => s.withStatus (testStatus s args)
  | "[" => some fun s args =>
    if args.getLast? = some [']'] then s.withStatus (testStatus s args.dropLast)
    else s.withStatus 2
  | "trap" => some trapCommand
  | "exit" => some fun s args => exitWith s (countArgument args s.machine.status % 256)
  | "return" => some fun s args =>
    let status := countArgument args s.machine.status % 256
    let stack := unwindFunction s.machine.stack
    if stack.isEmpty then exitWith s status else s.update ({ · with status, stack })
  | "break" => some fun s args => s.update fun m =>
    { m with status := 0, stack := unwindLoops true (countArgument args 1) m.stack }
  | "continue" => some fun s args => s.update fun m =>
    { m with status := 0, stack := unwindLoops false (countArgument args 1) m.stack }
  | "shift" => some fun s args =>
    let n := countArgument args 1
    if s.machine.arguments.length < n then exitWith (s.complain "shift: can't shift that many") 2
    else (s.withStatus 0).update fun m => { m with arguments := m.arguments.drop n }
  | "set" => some fun s args => setCommand (s.withStatus 0) args
  | "unset" => some fun s args => (s.withStatus 0).update fun m =>
    { m with
      bindings := m.bindings.filter fun v => !args.contains v.1.toList
      functions := m.functions.filter fun v => !args.contains v.1.toList }
  | "export" => some exportCommand
  | "readonly" => some assignArguments
  | "local" => some localCommand
  | "read" => some readCommand
  | "kill" => some killCommand
  | "eval" => some fun s args => (s.withStatus 0).push [.script (joinWords args)]
  | "." => some fun s args =>
    match s.files.find? s.machine.directory (String.ofList (args.headD [])) with
    | some (.file content _) => (s.withStatus 0).push [.script (decodeLossy content)]
    | _ => exitWith (s.complain ".: cannot open file") 2
  | "cd" => some fun s args =>
    match s.files.place? s.machine.directory (String.ofList (args.headD ['/'])) with
    | some place =>
      if s.files.get? place = some .directory then
        (s.withStatus 0).update ({ · with directory := place })
      else (s.complain "cd: can't cd").withStatus 2
    | none => (s.complain "cd: can't cd").withStatus 2
  | "pwd" => some fun s _ =>
    (s.withStatus 0).write 1 (bytesOf (Scene.placeText s.machine.directory) ++ [10])
  | "umask" | "ulimit" | "hash" | "alias" | "times" => some fun s _ => s.withStatus 0
  | _ => none

end ClusterWatch.Shell
