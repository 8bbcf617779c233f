import ClusterWatch.Shell.Condition
import ClusterWatch.Shell.Expansion
import ClusterWatch.Shell.Tool

/-! # Running programs

A command that is neither the shell's own nor a function is a program: one of the system, or a script
file. The first line of a script names the program that is started in its place, with the path of the
script among its arguments. A shell that is started so runs the script as a machine of its own.
-/
namespace ClusterWatch.Shell
open Text Host

inductive Refusal
  | missing
  | forbidden
  /-- A file that is neither a script nor a program. -/
  | unreadable
  | tangled
deriving DecidableEq, Repr

structure Start where
  program : String
  title : List Char
  arguments : List (List Char)
  settings : List (String × List Char) := []
deriving DecidableEq, Repr

def isGap (c : Char) : Bool := c == ' ' || c == '\t'

/-- The interpreter that the first line of a script names, and the one argument that it is given. Only
the beginning of a long line counts. -/
def interpreter? (content : List UInt8) : Option (List Char × Option (List Char)) :=
  match content with
  | 35 :: 33 :: rest =>
    let line := (decodeLossy ((rest.take 253).takeWhile fun b => b ≠ 10 && b ≠ 0)).dropWhile isGap
    let line := (line.reverse.dropWhile isGap).reverse
    let name := line.takeWhile (!isGap ·)
    let option := (line.drop name.length).dropWhile isGap
    if name.isEmpty then none else some (name, if option.isEmpty then none else some option)
  | _ => none

def startAt (files : Files) (directory : Path) :
    (depth : Nat) → (path : String) → (title : List Char) → (args : List (List Char)) →
      Except Refusal Start
  | 0, _, _, _ => .error .tangled
  | depth + 1, path, title, args =>
    match files.find? directory path with
    | none | some (.link _) => .error .missing
    | some .directory => .error .forbidden
    | some (.program program) => .ok { program, title, arguments := args }
    | some (.file content runnable) =>
      if !runnable then .error .forbidden
      else
        match interpreter? content with
        | none => .error .unreadable
        | some (name, option) =>
          startAt files directory depth (String.ofList name) name
            (option.toList ++ path.toList :: args)

/-- The number of programs that are looked at before a script is given up. -/
def startDepth : Nat := 6

/-- The first program that can be started at one of some paths. What is missing is passed over; what
is forbidden is, too, but is remembered. -/
def startFirst (files : Files) (directory : Path) (title : List Char) (args : List (List Char)) :
    (refusal : Refusal) → (paths : List String) → Except Refusal Start
  | refusal, [] => .error refusal
  | refusal, path :: paths =>
    match startAt files directory startDepth path title args with
    | .ok start => .ok start
    | .error .missing => startFirst files directory title args refusal paths
    | .error .forbidden => startFirst files directory title args .forbidden paths
    | .error refusal => .error refusal

/-- The directories in which programs are looked for, if no variable says. -/
def standardSearch : List Char := "/usr/local/sbin:/usr/local/bin:/usr/sbin:/usr/bin:/sbin:/bin".toList

/-- What starts for a name: a path if it has a slash, else a program in one of the directories of a
search list. -/
def startNamed (files : Files) (directory : Path) (search name : List Char)
    (args : List (List Char)) : Except Refusal Start :=
  let text := String.ofList name
  if name.contains '/' then startAt files directory startDepth text name args
  else if name.isEmpty then .error .missing
  else
    startFirst files directory name args .missing
      (((String.ofList search).splitOn ":").map fun place =>
        if place = "" then text else place ++ "/" ++ text)

def wordsOf (cs : List Char) : List (List Char) :=
  (((String.ofList cs).splitOn " ").filter (· ≠ "")).map String.toList

/-- The variables that `env` sets, and the command that it starts. A text after `-S` is taken apart
into arguments. -/
def envCommand (settings : List (String × List Char)) :
    List (List Char) → List (String × List Char) × List (List Char)
  | [] => (settings, [])
  | a :: args =>
    match a with
    | ['-'] | ['-', 'i'] | ['-', '-'] => envCommand settings args
    | ['-', 'S'] => (settings, wordsOf (args.headD []) ++ args.tail)
    | '-' :: 'S' :: text => (settings, wordsOf text ++ args)
    | _ =>
      if a.contains '=' then
        let name := a.takeWhile (· ≠ '=')
        envCommand ((String.ofList name, a.drop (name.length + 1)) :: settings) args
      else (settings, a :: args)

/-- What starts for a name; `env` gives way to the program that it starts. -/
def start (files : Files) (directory : Path) (search : List Char) :
    (depth : Nat) → (name : List Char) → (args : List (List Char)) → Except Refusal Start
  | 0, _, _ => .error .tangled
  | depth + 1, name, args =>
    match startNamed files directory search name args with
    | .error refusal => .error refusal
    | .ok s =>
      if s.program ≠ "env" then .ok s
      else
        match envCommand [] s.arguments with
        | (settings, name :: args) =>
          match start files directory search depth name args with
          | .ok t => .ok { t with settings := settings ++ t.settings }
          | .error _ => .ok s
        | (_, []) => .ok s

def Scene.start (s : Scene) (name : List Char) (args : List (List Char)) : Except Refusal Start :=
  Shell.start s.files s.machine.directory ((s.valueOf? "PATH").getD standardSearch) startDepth name args

def isShellOption (c : Char) : Bool := "abcefilmnsuvxCEIV".toList.contains c

def optionLetter (name : List Char) : List Char :=
  match String.ofList name with
  | "errexit" => ['e']
  | "nounset" => ['u']
  | "xtrace" => ['x']
  | _ => []

/-- The options at the beginning of the arguments of a shell, and the other arguments; or an option
that there is none of. -/
def shellOptions (letters : List Char) : List (List Char) → Except Char (List Char × List (List Char))
  | [] => .ok (letters, [])
  | ['-', 'o'] :: name :: args => shellOptions (optionLetter name ++ letters) args
  | a :: args =>
    match a with
    | ['-'] | ['-', '-'] => .ok (letters, args)
    | '-' :: cs =>
      match cs.find? (!isShellOption ·) with
      | some c => .error c
      | none => shellOptions (cs ++ letters) args
    | '+' :: cs => shellOptions (letters.filter (!cs.contains ·)) args
    | _ => .ok (letters, a :: args)

/-- A machine that runs a script of its own. It has the variables that are exported, and ignores the
signals that were ignored before. -/
def scriptMachine (m : Machine) (name : List Char) (args : List (List Char)) (source : List Char) :
    Machine :=
  { m with
    name, arguments := args, functions := [], pending := [], status := 0
    bindings := m.bindings.filter fun v => m.exported.contains v.1
    ignored := m.ignored ++ (m.traps.filter (·.2.isEmpty)).map (·.1)
    traps := []
    stack := [.script source], exitOnError := false, unsetIsError := false, traces := false }

def Machine.withSettings (m : Machine) (settings : List (String × List Char)) : Machine :=
  { m with
    bindings := settings ++ m.bindings.filter fun v => !(settings.any (·.1 = v.1))
    exported := settings.map (·.1) ++ m.exported }

/-- A shell that starts: its arguments name a file or give the commands, or it reads its input. -/
def shellMachine (files : Files) (m : Machine) (s : Start) : Machine :=
  let m := m.withSettings s.settings
  let fail (message : String) : Machine :=
    { scriptMachine m s.title [] [] with
      stack := [.fail (s.title ++ (": 0: " ++ message).toList) 2] }
  match shellOptions [] s.arguments with
  | .error c => fail s!"Illegal option -{c}"
  | .ok (letters, args) =>
    let script (name : List Char) (args : List (List Char)) (source : List Char) : Machine :=
      { scriptMachine m name args source with
        exitOnError := letters.contains 'e', unsetIsError := letters.contains 'u'
        traces := letters.contains 'x' }
    if letters.contains 'c' then
      match args with
      | source :: args => script (args.headD s.title) args.tail source
      | [] => fail "-c requires an argument"
    else
      match args with
      | [] => script s.title [] (decodeLossy m.input)
      | file :: rest =>
        if letters.contains 's' then script s.title args (decodeLossy m.input)
        else
          match files.find? m.directory (String.ofList file) with
          | some (.file content _) => script file rest (decodeLossy content)
          | _ => fail s!"cannot open {String.ofList file}: No such file"

def runTool (s : Scene) (t : Start) : Scene :=
  if t.program = "test" then s.withStatus (testStatus s t.arguments)
  else if t.program = "[" then s.withStatus (testStatus s t.arguments.dropLast)
  else
    let call : ToolCall := ⟨t.title, t.arguments, s.machine.input, s.files, s.machine.directory⟩
    let r := call.run t.program
    let s := { s with
      files := r.files, elapsed := s.elapsed + startTime + r.pause
      quiet := !s.machine.sinks.any (·.2.isPipe) }
    let s := s.withStatus r.status
    let s := if r.output.isEmpty then s else s.write 1 r.output
    if r.errors.isEmpty then s else s.write 2 r.errors

def runShell (inner : Runner) (s : Scene) (t : Start) : Scene :=
  let m := s.machine
  let child := { m with pid := s.nextPid, shellPid := s.nextPid, captured := [] }
  let after := inner { s with
    machine := shellMachine s.files child t
    nextPid := s.nextPid + 1, elapsed := s.elapsed + startTime }
  { after with machine := { m with
      status := after.machine.status, captured := m.captured ++ after.machine.captured } }

def refuse (s : Scene) (name : List Char) (refusal : Refusal) : Scene :=
  let complaint (why : String) (status : Nat) : Scene :=
    (s.complain s!"{String.ofList name}: {why}").withStatus status
  match refusal with
  | .missing => complaint "not found" 127
  | .forbidden => complaint "Permission denied" 126
  | .unreadable => complaint "Exec format error" 126
  | .tangled => complaint "Too many levels of symbolic links" 126

/-- Carries out a command that is neither the shell's own nor a function. -/
def runProgram (inner : Runner) (s : Scene) (name : List Char) (args : List (List Char)) : Scene :=
  match s.start name args with
  | .ok t => if shellNames.contains t.program then runShell inner s t else runTool s t
  | .error refusal => refuse s name refusal

def replaceShell (s : Scene) (name : List Char) (args : List (List Char)) : Scene :=
  let ended (s : Scene) : Scene :=
    s.update fun m => { scriptMachine m name args [] with stack := [.ended m.status] }
  match s.start name args with
  | .ok t =>
    if shellNames.contains t.program then s.update fun m => shellMachine s.files m t
    else ended (runTool s t)
  | .error refusal => ended (refuse s name refusal)

end ClusterWatch.Shell
