import ClusterWatch.Host.Files
import ClusterWatch.Shell.Format

/-! # Programs of the system

The small programs that scripts call: each takes arguments, an input and the files, and gives output,
a status and the time that it takes.
-/
namespace ClusterWatch.Shell
open Text Host

structure ToolResult where
  status : Nat := 0
  output : List UInt8 := []
  errors : List UInt8 := []
  files : Files
  /-- Microseconds that pass besides those of starting a program. -/
  pause : Nat := 0

structure ToolCall where
  title : List Char
  args : List (List Char)
  input : List UInt8
  files : Files
  directory : Path

namespace ToolCall

def texts (c : ToolCall) : List String := c.args.map String.ofList

def operands (c : ToolCall) : List String := c.texts.filter fun a => !a.startsWith "-"

def letters (c : ToolCall) : List Char :=
  (c.args.filter fun a => a.head? = some '-').flatMap List.tail

def quiet (c : ToolCall) (status : Nat) : ToolResult := { status, files := c.files }

def printing (c : ToolCall) (output : List UInt8) : ToolResult := { output, files := c.files }

def printingLine (c : ToolCall) (line : List Char) : ToolResult := c.printing (bytesOf line ++ [10])

def failing (c : ToolCall) (message : String) (status : Nat) : ToolResult :=
  { status, errors := bytesOf (message.toList ++ ['\n']), files := c.files }

/-- Does something to the files for each operand; the status tells whether all went well. -/
def forEach (c : ToolCall) (names : List String) (act : Files → Path → Option Files) : ToolResult :=
  names.foldl (fun r name =>
    match (r.files.place? c.directory name).bind (act r.files) with
    | some files => { r with files }
    | none => { r with status := 1 }) (c.quiet 0)

end ToolCall

/-- A length of time: a decimal number with a unit, in microseconds. What is infinite is taken as a
thousand years. -/
def duration? (cs : List Char) : Option Nat :=
  if cs = "infinity".toList ∨ cs = "inf".toList then some (1000 * 366 * 86400 * 1000000) else
  let whole := cs.takeWhile Char.isDigit
  let rest := cs.drop whole.length
  let (places, suffix) := match rest with
    | '.' :: r => (r.takeWhile Char.isDigit, r.dropWhile Char.isDigit)
    | _ => ([], rest)
  let value (ds : List Char) : Nat := ds.foldl (fun n c => 10 * n + digitOf c) 0
  let micros := value whole * 1000000 +
    value ((places.take 6) ++ List.replicate (6 - places.length) '0')
  if whole.isEmpty && places.isEmpty then none
  else match suffix with
    | [] | ['s'] => some micros
    | ['m'] => some (micros * 60)
    | ['h'] => some (micros * 3600)
    | ['d'] => some (micros * 86400)
    | _ => none

def dirname (text : String) : String :=
  let trimmed := ((text.toList.reverse.dropWhile (· == '/')).dropWhile (· != '/'))
  if trimmed.isEmpty then (if text.startsWith "/" then "/" else ".")
  else
    let up := (trimmed.dropWhile (· == '/')).reverse
    if up.isEmpty then "/" else String.ofList up

def basename (text suffix : String) : String :=
  let name := ((text.toList.reverse.dropWhile (· == '/')).takeWhile (· != '/')).reverse
  let name := String.ofList name
  if name = "" then (if text = "" then "" else "/")
  else if suffix ≠ "" ∧ name ≠ suffix ∧ name.endsWith suffix then (name.dropEnd suffix.length).toString
  else name

def integer? (cs : List Char) : Option Int :=
  match cs with
  | '-' :: ds => if ds.isEmpty then none else (inBase 10 ds).map (- ·)
  | '+' :: ds => if ds.isEmpty then none else inBase 10 ds
  | ds => if ds.isEmpty then none else inBase 10 ds

/-- The numbers from one to another by a step, at most a hundred thousand. -/
def sequenceNumbers (first step last : Int) : List Int :=
  let count := if 0 < step then (last - first) / step + 1
    else if step < 0 then (first - last) / (-step) + 1 else 0
  (List.range (min count.toNat 100000)).map fun (i : Nat) => first + i * step

def lineChunks : List UInt8 → List (List UInt8)
  | [] => []
  | b :: bs =>
    if b = 10 then [b] :: lineChunks bs
    else
      match lineChunks bs with
      | [] => [[b]]
      | l :: ls => (b :: l) :: ls

def lineCount (args : List (List Char)) : Nat :=
  match args with
  | ['-', 'n'] :: n :: _ => ((integer? n).getD 10).toNat
  | ('-' :: 'n' :: n) :: _ => ((integer? n).getD 10).toNat
  | ('-' :: n) :: _ => ((integer? n).getD 10).toNat
  | _ => 10

/-- The bytes of the files named, or the input if none is. -/
def gather (c : ToolCall) (names : List String) : ToolResult :=
  if names.isEmpty then c.printing c.input
  else names.foldl (fun r name =>
    if name = "-" then { r with output := r.output ++ c.input }
    else match c.files.find? c.directory name with
      | some (.file content _) => { r with output := r.output ++ content }
      | _ => { r with
          status := 1
          errors := r.errors ++ bytesOf s!"cat: {name}: No such file or directory\n".toList })
    (c.quiet 0)

/-- Whether a mode adds or takes the right to run, if it says. -/
def modeRuns? (mode : String) : Option Bool :=
  let cs := mode.toList
  match cs.dropWhile fun c => "ugoa".toList.contains c with
  | '+' :: rights => if rights.contains 'x' then some true else none
  | '-' :: rights => if rights.contains 'x' then some false else none
  | '=' :: rights => some (rights.contains 'x')
  | _ =>
    if !cs.isEmpty && cs.all fun c => '0' ≤ c && c ≤ '7' then
      some ((cs.reverse.take 3).any fun c => digitOf c % 2 = 1)
    else none

def changeMode (c : ToolCall) : ToolResult :=
  match c.texts.filter (· ≠ "-R") with
  | mode :: names =>
    c.forEach names fun files place =>
      match files.get? place with
      | some (.file content runnable) =>
        some (files.put place (.file content ((modeRuns? mode).getD runnable)))
      | some _ => some files
      | none => none
  | [] => c.failing "chmod: missing operand" 1

def transfer (c : ToolCall) (isMove : Bool) : ToolResult :=
  match c.operands with
  | [source, target] =>
    let find (name : String) : Option Path := c.files.place? c.directory name
    match (find source).bind fun place => (c.files.get? place).map (place, ·), find target with
    | some (sourcePlace, e), some targetPlace =>
      let targetPlace := match c.files.get? targetPlace, sourcePlace.getLast? with
        | some .directory, some name => targetPlace ++ [name]
        | _, _ => targetPlace
      let files := if isMove then c.files.remove sourcePlace else c.files
      { files := files.put targetPlace e }
    | _, _ => c.failing "No such file or directory" 1
  | _ => c.failing "missing operand" 1

/-- The value of an expression of `expr`: one operation on numbers or texts. -/
def expr (c : ToolCall) : ToolResult :=
  let answer (s : String) : ToolResult :=
    { c.printingLine s.toList with status := if s = "" ∨ s = "0" then 1 else 0 }
  match c.args with
  | [a] => answer (String.ofList a)
  | [a, o, b] =>
    match integer? a, integer? b, String.ofList o with
    | some a, some b, "+" => answer (toString (a + b))
    | some a, some b, "-" => answer (toString (a - b))
    | some a, some b, "*" => answer (toString (a * b))
    | some a, some b, "/" => if b = 0 then c.failing "expr: division by zero" 2
      else answer (toString (a.tdiv b))
    | some a, some b, "%" => if b = 0 then c.failing "expr: division by zero" 2
      else answer (toString (a.tmod b))
    | some a, some b, "<" => answer (toString (ofTruth (a < b)))
    | some a, some b, ">" => answer (toString (ofTruth (b < a)))
    | some a, some b, "<=" => answer (toString (ofTruth (a ≤ b)))
    | some a, some b, ">=" => answer (toString (ofTruth (b ≤ a)))
    | _, _, "=" => answer (toString (ofTruth (a = b)))
    | _, _, "!=" => answer (toString (ofTruth (a ≠ b)))
    | _, _, _ => c.failing "expr: non-integer argument" 2
  | _ :: b :: _ =>
    c.failing s!"{String.ofList c.title}: syntax error: unexpected argument '{String.ofList b}'" 2
  | [] => c.failing s!"{String.ofList c.title}: missing operand" 2

/-- The number of words in bytes: runs without white space. -/
def wordCount (bytes : List UInt8) : Nat :=
  let isSpace (b : UInt8) : Bool := b = 32 || (9 ≤ b && b ≤ 13)
  ((32 :: bytes).zip bytes).countP fun (before, b) => isSpace before && !isSpace b

def tool? (name : String) : Option (ToolCall → ToolResult) :=
  match name with
  | "true" => some (·.quiet 0)
  | "false" => some (·.quiet 1)
  | "echo" => some fun c => c.printing (plainEchoBytes c.args)
  | "printf" => some fun c => match c.args with
    | format :: args => c.printing (printfBytes format args)
    | [] => c.failing "printf: missing operand" 1
  | "sleep" => some fun c => match c.args.mapM duration? with
    | some (d :: ds) => { files := c.files, pause := ds.foldl (· + ·) d }
    | _ => c.failing "sleep: invalid time interval" 1
  | "touch" => some fun c => c.forEach c.operands fun files place =>
      if (files.get? place).isSome then some files else files.write? place []
  | "rm" => some fun c =>
      let force := c.letters.contains 'f'
      c.forEach c.operands fun files place =>
        if (files.get? place).isSome then some (files.remove place)
        else if force then some files else none
  | "mkdir" => some fun c =>
      let names := c.operands.map fun name =>
        String.ofList (name.toList.reverse.dropWhile (· == '/')).reverse
      if c.letters.contains 'p' then
        names.foldl (fun r name =>
          match r.files.makeAll (if name.startsWith "/" then [] else c.directory)
            (name.splitOn "/") with
          | some files => { r with files }
          | none => { r with status := 1 }) (c.quiet 0)
      else c.forEach names fun files place =>
        if (files.get? place).isSome || !files.hasParent place then none
        else some (files.put place .directory)
  | "rmdir" => some fun c => c.forEach c.operands fun files place =>
      if files.get? place = some .directory ∧ (files.names place).isEmpty then
        some (files.remove place)
      else none
  | "chmod" => some changeMode
  | "mv" => some (transfer · true)
  | "cp" => some (transfer · false)
  | "cat" => some fun c => gather c (c.texts.filter fun a => a = "-" ∨ !a.startsWith "-")
  | "head" => some fun c =>
      let names := c.operands.filter fun a => (integer? a.toList).isNone
      let r := gather c names
      { r with output := ((lineChunks r.output).take (lineCount c.args)).flatten }
  | "tail" => some fun c =>
      let names := c.operands.filter fun a => (integer? a.toList).isNone
      let r := gather c names
      let ls := lineChunks r.output
      { r with output := (ls.drop (ls.length - lineCount c.args)).flatten }
  | "wc" => some fun c =>
      let r := gather c c.operands
      let n := if c.letters.contains 'c' then r.output.length
        else if c.letters.contains 'w' then wordCount r.output
        else r.output.count 10
      { r with output := bytesOf (toString n).toList ++ [10] }
  | "dirname" => some fun c => c.printingLine (dirname (c.operands.headD "")).toList
  | "basename" => some fun c =>
      c.printingLine (basename (c.operands.headD "") (c.operands.tail.headD "")).toList
  | "seq" => some fun c => match c.args.mapM integer? with
    | some [last] => c.printing ((sequenceNumbers 1 1 last).flatMap fun n =>
        bytesOf (toString n).toList ++ [10])
    | some [first, last] => c.printing ((sequenceNumbers first 1 last).flatMap fun n =>
        bytesOf (toString n).toList ++ [10])
    | some [first, step, last] => c.printing ((sequenceNumbers first step last).flatMap fun n =>
        bytesOf (toString n).toList ++ [10])
    | _ => c.failing "seq: invalid argument" 1
  | "expr" => some expr
  | "ls" => some fun c =>
      let place := c.files.place? c.directory (c.operands.headD ".")
      match place.bind c.files.get?, place with
      | some .directory, some place =>
        c.printing (((c.files.names place).filter fun n => !n.startsWith ".").flatMap fun n =>
          bytesOf n.toList ++ [10])
      | some _, _ => c.printingLine (c.operands.headD ".").toList
      | none, _ => c.failing "No such file or directory" 2
  | "pwd" => some fun c => c.printingLine ('/' :: (String.intercalate "/" c.directory).toList)
  | "uname" => some fun c => c.printingLine "Linux".toList
  | "whoami" => some fun c => c.printingLine "root".toList
  | "tee" => some fun c =>
      let r := c.forEach c.operands fun files place => files.write? place c.input
      { r with output := c.input }
  | "env" => some fun c =>
      match c.args.find? fun a => !a.contains '=' && a.head? ≠ some '-' with
      | some name => c.failing
          s!"{String.ofList c.title}: '{String.ofList name}': No such file or directory" 127
      | none => c.quiet 0
  | _ => none

/-- The programs that do what `tool?` says, and those that are only known to be there. They refuse
options that they do not know. -/
def strictPrograms : List String :=
  ["sleep", "touch", "rm", "mkdir", "rmdir", "chmod", "mv", "cp", "cat", "head", "tail", "wc", "dirname",
    "basename", "seq", "ls", "pwd", "uname", "whoami", "tee", "env", "date", "id", "tr", "cut", "sort",
    "uniq", "yes", "timeout", "nohup", "nice", "stat", "du", "df", "ln", "split", "paste", "tac", "nl",
    "od", "fold", "md5sum", "sha1sum", "sha256sum", "cksum", "factor", "groups", "mktemp", "nproc",
    "readlink", "realpath", "shuf", "sync", "tty", "truncate", "expand", "unexpand", "fmt", "join", "comm",
    "dd", "mkfifo", "install", "link", "unlink", "who", "chgrp", "chown", "base64"]

def lenientPrograms : List String := ["true", "false", "echo", "printf", "expr", "test", "["]

def shellNames : List String := ["sh", "dash", "bash"]

def programNames : List String := shellNames ++ lenientPrograms ++ strictPrograms

def refusalStatus (name : String) : Nat :=
  if ["env", "timeout", "nohup", "nice"].contains name then 125
  else if ["ls", "sort"].contains name then 2 else 1

/-- A long option among arguments: those after `--` are none, and those of the command that `env`
starts. -/
def longOption? (name : String) : List (List Char) → Option (List Char)
  | [] | ['-', '-'] :: _ => none
  | ('-' :: '-' :: option) :: _ => some ('-' :: '-' :: option)
  | ('-' :: _) :: args => longOption? name args
  | _ :: args => if name = "env" then none else longOption? name args

def ToolCall.run (c : ToolCall) (name : String) : ToolResult :=
  match if strictPrograms.contains name then longOption? name c.args else none with
  | some option =>
    let title := String.ofList c.title
    c.failing s!"{title}: unrecognized option '{String.ofList option}'\nTry '{title} --help' for more information."
      (refusalStatus name)
  | none =>
    match tool? name with
    | some tool => tool c
    | none => c.quiet 0

end ClusterWatch.Shell
