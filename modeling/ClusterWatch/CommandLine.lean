import ClusterWatch.Config.Basic

/-! # The command line

Its options, how they are read from the arguments, and what is said about them.
-/
namespace ClusterWatch
open Text

/-! ## The options of the command line

Each option has a name after two dashes, and some have a letter after one. An option either takes a
value or is a mere switch.
-/

inductive Flag
  | config
  | executable
  | nodes
  | grid
  | generations
  | pattern
  | host
  | port
  | json
  | pollMs
  | help
  | version
deriving DecidableEq, Repr

namespace Flag

/-- Every option, in the order of the help. -/
def all : List Flag :=
  [.config, .executable, .nodes, .grid, .generations, .pattern, .host, .port, .json, .pollMs, .help,
    .version]

def long : Flag → String
  | config => "config"
  | executable => "executable"
  | nodes => "nodes"
  | grid => "grid"
  | generations => "generations"
  | pattern => "pattern"
  | host => "host"
  | port => "port"
  | json => "json"
  | pollMs => "poll-ms"
  | help => "help"
  | version => "version"

def short? : Flag → Option Char
  | config => some 'c'
  | executable => some 'e'
  | nodes => some 'n'
  | generations => some 'g'
  | pattern => some 'p'
  | help => some 'h'
  | version => some 'V'
  | grid | host | port | json | pollMs => none

def valueName? : Flag → Option String
  | config => some "CONFIG"
  | executable => some "EXECUTABLE"
  | nodes => some "NODES"
  | grid => some "GRID"
  | generations => some "GENERATIONS"
  | pattern => some "PATTERN"
  | host => some "HOST"
  | port => some "PORT"
  | pollMs => some "POLL_MS"
  | json | help | version => none

def description : Flag → String
  | config => "TOML config file; missing is fine [default: dsm-monitor.toml]"
  | executable => "Game of Life node executable"
  | grid => "Grid size as WxH"
  | pattern => "Initial pattern (random, glider, rpentomino)"
  | host => "Host collaborators use to reach the coordinator"
  | json => "Print events as JSON lines"
  | pollMs => "How long to wait for each event before checking the nodes [default: 100]"
  | help => "Print help"
  | version => "Print version"
  | nodes | generations | port => ""

def takesValue (f : Flag) : Bool := f.valueName?.isSome

def ofLong? (name : List Char) : Option Flag := all.find? (·.long.toList = name)

def ofShort? (letter : Char) : Option Flag := all.find? (·.short? = some letter)

def usage (f : Flag) : String :=
  match f.valueName? with
  | some name => s!"--{f.long} <{name}>"
  | none => s!"--{f.long}"

end Flag

/-! ## Reading the command line

The arguments are read from left to right. A value stands in the argument of its option, after an
equals sign or right after its letter, or it is the next argument; then it is looked at only when the
next option comes or the arguments end, so that what comes before that can be wrong first.
-/

structure Options where
  config : String := "dsm-monitor.toml"
  executable? : Option String := none
  nodes? : Option UInt32 := none
  grid? : Option Grid := none
  generations? : Option UInt64 := none
  pattern? : Option String := none
  host? : Option String := none
  port? : Option UInt16 := none
  json : Bool := false
  /-- How long each event is waited for, in milliseconds. -/
  pollMs : UInt64 := 100
deriving DecidableEq, Repr

inductive ArgumentStop
  | help
  | version
  /-- There is no such option, or an argument is none. -/
  | unknown (argument : List Char)
  /-- The option has no value, or an empty one where that cannot be. -/
  | missingValue (flag : Flag)
  /-- The value is not of the kind that the option takes. -/
  | badValue (flag : Flag) (value : List Char)
  | repeated (flag : Flag)
  | needlessValue (flag : Flag) (value : List Char)
deriving DecidableEq, Repr

namespace Options

/-- A number below a bound, with at most one plus sign; minus zero is zero. -/
def natural? (bound : Nat) : List Char → Option Nat
  | '-' :: cs => naturalBelow? 1 cs
  | cs => signedNaturalBelow? bound cs

def checked (flag : Flag) (value : List Char) : Option α → Except ArgumentStop α
  | some a => .ok a
  | none => .error (.badValue flag value)

def path (flag : Flag) (value : List Char) : Except ArgumentStop String :=
  if value.isEmpty then .error (.missingValue flag) else .ok (String.ofList value)

def set (o : Options) (flag : Flag) (value : List Char) : Except ArgumentStop Options :=
  match flag with
  | .config => do return { o with config := ← path flag value }
  | .executable => do return { o with executable? := some (← path flag value) }
  | .nodes => do return { o with nodes? := some (.ofNat (← checked flag value (natural? UInt32.size value))) }
  | .grid => do return { o with grid? := some (← checked flag value (Grid.parse? value)) }
  | .generations => do
    let n ← checked flag value (signedNaturalBelow? UInt64.size value)
    return { o with generations? := some (.ofNat n) }
  | .pattern => .ok { o with pattern? := some (String.ofList value) }
  | .host => .ok { o with host? := some (String.ofList value) }
  | .port => do return { o with port? := some (.ofNat (← checked flag value (natural? UInt16.size value))) }
  | .pollMs => do
    let n ← checked flag value (signedNaturalBelow? UInt64.size value)
    return { o with pollMs := .ofNat n }
  | .json => .ok { o with json := true }
  | .help => .error .help
  | .version => .error .version

def applyTo (o : Options) (c : Config) : Config :=
  { c with
    executable := o.executable?.getD c.executable
    nodes := o.nodes?.getD c.nodes
    grid := o.grid?.getD c.grid
    generations := o.generations?.getD c.generations
    pattern := o.pattern?.getD c.pattern
    coordinatorHost := o.host?.getD c.coordinatorHost
    port := o.port?.getD c.port }

/-- The arguments as far as they are read. -/
structure Reading where
  options : Options := {}
  given : List Flag := []
  /-- An option whose value is not looked at yet, and its value, if it came. -/
  pending : Option (Flag × Option (List Char)) := none
deriving Repr

namespace Reading

/-- Takes an option with its value, the empty one for a switch. -/
def give (r : Reading) (flag : Flag) (value : List Char) : Except ArgumentStop Reading :=
  if flag ∈ r.given then .error (.repeated flag)
  else do return { r with options := ← r.options.set flag value, given := flag :: r.given }

def settle (r : Reading) : Except ArgumentStop Reading :=
  match r.pending with
  | none => .ok r
  | some (flag, none) => .error (.missingValue flag)
  | some (flag, some value) => ({ r with pending := none } : Reading).give flag value

def option (r : Reading) (flag : Flag) (value : Option (List Char)) :
    Except ArgumentStop Reading :=
  match flag.takesValue, value with
  | true, none => do return { (← r.settle) with pending := some (flag, none) }
  | true, some value => do (← r.settle).give flag value
  | false, none => do (← r.settle).give flag []
  | false, some value => .error (.needlessValue flag value)

def long (r : Reading) (cs : List Char) : Except ArgumentStop Reading :=
  match Flag.ofLong? (cs.takeWhile (· ≠ '=')) with
  | none => .error (.unknown ('-' :: '-' :: cs))
  | some flag =>
    r.option flag (match cs.dropWhile (· ≠ '=') with
      | _ :: value => some value
      | [] => none)

/-- Takes an argument that starts with one dash: switches, and perhaps an option with a value as the
last of them. -/
def short (r : Reading) : List Char → Except ArgumentStop Reading
  | [] => .ok r
  | c :: cs =>
    match Flag.ofShort? c with
    | none => .error (.unknown ['-', c])
    | some flag =>
      if flag.takesValue then
        r.option flag (match cs with
          | [] => none
          | '=' :: value => some value
          | value => some value)
      else do short (← r.option flag none) cs

/-- Takes an argument without dashes: it is the value of the option before it, or is out of place. -/
def plain (r : Reading) (cs : List Char) : Except ArgumentStop Reading :=
  match r.pending with
  | some (flag, none) => .ok { r with pending := some (flag, some cs) }
  | _ => .error (.unknown cs)

/-- Takes an argument. A single dash is a plain argument. -/
def argument (r : Reading) : List Char → Except ArgumentStop Reading
  | '-' :: '-' :: cs => r.long cs
  | '-' :: c :: cs => r.short (c :: cs)
  | cs => r.plain cs

/-- Takes all arguments. After one of two dashes there may be no other. -/
def arguments (r : Reading) : List (List Char) → Except ArgumentStop Reading
  | [] => r.settle
  | ['-', '-'] :: [] => r.settle
  | ['-', '-'] :: argument :: _ => .error (.unknown argument)
  | argument :: rest => do (← r.argument argument).arguments rest

end Reading

def ofArguments (arguments : List (List Char)) : Except ArgumentStop Options :=
  (Reading.arguments {} arguments).map (·.options)

end Options

/-! ## What the command line says

The help, the version, and what is wrong with arguments. The help is a table of the options: their
descriptions stand in one column.
-/

def programName : String := "dsm-monitor"

def programVersion : String := "0.1.0"

namespace CommandLine

def spaces (n : Nat) : String := String.ofList (List.replicate n ' ')

def label (f : Flag) : String :=
  match f.short? with
  | some c => s!"-{c}, {f.usage}"
  | none => s!"    {f.usage}"

def descriptionColumn : Nat := (Flag.all.map fun f => (label f).length).foldl max 0 + 4

def row (f : Flag) : String :=
  let first := "  " ++ label f
  first ++ spaces (descriptionColumn - first.length) ++ f.description

def help : List String :=
  ["Launch a distributed Game of Life run and follow its nodes", "",
    s!"Usage: {programName} [OPTIONS]", "", "Options:"] ++ Flag.all.map row

def version : List String := [s!"{programName} {programVersion}"]

end CommandLine

namespace ArgumentStop

/-- What is said about arguments that give no options; nothing if they ask for something else. -/
def message : ArgumentStop → String
  | help | version => ""
  | unknown argument => s!"error: unexpected argument '{String.ofList argument}' found"
  | missingValue flag => s!"error: a value is required for '{flag.usage}' but none was supplied"
  | badValue flag value => s!"error: invalid value '{String.ofList value}' for '{flag.usage}'"
  | repeated flag => s!"error: the argument '{flag.usage}' cannot be used multiple times"
  | needlessValue flag value =>
    s!"error: unexpected value '{String.ofList value}' for '{flag.usage}' found; no more were expected"

end ArgumentStop

end ClusterWatch
