import ClusterWatch.Shell.Parser
import ClusterWatch.Shell.Scene

/-! # Expansion

What the words of a command stand for when it is run.
-/
namespace ClusterWatch.Shell
open Host Text

/-! ## Patterns

The patterns of choices, of parameters and of file names: `*` stands for any text, `?` for one
character, and brackets for one character of a set. Characters that were quoted stand for themselves.
-/

abbrev Marked := Char × Bool

inductive Glob
  | any
  | one
  | literal (c : Char)
  | set (negated : Bool) (ranges : List (Char × Char))
deriving DecidableEq, Repr

def setRanges : (first : Bool) → List Marked → Option (List (Char × Char) × List Marked)
  | _, [] => none
  | false, (']', false) :: cs => some ([], cs)
  | _, (a, _) :: ('-', false) :: (b, q) :: cs =>
    if b = ']' ∧ !q then some ([(a, a), ('-', '-')], cs)
    else (setRanges false cs).map fun (rs, cs) => ((a, b) :: rs, cs)
  | _, (a, _) :: cs => (setRanges false cs).map fun (rs, cs) => ((a, a) :: rs, cs)

def globs : (fuel : Nat) → List Marked → List Glob
  | 0, _ => []
  | _, [] => []
  | fuel + 1, ('*', false) :: cs => .any :: globs fuel cs
  | fuel + 1, ('?', false) :: cs => .one :: globs fuel cs
  | fuel + 1, ('[', false) :: cs =>
    let (negated, body) := match cs with
      | ('!', false) :: rest => (true, rest)
      | ('^', false) :: rest => (true, rest)
      | _ => (false, cs)
    match setRanges true body with
    | some (ranges, rest) => .set negated ranges :: globs fuel rest
    | none => .literal '[' :: globs fuel cs
  | fuel + 1, (c, _) :: cs => .literal c :: globs fuel cs

def Glob.ofMarked (cs : List Marked) : List Glob := globs cs.length cs

def Glob.admits : Glob → Char → Bool
  | any, _ => true
  | one, _ => true
  | literal d, c => c == d
  | set negated ranges, c => (ranges.any fun r => r.1 ≤ c && c ≤ r.2) != negated

def matchesAll : List Glob → List Char → Bool
  | [], cs => cs.isEmpty
  | .any :: gs, [] => matchesAll gs []
  | .any :: gs, c :: cs => matchesAll gs (c :: cs) || matchesAll (.any :: gs) cs
  | _ :: _, [] => false
  | g :: gs, c :: cs => g.admits c && matchesAll gs cs
termination_by gs cs => gs.length + cs.length

/-- Takes away the shortest or longest end of a text that the pattern stands for. -/
def dropEnd (gs : List Glob) (longest : Bool) (cs : List Char) : List Char :=
  let cuts := List.range (cs.length + 1)
  let cuts := if longest then cuts else cuts.reverse
  match cuts.find? fun n => matchesAll gs (cs.drop n) with
  | some n => cs.take n
  | none => cs

def dropStart (gs : List Glob) (longest : Bool) (cs : List Char) : List Char :=
  let cuts := List.range (cs.length + 1)
  let cuts := if longest then cuts.reverse else cuts
  match cuts.find? fun n => matchesAll gs (cs.take n) with
  | some n => cs.drop n
  | none => cs

/-! ## Working out words

A word becomes segments, some quoted and some not; parameters, arithmetic and commands give their text.
Segments make up fields: unquoted values are split at separators, and a field with the characters of a
pattern stands for the files whose names match.
-/

inductive Segment
  | chars (cs : List Char) (quoted splits : Bool)
  | fieldEnd
deriving DecidableEq, Repr

def marked (segments : List Segment) : List Marked :=
  segments.flatMap fun
    | .chars cs quoted _ => cs.map (·, quoted)
    | .fieldEnd => [(' ', true)]

def plain (segments : List Segment) : List Char := (marked segments).map (·.1)

def splitInto (separators : List Char) : List (List Marked) → Option (List Marked) → List Char →
    List (List Marked) × Option (List Marked)
  | done, current, [] => (done, current)
  | done, current, c :: cs =>
    if separators.contains c then
      match current with
      | some field => splitInto separators (done ++ [field]) none cs
      | none =>
        if c.isWhitespace then splitInto separators done none cs
        else splitInto separators (done ++ [[]]) none cs
    else splitInto separators done (some (current.getD [] ++ [(c, false)])) cs

def fieldsOf (separators : List Char) (segments : List Segment) : List (List Marked) :=
  let (done, current) := segments.foldl (fun (done, current) segment =>
    match segment with
    | .chars cs quoted false =>
      if cs.isEmpty && !quoted then (done, current)
      else (done, some (current.getD [] ++ cs.map (·, quoted)))
    | .chars cs _ true => splitInto separators done current cs
    | .fieldEnd => (done ++ current.toList, none)) (([] : List (List Marked)), none)
  done ++ current.toList

def argumentSegments (quoted : Bool) (args : List (List Char)) : List Segment :=
  (args.map fun a => Segment.chars a quoted (!quoted)).intersperse .fieldEnd

abbrev Runner := Scene → Scene

/-- Runs a script in a shell of its own, and gives what it writes. -/
def captureScript (inner : Runner) (s : Scene) (source : List Char) : List UInt8 × Scene :=
  let m := s.machine
  let shell := { m with
    stack := [.script source], captured := [], traps := m.traps.filter (·.2.isEmpty)
    sinks := (1, .capture) :: m.sinks.filter (·.1 ≠ 1) }
  let after := inner { s with machine := shell }
  (after.machine.captured, { after with machine := { m with status := after.machine.status } })

def chomp (cs : List Char) : List Char := (cs.reverse.dropWhile (· == '\n')).reverse

/-- Works out the parts of a word. The fuel bounds the depth of words within words. -/
def expand (inner : Runner) : (fuel : Nat) → Scene → Word → List Segment × Scene
  | 0, s, _ => ([], s)
  | _, s, [] => ([], s)
  | fuel + 1, s, part :: parts =>
    let (first, s) : List Segment × Scene :=
      match part with
      | .text quoted cs => ([.chars cs quoted false], s)
      | .command quoted source =>
        let (bytes, s) := captureScript inner s source
        ([.chars (chomp (decodeLossy bytes)) quoted (!quoted)], s)
      | .arithmetic quoted source =>
        let (segments, s) := expand inner fuel s (wholeText source)
        match evaluate? (fun name => (s.parameter? name).getD []) (plain segments) with
        | some (n, changes) =>
          let s := changes.reverse.foldl (fun s (name, n) => s.assign name (toString n).toList) s
          ([.chars (toString n).toList quoted (!quoted)], s)
        | none => ([], { s.complain "arithmetic expression: syntax error" with broken := true })
      | .parameter quoted name operator word =>
        let value? := s.parameter? name
        let value := value?.getD []
        let given (s : Scene) : List Segment × Scene := ([.chars value quoted (!quoted)], s)
        let other (s : Scene) : List Segment × Scene := expand inner fuel s (innerWord quoted word)
        let isSet := value?.isSome
        let isFull := isSet && !value.isEmpty
        let trim (atStart longest : Bool) : List Segment × Scene :=
          let (segments, s) := other s
          let gs := Glob.ofMarked (marked segments)
          let rest := if atStart then dropStart gs longest value else dropEnd gs longest value
          ([.chars rest quoted (!quoted)], s)
        match operator with
        | "" =>
          if name = "@" ∨ (name = "*" ∧ !quoted) then
            (argumentSegments quoted s.machine.arguments, s)
          else if !isSet ∧ s.machine.unsetIsError ∧ name ≠ "*" then
            ([], { s.complain s!"{name}: parameter not set" with broken := true })
          else given s
        | "length" =>
          let length :=
            if name = "@" ∨ name = "*" then s.machine.arguments.length else (encode value).length
          ([.chars (toString length).toList quoted (!quoted)], s)
        | ":-" => if isFull then given s else other s
        | "-" => if isSet then given s else other s
        | ":+" => if isFull then other s else ([.chars [] quoted false], s)
        | "+" => if isSet then other s else ([.chars [] quoted false], s)
        | ":=" | "=" =>
          if isFull ∨ (isSet ∧ operator = "=") then given s
          else
            let (segments, s) := other s
            (segments, s.assign name (plain segments))
        | ":?" | "?" =>
          if isFull ∨ (isSet ∧ operator = "?") then given s
          else
            let (segments, s) := other s
            ([], { s.complain s!"{name}: {String.ofList (plain segments)}" with broken := true })
        | "%" => trim false false
        | "%%" => trim false true
        | "#" => trim true false
        | _ => trim true true
    let (rest, s) := expand inner fuel s parts
    (first ++ rest, s)

def wordFuel (w : Word) : Nat := w.length + 40

def wordText (inner : Runner) (s : Scene) (w : Word) : List Char × Scene :=
  let (segments, s) := expand inner (wordFuel w) s w
  (plain segments, s)

/-- The names of files that a pattern stands for, or the pattern itself if there are none. -/
def fileNames (s : Scene) (field : List Marked) : List (List Char) :=
  let text := field.map (·.1)
  if !(field.any fun (c, quoted) => !quoted && (c == '*' || c == '?' || c == '[')) then [text]
  else
    let last := (field.reverse.takeWhile (·.1 ≠ '/')).reverse
    let before := (field.take (field.length - last.length)).map (·.1)
    let place := if before.isEmpty then some s.machine.directory
      else s.files.place? s.machine.directory (String.ofList before)
    let gs := Glob.ofMarked last
    let found := ((place.map s.files.names).getD []).filter fun name =>
      matchesAll gs name.toList && (!name.startsWith "." || last.head? = some ('.', false))
    if found.isEmpty then [text] else found.map fun name => before ++ name.toList

def wordFields (inner : Runner) (s : Scene) : List Word → List (List Char) × Scene
  | [] => ([], s)
  | w :: ws =>
    let (segments, s) := expand inner (wordFuel w) s w
    let separators := (s.valueOf? "IFS").getD [' ', '\t', '\n']
    let fields := (fieldsOf separators segments).flatMap (fileNames s)
    let (rest, s) := wordFields inner s ws
    (fields ++ rest, s)

end ClusterWatch.Shell
