import ClusterWatch.Shell.Syntax

/-! # Reading scripts

The reader of commands. `nextCommand` reads a script command line by command line, since what stands
in front of an error is carried out.
-/
namespace ClusterWatch.Shell

def skipBlanks : List Char → List Char
  | ' ' :: cs => skipBlanks cs
  | '\t' :: cs => skipBlanks cs
  | '\\' :: '\n' :: cs => skipBlanks cs
  | '#' :: cs => cs.dropWhile (· != '\n')
  | cs => cs

/-- The text after blanks, comments and ends of lines; the fuel bounds the number of lines. -/
def skipLines : (fuel : Nat) → List Char → List Char
  | 0, cs => cs
  | fuel + 1, cs =>
    match skipBlanks cs with
    | '\n' :: rest => skipLines fuel rest
    | rest => rest

def skipToCommand (cs : List Char) : List Char := skipLines (cs.length + 1) cs

def reserved : List String :=
  ["if", "then", "elif", "else", "fi", "while", "until", "do", "done", "for", "in", "case", "esac",
    "\x7b", "\x7d", "!"]

def reserved? (cs : List Char) : Option (String × List Char) :=
  let word := cs.takeWhile fun c => !endsWord c
  let name := String.ofList word
  if reserved.contains name then some (name, cs.drop word.length) else none

def expect? (name : String) (cs : List Char) : Option (List Char) :=
  match reserved? (skipToCommand cs) with
  | some (found, rest) => if found = name then some rest else none
  | none => none

def endsList (cs : List Char) : Bool :=
  match cs with
  | [] => true
  | ')' :: _ => true
  | ';' :: ';' :: _ => true
  | _ =>
    match reserved? cs with
    | some (name, _) => ["then", "elif", "else", "fi", "do", "done", "esac", "\x7d"].contains name
    | none => false

def takeHere (delimiter : List Char) (stripTabs : Bool) : (fuel : Nat) → List Char →
    List Char × List Char
  | 0, cs => ([], cs)
  | fuel + 1, cs =>
    let line := cs.takeWhile (· != '\n')
    let rest := (cs.drop line.length).drop 1
    let line := if stripTabs then line.dropWhile (· == '\t') else line
    if line = delimiter then ([], rest)
    else if (cs.drop line.length).isEmpty then (line, [])
    else
      let (body, rest) := takeHere delimiter stripTabs fuel rest
      (line ++ '\n' :: body, rest)

/-- Reads the delimiter of a text to be read, takes the text from the lines after this one, and leaves
the rest of this line. -/
def readHere? (stream : Nat) (stripTabs : Bool) (cs : List Char) :
    Option (Redirect × List Char) := do
  let (word, rest) ← readWord? (skipBlanks cs)
  let delimiter ← plainText? word
  let line := rest.takeWhile (· != '\n')
  let (body, after) := takeHere delimiter stripTabs (rest.length + 1) (rest.drop (line.length + 1))
  let target := if (bareText? word).isSome then wholeText body else [.text true body]
  return (⟨stream, .here, target⟩, line ++ '\n' :: after)

/-- Reads a redirection, if one starts here. The outer `none` is an error. -/
def redirect? (cs : List Char) : Option (Option (Redirect × List Char)) :=
  let digits := cs.takeWhile Char.isDigit
  let stream (default : Nat) : Nat :=
    if digits.isEmpty then default
    else digits.foldl (fun n c => 10 * n + (c.toNat - '0'.toNat)) 0
  let target (stream : Nat) (kind : RedirectKind) (rest : List Char) :
      Option (Option (Redirect × List Char)) :=
    (readWord? (skipBlanks rest)).bind fun (word, rest) =>
      if word.isEmpty then none else some (some (⟨stream, kind, word⟩, rest))
  match cs.drop digits.length with
  | '<' :: '<' :: '-' :: rest => (readHere? (stream 0) true rest).map some
  | '<' :: '<' :: rest => (readHere? (stream 0) false rest).map some
  | '<' :: '&' :: rest => target (stream 0) .duplicate rest
  | '<' :: rest => target (stream 0) .read rest
  | '>' :: '>' :: rest => target (stream 1) .append rest
  | '>' :: '&' :: rest => target (stream 1) .duplicate rest
  | '>' :: '|' :: rest => target (stream 1) .write rest
  | '>' :: rest => target (stream 1) .write rest
  | _ => some none

def redirects? : (fuel : Nat) → List Char → Option (List Redirect × List Char)
  | 0, cs => some ([], cs)
  | fuel + 1, cs =>
    match redirect? (skipBlanks cs) with
    | none => none
    | some none => some ([], cs)
    | some (some (r, rest)) => (redirects? fuel rest).map fun (rs, rest) => (r :: rs, rest)

def assignment? (word : Word) : Option (String × Word) :=
  let bare := (word.takeWhile fun
    | .text false [c] => isNameChar c
    | _ => false).flatMap fun
    | .text _ cs => cs
    | _ => []
  match word.drop bare.length with
  | .text false ['='] :: value => if isName bare then some (String.ofList bare, value) else none
  | _ => none

def simple? : (fuel : Nat) → List (String × Word) → List Word → List Redirect → List Char →
    Option (Command × List Char)
  | 0, _, _, _, _ => none
  | fuel + 1, assignments, words, redirects, cs =>
    let cs := skipBlanks cs
    match redirect? cs with
    | none => none
    | some (some (r, rest)) => simple? fuel assignments words (redirects ++ [r]) rest
    | some none =>
      match cs with
      | [] => some (.simple assignments words redirects, [])
      | c :: _ =>
        if endsWord c then some (.simple assignments words redirects, cs)
        else
          match readWord? cs with
          | none => none
          | some (word, rest) =>
            match words, assignment? word with
            | [], some a => simple? fuel (assignments ++ [a]) words redirects rest
            | _, _ => simple? fuel assignments (words ++ [word]) redirects rest

def functionName? (cs : List Char) : Option (String × List Char) :=
  let name := cs.takeWhile isNameChar
  if !isName name then none
  else
    match skipBlanks (cs.drop name.length) with
    | '(' :: rest =>
      match skipBlanks rest with
      | ')' :: rest => some (String.ofList name, rest)
      | _ => none
    | _ => none

def wordList : (fuel : Nat) → List Char → Option (List Word × List Char)
  | 0, _ => none
  | fuel + 1, cs =>
    match skipBlanks cs with
    | [] => some ([], [])
    | '\n' :: rest => some ([], rest)
    | ';' :: rest => some ([], rest)
    | rest =>
      (readWord? rest).bind fun (word, rest) =>
        if word.isEmpty then none
        else (wordList fuel rest).map fun (words, rest) => (word :: words, rest)

def patternList : (fuel : Nat) → List Char → Option (List Word × List Char)
  | 0, _ => none
  | fuel + 1, cs =>
    (readWord? (skipBlanks cs)).bind fun (word, rest) =>
      match skipBlanks rest with
      | '|' :: rest => (patternList fuel rest).map fun (words, rest) => (word :: words, rest)
      | ')' :: rest => some ([word], rest)
      | _ => none

/-- The condition and the branches that follow it, from which a branch is made. -/
def chain (condition yes : Command) (no : Command × List Char) : Command × List Char :=
  (.branch condition yes no.1, no.2)

mutual

def parseList : (fuel : Nat) → List Char → Option (Command × List Char)
  | 0, _ => none
  | fuel + 1, cs =>
    let cs := skipToCommand cs
    if endsList cs then some (.nothing, cs)
    else
      (parseAndOr fuel cs).bind fun (c, rest) =>
        let rest := skipBlanks rest
        match rest with
        | ';' :: ';' :: _ => some (c, rest)
        | ';' :: rest => (parseList fuel rest).map fun (d, rest) => (.sequence c d, rest)
        | '\n' :: rest => (parseList fuel rest).map fun (d, rest) => (.sequence c d, rest)
        | '&' :: rest =>
          (parseList fuel rest).map fun (d, rest) => (.sequence (.background c) d, rest)
        | _ => some (c, rest)

def parseAndOr : (fuel : Nat) → List Char → Option (Command × List Char)
  | 0, _ => none
  | fuel + 1, cs => (parsePipeline fuel cs).bind fun (c, rest) => andOrFrom fuel c rest

def andOrFrom : (fuel : Nat) → Command → List Char → Option (Command × List Char)
  | 0, _, _ => none
  | fuel + 1, c, cs =>
    match skipBlanks cs with
    | '&' :: '&' :: rest =>
      (parsePipeline fuel (skipToCommand rest)).bind fun (d, rest) =>
        andOrFrom fuel (.both c d) rest
    | '|' :: '|' :: rest =>
      (parsePipeline fuel (skipToCommand rest)).bind fun (d, rest) =>
        andOrFrom fuel (.either c d) rest
    | rest => some (c, rest)

def parsePipeline : (fuel : Nat) → List Char → Option (Command × List Char)
  | 0, _ => none
  | fuel + 1, cs =>
    match reserved? (skipBlanks cs) with
    | some ("!", rest) => (parsePipeline fuel rest).map fun (c, rest) => (.negated c, rest)
    | _ =>
      (parseCommand fuel (skipBlanks cs)).bind fun (c, rest) =>
        match skipBlanks rest with
        | '|' :: '|' :: _ => some (c, skipBlanks rest)
        | '|' :: rest =>
          (parsePipeline fuel (skipToCommand rest)).map fun (d, rest) => (.pipe c d, rest)
        | rest => some (c, rest)

def parseCommand : (fuel : Nat) → List Char → Option (Command × List Char)
  | 0, _ => none
  | fuel + 1, cs =>
    match cs with
    | '(' :: rest => do
      let (c, rest) ← parseList fuel rest
      match rest with
      | ')' :: rest =>
        let (rs, rest) ← redirects? (rest.length + 1) rest
        return (.subshell c rs, rest)
      | _ => none
    | _ =>
      match reserved? cs with
      | some (keyword, rest) => do
        let (c, rest) ← parseCompound fuel keyword rest
        let (rs, rest) ← redirects? (rest.length + 1) rest
        return (if rs.isEmpty then c else .group c rs, rest)
      | none =>
        match functionName? cs with
        | some (name, rest) => do
          let (body, rest) ← parseCommand fuel (skipToCommand rest)
          return (.function name body, rest)
        | none => do
          let (c, rest) ← simple? (cs.length + 1) [] [] [] cs
          match c with
          | .simple [] [] [] => none
          | _ => return (c, rest)

def parseCompound : (fuel : Nat) → (keyword : String) → List Char → Option (Command × List Char)
  | 0, _, _ => none
  | fuel + 1, keyword, cs =>
    match keyword with
    | "\x7b" => do
      let (c, rest) ← parseList fuel cs
      return (.group c [], ← expect? "\x7d" rest)
    | "if" => parseBranches fuel cs
    | "while" | "until" => do
      let (condition, rest) ← parseList fuel cs
      let (body, rest) ← parseList fuel (← expect? "do" rest)
      return (.loop (keyword == "until") condition body, ← expect? "done" rest)
    | "for" => do
      let cs := skipBlanks cs
      let name := cs.takeWhile isNameChar
      let rest := skipToCommand (cs.drop name.length)
      let (words, rest) ← match reserved? rest with
        | some ("in", rest) =>
          (wordList (rest.length + 1) rest).map fun (words, rest) => (some words, rest)
        | _ =>
          match rest with
          | ';' :: rest => some (none, rest)
          | _ => some (none, rest)
      let (body, rest) ← parseList fuel (← expect? "do" rest)
      if isName name then return (.each (String.ofList name) words body, ← expect? "done" rest)
      else none
    | "case" => do
      let (subject, rest) ← readWord? (skipBlanks cs)
      let (arms, rest) ← parseArms fuel (← expect? "in" rest)
      return (.choose subject arms, rest)
    | _ => none

def parseBranches : (fuel : Nat) → List Char → Option (Command × List Char)
  | 0, _ => none
  | fuel + 1, cs => do
    let (condition, rest) ← parseList fuel cs
    let (yes, rest) ← parseList fuel (← expect? "then" rest)
    match reserved? (skipToCommand rest) with
    | some ("fi", rest) => return (.branch condition yes .nothing, rest)
    | some ("elif", rest) => return chain condition yes (← parseBranches fuel rest)
    | some ("else", rest) =>
      let (no, rest) ← parseList fuel rest
      return (.branch condition yes no, ← expect? "fi" rest)
    | _ => none

def parseArms : (fuel : Nat) → List Char → Option (Command × List Char)
  | 0, _ => none
  | fuel + 1, cs =>
    let cs := skipToCommand cs
    match reserved? cs with
    | some ("esac", rest) => some (.nothing, rest)
    | _ => do
      let cs := match cs with
        | '(' :: rest => rest
        | _ => cs
      let (patterns, rest) ← patternList (cs.length + 1) cs
      let (body, rest) ← parseList fuel rest
      let rest := skipToCommand rest
      let rest := match rest with
        | ';' :: ';' :: rest => rest
        | _ => rest
      let (arms, rest) ← parseArms fuel rest
      return (.arm patterns body arms, rest)

end

inductive Next
  | command (c : Command) (rest : List Char)
  | finished
  | malformed

/-- Reads the commands up to the end of a line; the fuel bounds their number. -/
def parseLine : (fuel : Nat) → List Char → Option (Command × List Char)
  | 0, _ => none
  | fuel + 1, cs =>
    (parseAndOr (4 * cs.length + 16) cs).bind fun (c, rest) =>
      let joined (c : Command) (rest : List Char) : Option (Command × List Char) :=
        match skipBlanks rest with
        | [] => some (c, [])
        | '\n' :: rest => some (c, rest)
        | rest => (parseLine fuel rest).map fun (d, rest) => (.sequence c d, rest)
      match skipBlanks rest with
      | [] => some (c, [])
      | '\n' :: rest => some (c, rest)
      | ';' :: ';' :: _ => none
      | ';' :: rest => joined c rest
      | '&' :: rest => joined (.background c) rest
      | _ => none

def nextCommand (cs : List Char) : Next :=
  match skipToCommand cs with
  | [] => .finished
  | cs =>
    match parseLine (cs.length + 1) cs with
    | some (c, rest) => .command c rest
    | none => .malformed

end ClusterWatch.Shell
