/-! # The language of scripts

The commands and words of a shell script, and how words are read.
-/
namespace ClusterWatch.Shell

/-! ## Shell scripts

The commands of a shell script. Words keep the source of what is worked out in them when they are
used: of commands, of arithmetic, and of the words inside parameters.
-/

/-- A part of a word. What is quoted is neither split into fields nor read as a pattern. -/
inductive Part
  | text (quoted : Bool) (cs : List Char)
  /-- A parameter with an operator and the source of its word, such as `:-` and `x`. -/
  | parameter (quoted : Bool) (name : String) (operator : String) (word : List Char)
  | command (quoted : Bool) (source : List Char)
  | arithmetic (quoted : Bool) (source : List Char)
deriving DecidableEq, Repr

abbrev Word := List Part

inductive RedirectKind
  | read
  | write
  | append
  | duplicate
  | here
deriving DecidableEq, Repr

structure Redirect where
  stream : Nat
  kind : RedirectKind
  target : Word
deriving DecidableEq, Repr

/-- Commands. The arms of a `choose` are chained by `arm` and end with `nothing`. -/
inductive Command
  | nothing
  | simple (assignments : List (String × Word)) (words : List Word) (redirects : List Redirect)
  | sequence (first second : Command)
  | both (first second : Command)
  | either (first second : Command)
  | negated (c : Command)
  | pipe (first second : Command)
  | background (c : Command)
  | branch (condition yes no : Command)
  /-- Repeats the body while the condition succeeds, or until it does. -/
  | loop (isUntil : Bool) (condition body : Command)
  | each (name : String) (words : Option (List Word)) (body : Command)
  | choose (subject : Word) (arms : Command)
  | arm (patterns : List Word) (body rest : Command)
  | group (c : Command) (redirects : List Redirect)
  | subshell (c : Command) (redirects : List Redirect)
  | function (name : String) (body : Command)
deriving DecidableEq, Repr, Inhabited

/-! ## Reading words

The reader of the words of a script: quotes, backslashes, parameters, commands and arithmetic. The
readers give `none` where a quote or a bracket is not closed.
-/

def isNameChar (c : Char) : Bool := c.isAlphanum || c == '_'

/-- A name: letters, digits and underscores, no digit first. -/
def isName (cs : List Char) : Bool :=
  match cs with
  | [] => false
  | c :: _ => !c.isDigit && cs.all isNameChar

def isSpecialParameter (c : Char) : Bool := "@*#?$!-".toList.contains c

def endsWord (c : Char) : Bool := " \t\n;&|<>()".toList.contains c

inductive Quote
  | none
  | single
  | double
deriving DecidableEq

def upToClosing (opening closing : Char) (quote : Quote) (depth : Nat) (acc : List Char) :
    List Char → Option (List Char × List Char)
  | [] => Option.none
  | '\\' :: c :: cs =>
    if quote = .single then
      if c = '\'' then upToClosing opening closing .none depth (c :: '\\' :: acc) cs
      else upToClosing opening closing quote depth (c :: '\\' :: acc) cs
    else upToClosing opening closing quote depth (c :: '\\' :: acc) cs
  | c :: cs =>
    match quote with
    | .single => upToClosing opening closing (if c = '\'' then .none else .single) depth (c :: acc) cs
    | .double => upToClosing opening closing (if c = '"' then .none else .double) depth (c :: acc) cs
    | .none =>
      if c = closing then
        match depth with
        | 0 => some (acc.reverse, cs)
        | depth + 1 => upToClosing opening closing .none depth (c :: acc) cs
      else if c = opening then upToClosing opening closing .none (depth + 1) (c :: acc) cs
      else if c = '\'' then upToClosing opening closing .single depth (c :: acc) cs
      else if c = '"' then upToClosing opening closing .double depth (c :: acc) cs
      else upToClosing opening closing .none depth (c :: acc) cs

/-- The text up to a back quote; a backslash keeps the next character from its meaning. -/
def upToBackQuote (acc : List Char) : List Char → Option (List Char × List Char)
  | [] => none
  | '\\' :: c :: cs =>
    if c = '`' ∨ c = '\\' ∨ c = '$' then upToBackQuote (c :: acc) cs
    else upToBackQuote (c :: '\\' :: acc) cs
  | '`' :: cs => some (acc.reverse, cs)
  | c :: cs => upToBackQuote (c :: acc) cs

/-- The operators between a parameter and its word, longer ones first. -/
def parameterOperators : List String :=
  [":-", ":=", ":+", ":?", "%%", "##", "-", "=", "+", "?", "%", "#"]

def braced? (quoted : Bool) (inside : List Char) : Option Part :=
  match inside with
  | '#' :: c :: cs =>
    some (.parameter quoted (String.ofList (c :: cs)) "length" [])
  | _ =>
    let name := match inside with
      | c :: _ => if isSpecialParameter c then [c] else inside.takeWhile isNameChar
      | [] => []
    let rest := inside.drop name.length
    if name.isEmpty then none
    else if rest.isEmpty then some (.parameter quoted (String.ofList name) "" [])
    else
      (parameterOperators.find? fun o => o.toList.isPrefixOf rest).map fun o =>
        .parameter quoted (String.ofList name) o (rest.drop o.length)

def dollar? (quoted : Bool) : List Char → Option (Part × List Char)
  | '(' :: '(' :: cs =>
    match upToClosing '(' ')' .none 0 [] cs with
    | some (source, ')' :: rest) => some (.arithmetic quoted source, rest)
    | _ =>
      (upToClosing '(' ')' .none 0 [] ('(' :: cs)).map fun (source, rest) =>
        (.command quoted source, rest)
  | '(' :: cs =>
    (upToClosing '(' ')' .none 0 [] cs).map fun (source, rest) => (.command quoted source, rest)
  | '{' :: cs =>
    (upToClosing '{' '}' .none 0 [] cs).bind fun (inside, rest) =>
      (braced? quoted inside).map (·, rest)
  | c :: cs =>
    if isSpecialParameter c ∨ c.isDigit then some (.parameter quoted c.toString "" [], cs)
    else if isNameChar c then
      let name := (c :: cs).takeWhile isNameChar
      some (.parameter quoted (String.ofList name) "" [], (c :: cs).drop name.length)
    else some (.text quoted ['$'], c :: cs)
  | [] => some (.text quoted ['$'], [])

inductive WordEnd
  | outside
  | doubleQuote
  /-- Only the end of the text ends a text to be read. -/
  | endOfText
deriving DecidableEq

/-- Reads the parts of a word up to its end. The fuel bounds the number of parts and characters. -/
def readParts : (fuel : Nat) → WordEnd → List Char → Option (Word × List Char)
  | 0, _, _ => none
  | fuel + 1, stop, cs =>
    let quoted := stop ≠ .outside
    let andThen (p : Part) (rest : List Char) : Option (Word × List Char) :=
      (readParts fuel stop rest).map fun (ps, rest) => (p :: ps, rest)
    match cs with
    | [] => if stop = .doubleQuote then none else some ([], [])
    | '\\' :: '\n' :: rest => readParts fuel stop rest
    | '\\' :: c :: rest =>
      if stop = .outside ∨ c = '$' ∨ c = '`' ∨ c = '\\' ∨ (c = '"' ∧ stop = .doubleQuote) then
        andThen (.text true [c]) rest
      else andThen (.text true ['\\', c]) rest
    | '$' :: rest => (dollar? quoted rest).bind fun (p, rest) => andThen p rest
    | '`' :: rest =>
      (upToBackQuote [] rest).bind fun (source, rest) => andThen (.command quoted source) rest
    | '"' :: rest =>
      match stop with
      | .doubleQuote => some ([], rest)
      | .endOfText => andThen (.text true ['"']) rest
      | .outside =>
        (readParts fuel .doubleQuote rest).bind fun (inner, rest) =>
          (readParts fuel .outside rest).map fun (ps, rest) =>
            (.text true [] :: inner ++ ps, rest)
    | '\'' :: rest =>
      if stop = .outside then
        let inner := rest.takeWhile (· != '\'')
        match rest.drop inner.length with
        | _ :: rest => andThen (.text true inner) rest
        | [] => none
      else andThen (.text true ['\'']) rest
    | c :: rest =>
      if stop = .outside ∧ endsWord c then some ([], cs) else andThen (.text quoted [c]) rest

def readWord? (cs : List Char) : Option (Word × List Char) :=
  readParts (2 * cs.length + 2) .outside cs

/-- The parts of a text in which parameters are worked out, such as a text to be read. -/
def wholeText (cs : List Char) : Word :=
  match readParts (2 * cs.length + 2) .endOfText cs with
  | some (ps, _) => ps
  | none => [.text true cs]

def innerWord (quoted : Bool) (cs : List Char) : Word :=
  if quoted then wholeText cs
  else
    match readParts (2 * cs.length + 2) .outside cs with
    | some (ps, rest) => ps ++ [.text false rest]
    | none => [.text true cs]

def plainText? : Word → Option (List Char)
  | [] => some []
  | .text _ cs :: ps => (plainText? ps).map (cs ++ ·)
  | _ :: _ => none

def bareText? : Word → Option (List Char)
  | [] => some []
  | .text false cs :: ps => (bareText? ps).map (cs ++ ·)
  | _ :: _ => none

end ClusterWatch.Shell
