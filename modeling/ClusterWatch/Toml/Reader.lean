import ClusterWatch.Toml.Number
import ClusterWatch.Toml.Text

/-! # Reading TOML

The reader of documents, as version 1.0 of TOML has them. A dotted key may have as many parts, and
arrays and tables in braces may stand within each other as deep, as `nestingLimit` allows.
-/
namespace ClusterWatch.Toml

/-- The greatest number of parts of a key, and the greatest depth of values. -/
def nestingLimit : Nat := 79

def skipBlanks (cs : List Char) : List Char := cs.dropWhile isBlank

/-- What follows white space, line endings and comments. A comment goes on to the end of its line; if
it has a character that may not stand in it, that is where this stops. -/
def skipTrivia (inComment : Bool) : List Char → List Char
  | [] => []
  | '\n' :: cs => skipTrivia false cs
  | '\r' :: '\n' :: cs => skipTrivia false cs
  | c :: cs =>
    if inComment then if isLineChar c then skipTrivia true cs else c :: cs
    else if isBlank c then skipTrivia false cs
    else if c = '#' then skipTrivia true cs
    else c :: cs

def isKeyChar (c : Char) : Bool := c.isAlphanum || c == '_' || c == '-'

def readKey? : List Char → Option TextRest
  | '"' :: cs => readQuoted cs
  | '\'' :: cs => readLiteral cs
  | cs =>
    let key := cs.takeWhile isKeyChar
    if key.isEmpty then none else some (key, cs.drop key.length)

/-- A dotted key: the parts before the last, and the last. -/
abbrev DottedKey := List TomlKey × TomlKey

def readKeys? : (most : Nat) → List Char → Option (DottedKey × List Char)
  | 0, _ => none
  | most + 1, cs => do
    let (key, cs) ← readKey? (skipBlanks cs)
    match skipBlanks cs with
    | '.' :: cs => (readKeys? most cs).map fun ((path, last), cs) => ((key :: path, last), cs)
    | cs => some (([], key), cs)

def readScalar? (cs : List Char) : Option (TomlValue × List Char) :=
  match cs with
  | 't' :: 'r' :: 'u' :: 'e' :: cs => some (.boolean true, cs)
  | 'f' :: 'a' :: 'l' :: 's' :: 'e' :: cs => some (.boolean false, cs)
  | c :: _ =>
    if c = '"' ∨ c = '\'' then (readText? cs).map fun (text, cs) => (.text text, cs)
    else (readMoment? cs).or (readNumber? cs)
  | [] => none

abbrev ValueReader := List Char → Option (TomlValue × List Char)

def readAssignment? (read : ValueReader) (cs : List Char) :
    Option (DottedKey × TomlValue × List Char) := do
  let (key, cs) ← readKeys? nestingLimit cs
  let (value, cs) ← read (skipBlanks (← after? '=' cs))
  return (key, value, cs)

/-- Reads the values of an array, at least one, and its end. A comma may come after the last. -/
def readItems? (read : ValueReader) : (fuel : Nat) → List Char → Option (List TomlValue × List Char)
  | 0, _ => none
  | fuel + 1, cs =>
    (read cs).bind fun (value, cs) =>
      match skipTrivia false cs with
      | ']' :: cs => some ([value], cs)
      | ',' :: cs =>
        match skipTrivia false cs with
        | ']' :: cs => some ([value], cs)
        | cs => (readItems? read fuel cs).map fun (values, cs) => (value :: values, cs)
      | _ => none

/-- Reads more entries of a table in braces, at least one, and its end. -/
def readEntries? (read : ValueReader) :
    (fuel : Nat) → TomlEntries → List Char → Option (TomlEntries × List Char)
  | 0, _, _ => none
  | fuel + 1, entries, cs =>
    (readAssignment? read cs).bind fun ((path, key), value, cs) =>
      (entries.insertKey? path key value).bind fun entries =>
        match skipBlanks cs with
        | '}' :: cs => some (entries, cs)
        | ',' :: cs => readEntries? read fuel entries cs
        | _ => none

/-- Reads a value in which arrays and tables stand within each other at most so deep. -/
def readValue? : (depth : Nat) → ValueReader
  | 0, cs => readScalar? cs
  | depth + 1, cs =>
    match cs with
    | '[' :: cs =>
      match skipTrivia false cs with
      | ']' :: cs => some (.array [], cs)
      | cs => (readItems? (readValue? depth) cs.length cs).map fun (items, cs) => (.array items, cs)
    | '{' :: cs =>
      match skipBlanks cs with
      | '}' :: cs => some (.table .inline [], cs)
      | cs => (readEntries? (readValue? depth) cs.length [] cs).map fun (entries, cs) =>
          (.table .inline entries, cs)
    | cs => readScalar? cs

def atLineEnd? (cs : List Char) : Option (List Char) :=
  match skipBlanks cs with
  | [] => some []
  | '#' :: cs => some ('#' :: cs)
  | cs => afterNewline? cs

def readStatement? : List Char → Option (TomlStatement × List Char)
  | '[' :: '[' :: cs => do
    let ((path, key), cs) ← readKeys? nestingLimit cs
    return (.item path key, ← after? ']' (← after? ']' cs))
  | '[' :: cs => do
    let ((path, key), cs) ← readKeys? nestingLimit cs
    return (.table path key, ← after? ']' cs)
  | cs => do
    let ((path, key), value, cs) ← readAssignment? (readValue? nestingLimit) cs
    return (.assign path key value, cs)

def readStatements? : (fuel : Nat) → List Char → Option (List TomlStatement)
  | 0, _ => none
  | fuel + 1, cs =>
    match skipTrivia false cs with
    | [] => some []
    | cs =>
      (readStatement? cs).bind fun (statement, cs) =>
        (atLineEnd? cs).bind fun cs =>
          (readStatements? fuel cs).map (statement :: ·)

def dropByteOrderMark : List Char → List Char
  | '\ufeff' :: cs => cs
  | cs => cs

def document? (cs : List Char) : Option TomlEntries :=
  ((readStatements? (cs.length + 1) (dropByteOrderMark cs)).bind TomlDocument.ofStatements?).map
    (·.entries)

end ClusterWatch.Toml
