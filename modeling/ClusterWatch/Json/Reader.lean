import ClusterWatch.Json.Value

/-! # Reading JSON

The reader of JSON texts, as RFC 8259 has them. A text has to be one value with white space around it.
-/
namespace ClusterWatch.JsonValue
open Text

def isSpace (c : Char) : Bool := c == ' ' || c == '\t' || c == '\n' || c == '\r'

def skip (cs : List Char) : List Char := cs.dropWhile isSpace

def hexDigit? (c : Char) : Option Nat :=
  if c.isDigit then some (c.toNat - '0'.toNat)
  else if 'a' ≤ c ∧ c ≤ 'f' then some (c.toNat - 'a'.toNat + 10)
  else if 'A' ≤ c ∧ c ≤ 'F' then some (c.toNat - 'A'.toNat + 10)
  else none

def hexUnit? (a b c d : Char) : Option Nat := do
  return ((← hexDigit? a) * 16 + (← hexDigit? b)) * 256 + (← hexDigit? c) * 16 + (← hexDigit? d)

def isHighHalf (n : Nat) : Bool := 0xd800 ≤ n && n < 0xdc00

def isLowHalf (n : Nat) : Bool := 0xdc00 ≤ n && n < 0xe000

def ofHalves (high low : Nat) : Char :=
  Char.ofNat (0x10000 + (high - 0xd800) * 0x400 + (low - 0xdc00))

def escaped? : Char → Option Char
  | '"' => some '"'
  | '\\' => some '\\'
  | '/' => some '/'
  | 'b' => some '\x08'
  | 'f' => some '\x0c'
  | 'n' => some '\n'
  | 'r' => some '\r'
  | 't' => some '\t'
  | _ => none

/-- A string as far as it is read: its text, unless it has none, and what follows it. -/
abbrev StringRest := Option (List Char) × List Char

def prepend (c : Char) (s : StringRest) : StringRest := (s.1.map (c :: ·), s.2)

def readString : List Char → Option StringRest
  | [] => none
  | '"' :: cs => some (some [], cs)
  | '\\' :: 'u' :: a :: b :: c :: d :: '\\' :: 'u' :: e :: f :: g :: h :: cs =>
    match hexUnit? a b c d with
    | none => none
    | some n =>
      if isHighHalf n then
        match hexUnit? e f g h with
        | none => none
        | some m =>
          if isLowHalf m then (readString cs).map (prepend (ofHalves n m))
          else (readString ('\\' :: 'u' :: e :: f :: g :: h :: cs)).map fun s => (none, s.2)
      else if isLowHalf n then
        (readString ('\\' :: 'u' :: e :: f :: g :: h :: cs)).map fun s => (none, s.2)
      else (readString ('\\' :: 'u' :: e :: f :: g :: h :: cs)).map (prepend (Char.ofNat n))
  | '\\' :: 'u' :: a :: b :: c :: d :: cs =>
    match hexUnit? a b c d with
    | none => none
    | some n =>
      if isHighHalf n || isLowHalf n then (readString cs).map fun s => (none, s.2)
      else (readString cs).map (prepend (Char.ofNat n))
  | '\\' :: c :: cs =>
    match escaped? c with
    | some e => (readString cs).map (prepend e)
    | none => none
  | c :: cs => if c.toNat < 0x20 then none else (readString cs).map (prepend c)
termination_by cs => cs.length

def digits? (cs : List Char) : Option (List Char × List Char) :=
  let digits := cs.takeWhile Char.isDigit
  if digits.isEmpty then none else some (digits, cs.drop digits.length)

/-- Reads the digits before the point: no zero stands in front of others. -/
def whole? (cs : List Char) : Option (List Char × List Char) :=
  (digits? cs).filter fun (digits, _) => digits.length = 1 ∨ digits.head? ≠ some '0'

def number? (cs : List Char) : Option (NumberText × List Char) := do
  let negative := cs.head? = some '-'
  let (whole, cs) ← whole? (if negative then cs.tail else cs)
  let (places, cs) ← match cs with
    | '.' :: cs => (digits? cs).map fun (ds, cs) => (some ds, cs)
    | _ => some (none, cs)
  let (exponent, cs) ← match cs with
    | c :: rest =>
      if c = 'e' ∨ c = 'E' then
        let negative := rest.head? = some '-'
        let rest := if rest.head? = some '-' ∨ rest.head? = some '+' then rest.tail else rest
        (digits? rest).map fun (ds, cs) => (some (decide negative, ds), cs)
      else some (none, cs)
    | [] => some (none, [])
  return (⟨negative, whole, places, exponent⟩, cs)

def word? (cs : List Char) : Option (JsonValue × List Char) :=
  match cs with
  | 'n' :: 'u' :: 'l' :: 'l' :: cs => some (.null, cs)
  | 't' :: 'r' :: 'u' :: 'e' :: cs => some (.bool true, cs)
  | 'f' :: 'a' :: 'l' :: 's' :: 'e' :: cs => some (.bool false, cs)
  | _ => none

mutual

/-- Reads a value; the fuel bounds the number of values and names. -/
def readValue : (fuel : Nat) → List Char → Option (JsonValue × List Char)
  | 0, _ => none
  | fuel + 1, cs =>
    match skip cs with
    | [] => none
    | '"' :: cs => (readString cs).map fun (s, cs) => (.string s, cs)
    | '[' :: cs =>
      match skip cs with
      | ']' :: cs => some (.array [], cs)
      | _ => (readItems fuel cs).map fun (items, cs) => (.array items, cs)
    | '{' :: cs =>
      match skip cs with
      | '}' :: cs => some (.object [], cs)
      | _ => (readFields fuel cs).map fun (fields, cs) => (.object fields, cs)
    | c :: cs =>
      if c = '-' ∨ c.isDigit then (number? (c :: cs)).map fun (n, cs) => (.number n, cs)
      else word? (c :: cs)

def readItems : (fuel : Nat) → List Char → Option (List JsonValue × List Char)
  | 0, _ => none
  | fuel + 1, cs =>
    (readValue fuel cs).bind fun (v, cs) =>
      match skip cs with
      | ']' :: cs => some ([v], cs)
      | ',' :: cs => (readItems fuel cs).map fun (vs, cs) => (v :: vs, cs)
      | _ => none

def readFields : (fuel : Nat) → List Char →
    Option (List (Option (List Char) × JsonValue) × List Char)
  | 0, _ => none
  | fuel + 1, cs =>
    match skip cs with
    | '"' :: cs =>
      (readString cs).bind fun (name, cs) =>
        match skip cs with
        | ':' :: cs =>
          (readValue fuel cs).bind fun (v, cs) =>
            match skip cs with
            | '}' :: cs => some ([(name, v)], cs)
            | ',' :: cs => (readFields fuel cs).map fun (fs, cs) => ((name, v) :: fs, cs)
            | _ => none
        | _ => none
    | _ => none

end

def ofChars? (cs : List Char) : Option JsonValue :=
  match readValue (cs.length + 1) cs with
  | some (v, rest) => if (skip rest).isEmpty then some v else none
  | none => none

end ClusterWatch.JsonValue
