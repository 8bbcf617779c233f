import ClusterWatch.Shell.Syntax

/-! # Arithmetic

The integer expressions of the shell, with the operators and precedences of C. Values wrap around at
64 bits. A name stands for the number that its variable spells, and can be assigned to.
-/
namespace ClusterWatch.Shell

inductive Token
  | number (n : Int)
  | name (s : String)
  | operator (s : String)
deriving DecidableEq, Repr

def operators : List String :=
  ["<<=", ">>=", "<<", ">>", "<=", ">=", "==", "!=", "&&", "||", "+=", "-=", "*=", "/=", "%=", "&=",
    "|=", "^=", "+", "-", "*", "/", "%", "<", ">", "=", "!", "~", "&", "|", "^", "?", ":", "(", ")",
    ","]

def digitOf (c : Char) : Nat :=
  if c.isDigit then c.toNat - '0'.toNat else c.toLower.toNat - 'a'.toNat + 10

def inBase (base : Nat) (cs : List Char) : Option Int :=
  if cs.all fun c => (c.isDigit || ('a' ≤ c.toLower && c.toLower ≤ 'f')) && digitOf c < base then
    some (cs.foldl (fun n c => base * n + digitOf c) 0 : Nat)
  else none

/-- A constant: decimal, octal after a zero, hexadecimal after `0x`. -/
def constant? : List Char → Option Int
  | '0' :: 'x' :: cs | '0' :: 'X' :: cs => if cs.isEmpty then none else inBase 16 cs
  | '0' :: cs => inBase 8 cs
  | cs => if cs.isEmpty then none else inBase 10 cs

def tokens? : (fuel : Nat) → List Char → Option (List Token)
  | 0, _ => some []
  | _, [] => some []
  | fuel + 1, c :: cs =>
    if c.isWhitespace then tokens? fuel cs
    else if c.isDigit then
      let digits := (c :: cs).takeWhile Char.isAlphanum
      match constant? digits with
      | some n => (tokens? fuel ((c :: cs).drop digits.length)).map (.number n :: ·)
      | none => none
    else if isNameChar c then
      let name := (c :: cs).takeWhile isNameChar
      (tokens? fuel ((c :: cs).drop name.length)).map (.name (String.ofList name) :: ·)
    else
      match operators.find? fun o => o.toList.isPrefixOf (c :: cs) with
      | some o => (tokens? fuel ((c :: cs).drop o.length)).map (.operator o :: ·)
      | none => none

def wrap64 (n : Int) : Int := Int.bmod n UInt64.size

/-- The values of variables that an expression changes, later ones first. -/
abbrev Changes := List (String × Int)

/-- The value of a text as a number: an optional sign and a constant, zero if it is empty. -/
def numberOf? (cs : List Char) : Option Int :=
  match cs with
  | [] => some 0
  | '-' :: cs => (constant? cs).map (- ·)
  | '+' :: cs => constant? cs
  | cs => constant? cs

def precedence? : String → Option Nat
  | "*" | "/" | "%" => some 10
  | "+" | "-" => some 9
  | "<<" | ">>" => some 8
  | "<" | ">" | "<=" | ">=" => some 7
  | "==" | "!=" => some 6
  | "&" => some 5
  | "^" => some 4
  | "|" => some 3
  | "&&" => some 2
  | "||" => some 1
  | _ => none

def ofTruth (b : Bool) : Int := if b then 1 else 0

def bitwise (f : UInt64 → UInt64 → UInt64) (a b : Int) : Int :=
  wrap64 (f (UInt64.ofNat (a % UInt64.size).toNat) (UInt64.ofNat (b % UInt64.size).toNat)).toNat

/-- The result of a binary operator; there is none for a division by zero. -/
def binary? (o : String) (a b : Int) : Option Int :=
  match o with
  | "*" => some (wrap64 (a * b))
  | "/" => if b = 0 then none else some (wrap64 (a.tdiv b))
  | "%" => if b = 0 then none else some (a.tmod b)
  | "+" => some (wrap64 (a + b))
  | "-" => some (wrap64 (a - b))
  | "<<" => some (wrap64 (a <<< (b % 64).toNat))
  | ">>" => some (a >>> (b % 64).toNat)
  | "<" => some (ofTruth (a < b))
  | ">" => some (ofTruth (b < a))
  | "<=" => some (ofTruth (a ≤ b))
  | ">=" => some (ofTruth (b ≤ a))
  | "==" => some (ofTruth (a = b))
  | "!=" => some (ofTruth (a ≠ b))
  | "&" => some (bitwise (· &&& ·) a b)
  | "^" => some (bitwise (· ^^^ ·) a b)
  | "|" => some (bitwise (· ||| ·) a b)
  | "&&" => some (ofTruth (a ≠ 0 && b ≠ 0))
  | "||" => some (ofTruth (a ≠ 0 || b ≠ 0))
  | _ => none

abbrev Evaluated := Int × Changes × List Token

def valueOf? (lookup : String → List Char) (changes : Changes) (name : String) : Option Int :=
  match changes.find? (·.1 = name) with
  | some (_, n) => some n
  | none => numberOf? (lookup name)

mutual

def assignment (lookup : String → List Char) : (fuel : Nat) → Changes → List Token →
    Option Evaluated
  | 0, _, _ => none
  | fuel + 1, changes, ts =>
    match ts with
    | .name s :: .operator "=" :: rest => do
      let (n, changes, rest) ← assignment lookup fuel changes rest
      return (n, (s, n) :: changes, rest)
    | .name s :: .operator o :: rest =>
      if o.length ≥ 2 ∧ o.endsWith "=" ∧ (precedence? o).isNone then do
        let (n, changes, rest) ← assignment lookup fuel changes rest
        let old ← valueOf? lookup changes s
        let n ← binary? (o.dropEnd 1).toString old n
        return (n, (s, n) :: changes, rest)
      else conditional lookup fuel changes ts
    | _ => conditional lookup fuel changes ts

def conditional (lookup : String → List Char) : (fuel : Nat) → Changes → List Token →
    Option Evaluated
  | 0, _, _ => none
  | fuel + 1, changes, ts => do
    let (c, changes, rest) ← operation lookup fuel 1 changes ts
    match rest with
    | .operator "?" :: rest =>
      let (a, changesA, rest) ← assignment lookup fuel changes rest
      match rest with
      | .operator ":" :: rest =>
        let (b, changesB, rest) ← conditional lookup fuel changes rest
        return if c ≠ 0 then (a, changesA, rest) else (b, changesB, rest)
      | _ => none
    | _ => return (c, changes, rest)

def operation (lookup : String → List Char) : (fuel : Nat) → (least : Nat) → Changes →
    List Token → Option Evaluated
  | 0, _, _, _ => none
  | fuel + 1, least, changes, ts => do
    let (a, changes, rest) ← unary lookup fuel changes ts
    operationFrom lookup fuel least a changes rest

def operationFrom (lookup : String → List Char) : (fuel : Nat) → (least : Nat) → Int → Changes →
    List Token → Option Evaluated
  | 0, _, _, _, _ => none
  | fuel + 1, least, a, changes, ts =>
    match ts with
    | .operator o :: rest =>
      match precedence? o with
      | some p =>
        if least ≤ p then do
          let (b, changes, rest) ← operation lookup fuel (p + 1) changes rest
          operationFrom lookup fuel least (← binary? o a b) changes rest
        else some (a, changes, ts)
      | none => some (a, changes, ts)
    | _ => some (a, changes, ts)

def unary (lookup : String → List Char) : (fuel : Nat) → Changes → List Token → Option Evaluated
  | 0, _, _ => none
  | fuel + 1, changes, ts =>
    match ts with
    | .number n :: rest => some (wrap64 n, changes, rest)
    | .name s :: rest => (valueOf? lookup changes s).map (·, changes, rest)
    | .operator "(" :: rest => do
      let (n, changes, rest) ← assignment lookup fuel changes rest
      match rest with
      | .operator ")" :: rest => return (n, changes, rest)
      | _ => none
    | .operator "-" :: rest =>
      (unary lookup fuel changes rest).map fun (n, c, rest) => (wrap64 (-n), c, rest)
    | .operator "+" :: rest => unary lookup fuel changes rest
    | .operator "!" :: rest =>
      (unary lookup fuel changes rest).map fun (n, c, rest) => (ofTruth (n = 0), c, rest)
    | .operator "~" :: rest =>
      (unary lookup fuel changes rest).map fun (n, c, rest) => (-n - 1, c, rest)
    | _ => none

end

/-- The value of an expression and the changes of variables; an empty expression is zero. -/
def evaluate? (lookup : String → List Char) (source : List Char) : Option (Int × Changes) :=
  (tokens? source.length source).bind fun ts =>
    if ts.isEmpty then some (0, [])
    else
      match assignment lookup (6 * ts.length + 10) [] ts with
      | some (n, changes, []) => some (n, changes)
      | _ => none

end ClusterWatch.Shell
