import ClusterWatch.Shell.Scene
import ClusterWatch.Shell.Tool

/-! # Conditions

What `test` says about texts, numbers and files. A condition is read with the precedences of its
operators: `-o` binds weaker than `-a`, and that weaker than `!`.
-/
namespace ClusterWatch.Shell
open Text Host

def unaryTest? (s : Scene) (operator : String) (text : List Char) : Option Bool :=
  let entry := s.files.find? s.machine.directory (String.ofList text)
  match operator with
  | "-n" => some (!text.isEmpty)
  | "-z" => some text.isEmpty
  | "-e" | "-r" | "-w" => some entry.isSome
  | "-f" => some (match entry with
    | some (.file _ _) => !"/dev/".toList.isPrefixOf text
    | some (.program _) => true
    | _ => false)
  | "-d" => some (entry = some .directory)
  | "-x" => some (match entry with
    | some (.file _ runnable) => runnable
    | _ => entry.isSome)
  | "-s" => some (match entry with
    | some (.file content _) => !content.isEmpty
    | _ => entry.isSome)
  | "-t" | "-L" | "-h" | "-p" | "-S" => some false
  | _ => none

def binaryTest? (a : List Char) (operator : String) (b : List Char) : Option (Option Bool) :=
  let numbers (f : Int → Int → Bool) : Option Bool :=
    match integer? a, integer? b with
    | some a, some b => some (f a b)
    | _, _ => none
  match operator with
  | "=" | "==" => some (some (a == b))
  | "!=" => some (some (a != b))
  | "-eq" => some (numbers fun a b => a == b)
  | "-ne" => some (numbers fun a b => a != b)
  | "-lt" => some (numbers fun a b => a < b)
  | "-le" => some (numbers fun a b => a ≤ b)
  | "-gt" => some (numbers fun a b => b < a)
  | "-ge" => some (numbers fun a b => b ≤ a)
  | "<" => some (some (String.ofList a < String.ofList b))
  | ">" => some (some (String.ofList b < String.ofList a))
  | _ => none

mutual

def testOr (s : Scene) : (fuel : Nat) → List (List Char) → Option (Bool × List (List Char))
  | 0, _ => none
  | fuel + 1, args => do
    let (a, rest) ← testAnd s fuel args
    match rest with
    | ['-', 'o'] :: rest =>
      let (b, rest) ← testOr s fuel rest
      return (a || b, rest)
    | _ => return (a, rest)

def testAnd (s : Scene) : (fuel : Nat) → List (List Char) → Option (Bool × List (List Char))
  | 0, _ => none
  | fuel + 1, args => do
    let (a, rest) ← testTerm s fuel args
    match rest with
    | ['-', 'a'] :: rest =>
      let (b, rest) ← testAnd s fuel rest
      return (a && b, rest)
    | _ => return (a, rest)

def testTerm (s : Scene) : (fuel : Nat) → List (List Char) → Option (Bool × List (List Char))
  | 0, _ => none
  | _, [] => none
  | fuel + 1, a :: rest =>
    match rest with
    | o :: b :: tail =>
      match binaryTest? a (String.ofList o) b with
      | some result => result.map (·, tail)
      | none => testPrefix s fuel a rest
    | _ => testPrefix s fuel a rest

def testPrefix (s : Scene) : (fuel : Nat) → List Char → List (List Char) →
    Option (Bool × List (List Char))
  | 0, _, _ => none
  | fuel + 1, a, rest =>
    match a, rest with
    | _, [] => some (!a.isEmpty, [])
    | ['!'], _ => (testTerm s fuel rest).map fun (b, rest) => (!b, rest)
    | ['('], _ => do
      let (b, rest) ← testOr s fuel rest
      match rest with
      | [')'] :: rest => return (b, rest)
      | _ => none
    | _, text :: tail =>
      match unaryTest? s (String.ofList a) text with
      | some b => some (b, tail)
      | none => some (!a.isEmpty, rest)

end

/-- The status of a condition: zero if it holds, one if not, two if it is none. -/
def testStatus (s : Scene) (args : List (List Char)) : Nat :=
  if args.isEmpty then 1
  else
    match testOr s (6 * args.length + 6) args with
    | some (true, []) => 0
    | some (false, []) => 1
    | _ => 2

end ClusterWatch.Shell
