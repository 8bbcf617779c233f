import ClusterWatch.Shell.Arithmetic
import ClusterWatch.Text.Utf8

/-! # Formatted output

The texts that `echo` and `printf` write. Both know escapes; an octal escape writes one byte, which
need not be part of a character.
-/
namespace ClusterWatch.Shell
open Text

def bytesOf (cs : List Char) : List UInt8 := encode cs

def escapeByte? : Char → Option UInt8
  | 'a' => some 7
  | 'b' => some 8
  | 'f' => some 12
  | 'n' => some 10
  | 'r' => some 13
  | 't' => some 9
  | 'v' => some 11
  | '\\' => some 92
  | _ => none

/-- The byte of up to so many octal digits, and the rest. -/
def octal (most : Nat) (cs : List Char) : UInt8 × List Char :=
  let digits := (cs.take most).takeWhile fun c => '0' ≤ c && c ≤ '7'
  (UInt8.ofNat (digits.foldl (fun n c => 8 * n + digitOf c) 0), cs.drop digits.length)

/-- The bytes of a text with escapes, and whether an escape ends all output. In an argument, octal
digits follow a zero. The fuel bounds the number of characters. -/
def unescape (inArgument : Bool) : (fuel : Nat) → List Char → List UInt8 × Bool
  | 0, _ => ([], false)
  | _, [] => ([], false)
  | fuel + 1, '\\' :: c :: cs =>
    let continueWith (b : UInt8) (rest : List Char) : List UInt8 × Bool :=
      let (bs, stop) := unescape inArgument fuel rest
      (b :: bs, stop)
    if c = 'c' ∧ inArgument then ([], true)
    else if c = '0' ∧ inArgument then let (b, rest) := octal 3 cs; continueWith b rest
    else if '0' ≤ c ∧ c ≤ '7' ∧ !inArgument then
      let (b, rest) := octal 3 (c :: cs)
      continueWith b rest
    else
      match escapeByte? c with
      | some b => continueWith b cs
      | none => continueWith 92 (c :: cs)
  | fuel + 1, c :: cs =>
    let (bs, stop) := unescape inArgument fuel cs
    (bytesOf [c] ++ bs, stop)

def argumentBytes (cs : List Char) : List UInt8 × Bool := unescape true cs.length cs

def joinWords (words : List (List Char)) : List Char := (words.intersperse [' ']).flatten

/-- What `echo` writes: the arguments with their escapes and the end of the line, which `-n` and an
escape can take away. -/
def echoBytes (args : List (List Char)) : List UInt8 :=
  let (args, ends) := match args with
    | ['-', 'n'] :: rest => (rest, false)
    | _ => (args, true)
  let (bs, stop) := argumentBytes (joinWords args)
  if ends && !stop then bs ++ [10] else bs

/-- What `echo` writes as a program of its own: it knows escapes only after `-e`. -/
def plainEchoBytes : List (List Char) → List UInt8
  | ['-', 'n'] :: rest => bytesOf (joinWords rest)
  | ['-', 'e'] :: rest => echoBytes rest
  | ['-', 'E'] :: rest => bytesOf (joinWords rest) ++ [10]
  | args => bytesOf (joinWords args) ++ [10]

def digitsIn (base n : Nat) : List Char := Nat.toDigits base n

structure Layout where
  flags : List Char
  width : Nat
  precision : Option Nat

def Layout.has (l : Layout) (flag : Char) : Bool := l.flags.contains flag

def Layout.pad (l : Layout) (bs : List UInt8) : List UInt8 :=
  let gap := List.replicate (l.width - bs.length) 32
  if l.has '-' then bs ++ gap else gap ++ bs

/-- A number: its sign or mark, zeros up to the number of digits that is asked for, and its digits. -/
def Layout.number (l : Layout) (mark digits : List Char) : List UInt8 :=
  let least :=
    match l.precision with
    | some n => n
    | none => if l.has '0' && !l.has '-' then l.width - mark.length else 0
  bytesOf (mark ++ List.replicate (least - digits.length) '0' ++ digits)

/-- The sign of a number. One that is not negative gets a plus or a blank if a flag asks for it. -/
def Layout.sign (l : Layout) (n : Int) : List Char :=
  if n < 0 then ['-'] else if l.has '+' then ['+'] else if l.has ' ' then [' '] else []

/-- One conversion: its letter applied to an argument, and whether that ends all output. -/
def Layout.convert (l : Layout) (letter : Char) (arg : List Char) : List UInt8 × Bool :=
  let number : Int := match arg with
    | '\'' :: c :: _ | '"' :: c :: _ => c.toNat
    | _ => (numberOf? arg).getD 0
  let unsigned : Nat := (number % UInt64.size).toNat
  let mark (m : String) : List Char := if l.has '#' && unsigned ≠ 0 then m.toList else []
  match letter with
  | 's' => (match l.precision with
    | some n => (bytesOf arg).take n
    | none => bytesOf arg, false)
  | 'b' => argumentBytes arg
  | 'c' => (bytesOf (arg.take 1), false)
  | 'd' | 'i' => (l.number (l.sign number) (digitsIn 10 number.natAbs), false)
  | 'u' => (l.number [] (digitsIn 10 unsigned), false)
  | 'o' => (l.number (mark "0") (digitsIn 8 unsigned), false)
  | 'x' => (l.number (mark "0x") (digitsIn 16 unsigned), false)
  | 'X' => (l.number (mark "0X") ((digitsIn 16 unsigned).map Char.toUpper), false)
  | _ => ([], false)

/-- The state of a run over a format: what is written, the arguments left, and whether one was asked
for and whether output is over. -/
structure Formatting where
  bytes : List UInt8 := []
  args : List (List Char)
  asked : Bool := false
  halted : Bool := false

/-- Runs over a format once. The fuel bounds the number of its characters. -/
def formatOnce : (fuel : Nat) → Formatting → List Char → Formatting
  | 0, f, _ => f
  | _, f, [] => f
  | fuel + 1, f, '%' :: '%' :: cs => formatOnce fuel { f with bytes := f.bytes ++ [37] } cs
  | fuel + 1, f, '%' :: cs =>
    let flags := cs.takeWhile fun c => "-+ #0".toList.contains c
    let cs := cs.drop flags.length
    let width := cs.takeWhile Char.isDigit
    let cs := cs.drop width.length
    let (precision, cs) := match cs with
      | '.' :: rest =>
        let digits := rest.takeWhile Char.isDigit
        (some digits, rest.drop digits.length)
      | _ => (none, cs)
    let value (ds : List Char) : Nat := ds.foldl (fun n c => 10 * n + digitOf c) 0
    match cs with
    | [] => f
    | letter :: cs =>
      let layout : Layout := ⟨flags, value width, precision.map value⟩
      let (bs, stop) := layout.convert letter (f.args.headD [])
      let bs := layout.pad bs
      let f := { f with bytes := f.bytes ++ bs, args := f.args.tail, asked := true, halted := stop }
      if stop then f else formatOnce fuel f cs
  | fuel + 1, f, '\\' :: c :: cs =>
    if c = 'c' then { f with halted := true }
    else if '0' ≤ c ∧ c ≤ '7' then
      let (b, rest) := octal 3 (c :: cs)
      formatOnce fuel { f with bytes := f.bytes ++ [b] } rest
    else
      match escapeByte? c with
      | some b => formatOnce fuel { f with bytes := f.bytes ++ [b] } cs
      | none => formatOnce fuel { f with bytes := f.bytes ++ 92 :: bytesOf [c] } cs
  | fuel + 1, f, c :: cs => formatOnce fuel { f with bytes := f.bytes ++ bytesOf [c] } cs

/-- Runs over a format again as long as arguments are left and it asks for them. -/
def formatAll (format : List Char) : (fuel : Nat) → Formatting → List UInt8
  | 0, f => f.bytes
  | fuel + 1, f =>
    let f := formatOnce format.length { f with asked := false } format
    if f.halted || !f.asked || f.args.isEmpty then f.bytes else formatAll format fuel f

def printfBytes (format : List Char) (args : List (List Char)) : List UInt8 :=
  formatAll format (args.length + 1) { args }

end ClusterWatch.Shell
