import ClusterWatch.Decimal.Reading
import ClusterWatch.Event.Basic
import ClusterWatch.Text.Characters

/-! # What a line says

The patterns of the lines that nodes print, and the table of the rules that read them.
-/
namespace ClusterWatch.Line
open Decimal Text

/-! ## Line patterns

A pattern is a list of pieces, each a fixed text or a run of characters of one class. A run takes all
the characters of its class that follow, and at least one. `Pattern.readAt` reads a text from its
start and gives the runs; `Pattern.leftmost` reads it from the first place where that succeeds.
-/

inductive CharClass
  | digit
  /-- Digits and points, the characters of an amount. -/
  | figure
  | word
deriving DecidableEq, Repr

def CharClass.contains : CharClass → Char → Bool
  | .digit, c => isDecimalDigit c
  | .figure, c => c == '.' || isDecimalDigit c
  | .word, c => isWordChar c

inductive Piece
  | fixed (text : List Char)
  | run (c : CharClass)
deriving DecidableEq, Repr

abbrev Pattern := List Piece

/-- The text after `expected`, if the text starts with it. -/
def after? : (expected text : List Char) → Option (List Char)
  | [], text => some text
  | _ :: _, [] => none
  | e :: expected, c :: text => if e = c then after? expected text else none

/-- The runs of a text that starts as the pattern says. -/
def Pattern.readAt : Pattern → List Char → Option (List (List Char))
  | [], _ => some []
  | .fixed expected :: pieces, text => (after? expected text).bind (readAt pieces)
  | .run c :: pieces, text =>
    if (text.takeWhile c.contains).isEmpty then none
    else (readAt pieces (text.dropWhile c.contains)).map (text.takeWhile c.contains :: ·)

/-- The runs of the first occurrence of the pattern in a text. -/
def Pattern.leftmost (pattern : Pattern) : List Char → Option (List (List Char))
  | [] => pattern.readAt []
  | c :: text => (pattern.readAt (c :: text)).or (leftmost pattern text)

theorem after?_eq_some {expected text rest : List Char} :
    after? expected text = some rest ↔ text = expected ++ rest := by
  induction expected generalizing text with
  | nil => simp [after?]
  | cons e expected ih =>
    cases text with
    | nil => simp [after?]
    | cons c text =>
      by_cases h : e = c
      · simp [after?, h, ih]
      · simp [after?, h, Ne.symm h]

/-! ## Lines of node output

The nodes print what they do, one line a report. A fixed, ordered table of rules tells what a line
says: the first rule wins whose leftmost occurrence in the line has runs that all spell a value of
their type. A rule whose runs do not is passed over, as if it did not occur.
-/

/-- A rule of the table. The first run of every pattern is the number of the node; the others are for
`payload?`. -/
structure Rule where
  name : String
  pattern : Pattern
  payload? : List (List Char) → Option Payload

/-- A pattern that starts with the tag of a node, such as `[Node 3] `. -/
def tagged (pieces : Pattern) : Pattern :=
  .fixed "[Node ".toList :: .run .digit :: .fixed "] ".toList :: pieces

def text (s : String) : Piece := .fixed s.toList

/-- A line such as `[Node 0] Generation 10: 423 live cells`. -/
def generationRule : Rule where
  name := "generation"
  pattern := tagged [text "Generation ", .run .digit, text ": ", .run .digit, text " live cells"]
  payload?
    | [generation, cells] => do some (.generation (← word64? generation) (← word64? cells))
    | _ => none

/-- A line such as `[Node 0] Page faults: 124 (R: 100, W: 24)`. -/
def pageFaultsRule : Rule where
  name := "page_faults"
  pattern := tagged [text "Page faults: ", .run .digit, text " (R: ", .run .digit, text ", W: ",
    .run .digit, text ")"]
  payload?
    | [total, read, write] => do
      some (.pageFaults (← word64? total) (← word64? read) (← word64? write))
    | _ => none

/-- A line such as `[Node 0] Network: 45.20 KB sent, 38.10 KB received`. -/
def networkRule : Rule where
  name := "network"
  pattern := tagged [text "Network: ", .run .figure, text " KB sent, ", .run .figure,
    text " KB received"]
  payload?
    | [sent, received] => do some (.network (← figure? sent) (← figure? received))
    | _ => none

/-- What the name of every barrier starts with. -/
def barrierStart : String := "BARRIER_"

/-- A line such as `[Node 0] Passed BARRIER_COMPUTE_0`. -/
def barrierRule : Rule where
  name := "barrier_pass"
  pattern := tagged [text "Passed ", text barrierStart, .run .word]
  payload?
    | [name] => some (.barrier (barrierStart ++ String.ofList name) .passed)
    | _ => none

/-- A line such as `[Node 0] Partition: rows [0, 50)`. -/
def partitionRule : Rule where
  name := "partition"
  pattern := tagged [text "Partition: rows [", .run .digit, text ", ", .run .digit, text ")"]
  payload?
    | [start, stop] => do some (.init (← word32? start) (← word32? stop))
    | _ => none

/-- The line `[Node 0] === Computation Complete ===`. -/
def completeRule : Rule where
  name := "complete"
  pattern := tagged [text "=== Computation Complete ==="]
  payload?
    | [] => some (.complete none)
    | _ => none

/-- A line such as `[Node 0] Final live cells: 1234`. -/
def finalCellsRule : Rule where
  name := "final_cells"
  pattern := tagged [text "Final live cells: ", .run .digit]
  payload?
    | [cells] => do some (.complete (some (← word64? cells)))
    | _ => none

/-- The table, in the order in which the rules are tried. -/
def rules : List Rule :=
  [generationRule, pageFaultsRule, networkRule, barrierRule, partitionRule, completeRule,
    finalCellsRule]

def Rule.report? (rule : Rule) : List (List Char) → Option Report
  | [] => none
  | node :: runs => do some ⟨← word32? node, ← rule.payload? runs⟩

def Rule.apply (rule : Rule) (text : List Char) : Option Report :=
  (rule.pattern.leftmost text).bind rule.report?

/-- What a line says: the answer of the first rule that has one. White space around the line does not
count. -/
def classify (line : List Char) : Option Report :=
  rules.findSome? (·.apply (trim line))

end ClusterWatch.Line
