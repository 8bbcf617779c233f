import ClusterWatch.Decimal.Writing
import ClusterWatch.Event.Basic
import ClusterWatch.Json.Event
import ClusterWatch.Stats
import ClusterWatch.Tracker

/-! # What is printed

Events and the summary of a run, as lines of colored spans and as the texts that these are shown as.
-/
namespace ClusterWatch
open Decimal Time

/-! ## Colored text

A line is shown as a list of spans, each of one style. The same spans are shown with colors, as escape
sequences around the styled ones, or without; the text itself does not depend on it.
-/

inductive Color
  | blue
  | green
  | yellow
  | red
deriving DecidableEq, Repr

def Color.code : Color → Nat
  | .red => 31
  | .green => 32
  | .yellow => 33
  | .blue => 34

structure Style where
  bold : Bool := false
  color? : Option Color := none
deriving DecidableEq, Repr

def Style.codes (s : Style) : List Nat :=
  (if s.bold then [1] else []) ++ (s.color?.map Color.code).toList

def escapeChar : Char := '\x1b'

def escapeSequence (codes : List Nat) : List Char :=
  escapeChar :: '[' :: ((codes.map (Nat.toDigits 10)).intersperse [';']).flatten ++ ['m']

structure Span where
  text : List Char
  style : Style := {}
deriving DecidableEq, Repr

namespace Span

def ofString (s : String) : Span := { text := s.toList }

/-- The span as it is shown. A styled text is followed by the sequence that ends all styles. -/
def display (colors : Bool) (s : Span) : List Char :=
  if colors && !s.style.codes.isEmpty then
    escapeSequence s.style.codes ++ s.text ++ escapeSequence [0]
  else s.text

def displayAll (colors : Bool) (spans : List Span) : List Char := spans.flatMap (·.display colors)

end Span

def padLeft (width : Nat) (cs : List Char) : List Char :=
  List.replicate (width - cs.length) ' ' ++ cs

def padRight (width : Nat) (cs : List Char) : List Char :=
  cs ++ List.replicate (width - cs.length) ' '

/-! ## Events on the screen

An event is shown as a tag in the color of its node and what the node says.
-/

def NodeId.color (node : NodeId) : Color :=
  match node.toNat % 4 with
  | 0 => .blue
  | 1 => .green
  | 2 => .yellow
  | _ => .red

def numberText (n : Nat) : List Char := Nat.toDigits 10 n

def nodeName (node : NodeId) : List Char := "Node ".toList ++ numberText node.toNat

def Payload.spans : Payload → List Span
  | .generation number liveCells =>
    [⟨"generation ".toList ++ padLeft 5 (numberText number.toNat) ++ "  ".toList ++
      numberText liveCells.toNat ++ " live cells".toList, {}⟩]
  | .pageFaults total read write =>
    [.ofString s!"page faults {total.toNat} (read {read.toNat}, write {write.toNat})"]
  | .network kbSent kbReceived =>
    [.ofString s!"network {fixedTwo kbSent} KB sent, {fixedTwo kbReceived} KB received"]
  | .barrier name _ => [.ofString s!"passed {name}"]
  | .init startRow endRow => [.ofString s!"owns rows [{startRow.toNat}, {endRow.toNat})"]
  | .complete finalLiveCells =>
    ⟨"done".toList, { bold := true }⟩ ::
      (finalLiveCells.map fun n => Span.ofString s!" {n.toNat} final live cells").toList
  | .error message =>
    [⟨"error".toList, { bold := true, color? := some .red }⟩, .ofString s!" {message}"]

def Report.spans (r : Report) : List Span :=
  ⟨'[' :: nodeName r.node ++ [']'], { color? := some (NodeId.color r.node) }⟩ :: .ofString " " ::
    r.payload.spans

/-! ## The summary of a run

One line for each node that has reported something, and the totals. A total that cannot be formed ends
the summary there.
-/

def rowsText : Option Partition → String
  | some p => s!"[{p.startRow.toNat}, {p.endRow.toNat})"
  | none => "?"

/-- How a node stands at the end. An error counts more than a completion. -/
def NodeStats.status (s : NodeStats) : String :=
  if s.lastError.isSome then "error" else if s.completed then "complete" else "stopped"

def amountText (x : Binary64) : List Char := padLeft 8 (fixedTwo x).toList

def nodeLine (t : Tracker) (node : NodeId) (s : NodeStats) : List Span :=
  [.ofString "  ", ⟨nodeName node, { color? := some (NodeId.color node) }⟩,
    ⟨" rows ".toList ++ padRight 12 (rowsText (t.partition? node)).toList ++
      " gen ".toList ++ padRight 6 (numberText s.generation.toNat) ++
      " faults ".toList ++ padRight 6 (numberText s.pageFaults.toNat) ++
      " sent ".toList ++ amountText s.kbSent ++ " KB  recv ".toList ++ amountText s.kbReceived ++
      " KB  ".toList ++ s.status.toList, {}⟩]

def plainLine (s : String) : List Span := [.ofString s]

def summaryHead (t : Tracker) (s : ClusterStats) : List (List Span) :=
  [plainLine "", plainLine "Summary", [⟨List.replicate 40 '═', {}⟩]] ++
    s.nodes.toList.map (fun (node, n) => nodeLine t node n) ++
    [plainLine "", plainLine s!"  Generation reached by all nodes: {t.minimumGeneration.toNat}"]

/-- The lines of the summary of a run with so many nodes, as far as its totals can be formed, and why
they end if they end early. -/
def summary (nodes : UInt32) (t : Tracker) (s : ClusterStats) :
    List (List Span) × Option TotalError :=
  let head := summaryHead t s
  match s.totalPageFaults with
  | .error e => (head, some e)
  | .ok faults =>
    let head := head ++ [plainLine s!"  Total page faults:               {faults.toNat}"]
    match s.totalLiveCells with
    | .error e => (head, some e)
    | .ok cells =>
      (head ++ [plainLine s!"  Total live cells:                {cells.toNat}",
        plainLine s!"  Completed nodes:                 {s.completedNodes}/{nodes.toNat}",
        plainLine ""], none)

/-! ## Views

A view says how events are printed, as texts for the eye or as JSON. Each event is printed as one text
with a line ending after it.
-/

structure View where
  json : Bool := false
  colors : Bool := false
  time : Instant → List Char := Instant.toChars

namespace View

def event (v : View) (e : Event) : List Char :=
  if v.json then e.toJsonWithTime (v.time e.observedAt)
  else Span.displayAll v.colors e.toReport.spans

def summary (v : View) (nodes : UInt32) (t : Tracker) (s : ClusterStats) :
    List (List Char) × Option TotalError :=
  let (lines, e) := ClusterWatch.summary nodes t s
  (lines.map (Span.displayAll v.colors), e)

end View

/-- The pieces of a text between its line feeds. -/
def splitLines (cs : List Char) : List (List Char) := cs.splitOn '\n'

def linesOfTexts (texts : List (List Char)) : List (List Char) := texts.flatMap splitLines

end ClusterWatch
