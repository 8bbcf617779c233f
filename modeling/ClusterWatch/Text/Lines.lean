import ClusterWatch.Text.Utf8

/-! # Lines of a pipe

A pipe delivers bytes in reads of any size. Lines end at a line feed, and one carriage return right
before it belongs to the ending; what is left when the pipe closes is a line too, with its carriage
return. Every line is decoded for itself. A failed read is the last thing that a pipe delivers, and
the unfinished line before it is lost.
-/
namespace ClusterWatch.Text

/-- One read of a pipe: bytes, none of them at the end of the pipe, or a failure and its text. -/
inductive Read
  | bytes (chunk : List UInt8)
  | failure (text : String)
deriving DecidableEq, Repr

/-- What a pipe delivers: a line, or the failure of a read. -/
inductive PipeItem
  | line (text : List Char)
  | failure (text : String)
deriving DecidableEq, Repr

def lineFeed : UInt8 := 10

def carriageReturn : UInt8 := 13

/-- The bytes of a line, in reverse order, without a carriage return at the end. -/
def dropReturn : List UInt8 → List UInt8
  | b :: bytes => if b = carriageReturn then bytes else b :: bytes
  | [] => []

/-- The line whose bytes before the line feed are given in reverse order. -/
def endedLine (reversed : List UInt8) : PipeItem := .line (decodeLossy (dropReturn reversed).reverse)

def unendedLine (reversed : List UInt8) : List PipeItem :=
  if reversed.isEmpty then [] else [.line (decodeLossy reversed.reverse)]

/-- Takes in bytes after those of an unfinished line. Gives the lines that are finished now, and the
bytes of the new unfinished line; those are in reverse order. -/
def feed (reversed : List UInt8) : List UInt8 → List PipeItem × List UInt8
  | [] => ([], reversed)
  | b :: bytes =>
    if b = lineFeed then
      let (items, rest) := feed [] bytes
      (endedLine reversed :: items, rest)
    else feed (b :: reversed) bytes

/-- What a pipe delivers after the bytes of an unfinished line. A read without bytes ends that line,
and ends the pipe if there is none. -/
def itemsFrom (reversed : List UInt8) : List Read → List PipeItem
  | [] => unendedLine reversed
  | .failure text :: _ => [.failure text]
  | .bytes [] :: reads =>
    if reversed.isEmpty then [] else unendedLine reversed ++ itemsFrom [] reads
  | .bytes chunk :: reads =>
    (feed reversed chunk).1 ++ itemsFrom (feed reversed chunk).2 reads

def pipeItems (reads : List Read) : List PipeItem := itemsFrom [] reads

/-- Two pipes read in turn, the first one first; when one is at its end, the other alone. -/
def alternate : List PipeItem → List PipeItem → List PipeItem
  | [], second => second
  | first :: rest, second => first :: alternate second rest
termination_by first second => first.length + second.length

end ClusterWatch.Text
