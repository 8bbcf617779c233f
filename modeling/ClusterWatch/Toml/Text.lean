import ClusterWatch.Json.Reader

/-! # Strings of TOML

The four forms of string: between quotes, with escapes, or between apostrophes, without; and each of
them between three marks, where it may have several lines. A line ending in a string is a line feed.
-/
namespace ClusterWatch.Toml

def isBlank (c : Char) : Bool := c == ' ' || c == '\t'

def isLineChar (c : Char) : Bool := c == '\t' || (0x20 ≤ c.toNat && c.toNat != 0x7f)

def afterNewline? : List Char → Option (List Char)
  | '\n' :: cs => some cs
  | '\r' :: '\n' :: cs => some cs
  | _ => none

def skipLines : List Char → List Char
  | ' ' :: cs | '\t' :: cs | '\n' :: cs => skipLines cs
  | '\r' :: '\n' :: cs => skipLines cs
  | cs => cs

def skipNewline (cs : List Char) : List Char := (afterNewline? cs).getD cs

theorem length_skipLines_le (cs : List Char) : (skipLines cs).length ≤ cs.length := by
  fun_induction skipLines cs <;> grind

theorem length_afterNewline?_lt {cs rest : List Char} (h : afterNewline? cs = some rest) :
    rest.length < cs.length := by
  unfold afterNewline? at h
  split at h <;> grind

/-- The character whose number has exactly so many hexadecimal digits here. -/
def numbered? (digits : Nat) (cs : List Char) : Option Char := do
  if digits ≤ cs.length then
    let values ← (cs.take digits).mapM JsonValue.hexDigit?
    let n := values.foldl (fun n d => 16 * n + d) 0
    if n.isValidChar then some (Char.ofNat n) else none
  else none

/-- The character that a text after a backslash stands for, and the length of that text. -/
def escape? : List Char → Option (Char × Nat)
  | '"' :: _ => some ('"', 1)
  | '\\' :: _ => some ('\\', 1)
  | 'b' :: _ => some ('\x08', 1)
  | 'f' :: _ => some ('\x0c', 1)
  | 'n' :: _ => some ('\n', 1)
  | 'r' :: _ => some ('\r', 1)
  | 't' :: _ => some ('\t', 1)
  | 'u' :: cs => (numbered? 4 cs).map (·, 5)
  | 'U' :: cs => (numbered? 8 cs).map (·, 9)
  | _ => none

abbrev TextRest := List Char × List Char

def prepend (c : Char) (s : TextRest) : TextRest := (c :: s.1, s.2)

def readQuoted : List Char → Option TextRest
  | [] => none
  | '"' :: cs => some ([], cs)
  | '\\' :: cs =>
    match escape? cs with
    | some (c, n) => (readQuoted (cs.drop n)).map (prepend c)
    | none => none
  | c :: cs => if isLineChar c then (readQuoted cs).map (prepend c) else none
termination_by cs => cs.length
decreasing_by all_goals simp only [List.length_cons, List.length_drop]; omega

def readLiteral : List Char → Option TextRest
  | [] => none
  | '\'' :: cs => some ([], cs)
  | c :: cs => if isLineChar c then (readLiteral cs).map (prepend c) else none

/-- Reads a string of several lines after its opening quotes. Up to two quotes may stand before the
closing ones. A backslash at the end of a line takes away the line ending and all white space after
it. -/
def readLongQuoted : List Char → Option TextRest
  | [] => none
  | '"' :: '"' :: '"' :: '"' :: '"' :: cs => some (['"', '"'], cs)
  | '"' :: '"' :: '"' :: '"' :: cs => some (['"'], cs)
  | '"' :: '"' :: '"' :: cs => some ([], cs)
  | '\\' :: cs =>
    match _h : afterNewline? (cs.dropWhile isBlank) with
    | some rest => readLongQuoted (skipLines rest)
    | none =>
      match escape? cs with
      | some (c, n) => (readLongQuoted (cs.drop n)).map (prepend c)
      | none => none
  | '\r' :: '\n' :: cs => (readLongQuoted cs).map (prepend '\n')
  | c :: cs => if c = '\n' ∨ isLineChar c then (readLongQuoted cs).map (prepend c) else none
termination_by cs => cs.length
decreasing_by
  · have := length_afterNewline?_lt _h
    have := length_skipLines_le rest
    have := (List.dropWhile_sublist isBlank (l := cs)).length_le
    simp only [List.length_cons]
    omega
  · simp only [List.length_cons, List.length_drop]; omega
  · simp only [List.length_cons]; omega
  · simp only [List.length_cons]; omega

def readLongLiteral : List Char → Option TextRest
  | [] => none
  | '\'' :: '\'' :: '\'' :: '\'' :: '\'' :: cs => some (['\'', '\''], cs)
  | '\'' :: '\'' :: '\'' :: '\'' :: cs => some (['\''], cs)
  | '\'' :: '\'' :: '\'' :: cs => some ([], cs)
  | '\r' :: '\n' :: cs => (readLongLiteral cs).map (prepend '\n')
  | c :: cs => if c = '\n' ∨ isLineChar c then (readLongLiteral cs).map (prepend c) else none

def readText? : List Char → Option TextRest
  | '"' :: '"' :: '"' :: cs => readLongQuoted (skipNewline cs)
  | '"' :: cs => readQuoted cs
  | '\'' :: '\'' :: '\'' :: cs => readLongLiteral (skipNewline cs)
  | '\'' :: cs => readLiteral cs
  | _ => none

end ClusterWatch.Toml
