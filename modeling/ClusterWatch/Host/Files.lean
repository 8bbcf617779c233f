import ClusterWatch.Text.Utf8

/-! # Files

A tree of files and directories, kept as the list of its paths. A path is the list of its names from
the root. `Files.place?` goes along a text from the directory in which it is seen, and only through
directories that are there.
-/
namespace ClusterWatch.Host

/-- The names from the root to a place in the tree. -/
abbrev Path := List String

inductive Entry
  | file (content : List UInt8) (runnable : Bool)
  | directory
  | program (name : String)
  /-- Another name of a place, which has an entry of its own. -/
  | link (target : Path)
deriving DecidableEq, Repr

/-- The places where there is something, the root excepted. -/
structure Files where
  entries : List (Path × Entry) := []
deriving DecidableEq, Repr, Inhabited

namespace Files

def get? (f : Files) (place : Path) : Option Entry :=
  if place.isEmpty then some .directory else (f.entries.find? (·.1 = place)).map (·.2)

/-- The place itself, or the one that it is another name of. -/
def target (f : Files) (place : Path) : Path :=
  match f.get? place with
  | some (.link target) => target
  | _ => place

/-- Goes along names from a place: `.` and the empty name stay, `..` goes up. Only a directory can be
left along a name. -/
def walk? (f : Files) (place : Path) : List String → Option Path
  | [] => some place
  | name :: names =>
    if f.get? place ≠ some .directory then none
    else if name = "" ∨ name = "." then f.walk? place names
    else if name = ".." then f.walk? place.dropLast names
    else f.walk? (f.target (place ++ [name])) names

/-- The place that a text names when it is seen from a directory; something may be there or not. The
empty text names none. -/
def place? (f : Files) (directory : Path) (text : String) : Option Path :=
  if text = "" then none
  else f.walk? (if text.startsWith "/" then [] else directory) (text.splitOn "/")

def find? (f : Files) (directory : Path) (text : String) : Option Entry :=
  (f.place? directory text).bind f.get?

def put (f : Files) (place : Path) (e : Entry) : Files :=
  ⟨f.entries.filter (·.1 ≠ place) ++ [(place, e)]⟩

def remove (f : Files) (place : Path) : Files :=
  ⟨f.entries.filter fun e => !place.isPrefixOf e.1⟩

def hasParent (f : Files) (place : Path) : Bool :=
  f.get? place.dropLast = some .directory

def names (f : Files) (directory : Path) : List String :=
  (f.entries.filterMap fun e =>
    if e.1.dropLast = directory then e.1.getLast? else none).mergeSort fun a b => a ≤ b

def content? (f : Files) (place : Path) : Option (List UInt8) :=
  match f.get? place with
  | some (.file content _) => some content
  | _ => none

/-- Writes a file, which stays runnable if it is. Where there is no directory for it, or a directory
instead of it, nothing can be written. -/
def write? (f : Files) (place : Path) (content : List UInt8) : Option Files :=
  match f.get? place with
  | some (.file _ runnable) => some (f.put place (.file content runnable))
  | some _ => none
  | none => if f.hasParent place then some (f.put place (.file content false)) else none

def makeAll (f : Files) (place : Path) : List String → Option Files
  | [] => some f
  | name :: names =>
    if name = "" ∨ name = "." then f.makeAll place names
    else if name = ".." then f.makeAll place.dropLast names
    else
      let next := f.target (place ++ [name])
      match f.get? next with
      | some .directory => f.makeAll next names
      | some _ => none
      | none => (f.put next .directory).makeAll next names

end Files

end ClusterWatch.Host
