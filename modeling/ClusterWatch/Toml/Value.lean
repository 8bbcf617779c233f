import ClusterWatch.Decimal.Binary64

/-! # TOML documents

A document is a table that is put together statement by statement. Each table remembers how it came
about, since that decides what may still be added to it: `insertKey?` adds a value under a dotted key,
`openTable?` and `openItem?` make the table of a header.
-/
namespace ClusterWatch
open Decimal

inductive TableOrigin
  | header
  /-- On the way to the table of a header. -/
  | passage
  | dotted
  | inline
deriving DecidableEq, Repr

abbrev TomlKey := List Char

inductive TomlValue
  | text (cs : List Char)
  | integer (n : Int)
  | real (x : Binary64)
  | boolean (b : Bool)
  /-- A date, a time of the day, or both, as it is written. -/
  | moment (cs : List Char)
  | array (items : List TomlValue)
  | table (origin : TableOrigin) (entries : List (TomlKey × TomlValue))
  /-- The tables of headers in double brackets; the last one comes first. -/
  | tables (items : List (List (TomlKey × TomlValue)))
deriving Repr

/-- What a table holds, in the order in which its keys first occur. -/
abbrev TomlEntries := List (TomlKey × TomlValue)

namespace TomlEntries

def get? (entries : TomlEntries) (key : TomlKey) : Option TomlValue :=
  (List.find? (·.1 = key) entries).map (·.2)

def replace (entries : TomlEntries) (key : TomlKey) (value : TomlValue) : TomlEntries :=
  entries.map fun e => if e.1 = key then (key, value) else e

def append (entries : TomlEntries) (key : TomlKey) (value : TomlValue) : TomlEntries :=
  entries ++ [(key, value)]

/-- Changes the table at the end of a path. Tables on the way are made where they are missing, and
`mayEnter` tells which of those that are there may be passed; of several tables under one name the
last is meant. -/
def changeAt? (made : TableOrigin) (mayEnter : TableOrigin → Bool)
    (change : TableOrigin → TomlEntries → Option TomlEntries) :
    List TomlKey → TableOrigin → TomlEntries → Option TomlEntries
  | [], origin, entries => change origin entries
  | key :: path, _, entries =>
    match entries.get? key with
    | none =>
      (changeAt? made mayEnter change path made []).map fun es => entries.append key (.table made es)
    | some (.table origin es) =>
      if mayEnter origin then
        (changeAt? made mayEnter change path origin es).map fun es =>
          entries.replace key (.table origin es)
      else none
    | some (.tables (es :: earlier)) =>
      (changeAt? made mayEnter change path .header es).map fun es =>
        entries.replace key (.tables (es :: earlier))
    | some _ => none

/-- A table that dotted keys may pass: none that is written out as such. -/
def isOpenToKeys (origin : TableOrigin) : Bool := origin = .passage || origin = .dotted

/-- Adds a value under a dotted key, given as the keys before the last and the last. The table that
gets it has to be the one in which the statement stands or one made by dotted keys, and must not have
the key. -/
def insertKey? (path : List TomlKey) (key : TomlKey) (value : TomlValue) (entries : TomlEntries) :
    Option TomlEntries :=
  changeAt? .dotted isOpenToKeys (fun origin entries =>
    if (path.isEmpty || origin = .dotted) && (entries.get? key).isNone then
      some (entries.append key value)
    else none) path .header entries

/-- A table that headers may pass: any but one between braces. -/
def isOpenToHeaders (origin : TableOrigin) : Bool := origin ≠ .inline

/-- Makes the table of a header. There may be one already only if headers of tables in it made it. -/
def openTable? (path : List TomlKey) (key : TomlKey) (entries : TomlEntries) : Option TomlEntries :=
  changeAt? .passage isOpenToHeaders (fun _ entries =>
    match entries.get? key with
    | none => some (entries.append key (.table .header []))
    | some (.table .passage es) => some (entries.replace key (.table .header es))
    | some _ => none) path .header entries

def openItem? (path : List TomlKey) (key : TomlKey) (entries : TomlEntries) : Option TomlEntries :=
  changeAt? .passage isOpenToHeaders (fun _ entries =>
    match entries.get? key with
    | none => some (entries.append key (.tables [[]]))
    | some (.tables items) => some (entries.replace key (.tables ([] :: items)))
    | some _ => none) path .header entries

end TomlEntries

/-- A statement of a document; the last part of its key stands apart. -/
inductive TomlStatement
  | assign (path : List TomlKey) (key : TomlKey) (value : TomlValue)
  | table (path : List TomlKey) (key : TomlKey)
  | item (path : List TomlKey) (key : TomlKey)
deriving Repr

/-- A document as far as its statements are carried out: its entries and the table of the last
header. -/
structure TomlDocument where
  entries : TomlEntries := []
  current : List TomlKey := []
deriving Repr

namespace TomlDocument

def carryOut? (d : TomlDocument) : TomlStatement → Option TomlDocument
  | .assign path key value =>
    (TomlEntries.changeAt? .passage TomlEntries.isOpenToHeaders
      (fun _ entries => entries.insertKey? path key value) d.current .header d.entries).map
        fun entries => { d with entries }
  | .table path key => (d.entries.openTable? path key).map fun entries => ⟨entries, path ++ [key]⟩
  | .item path key => (d.entries.openItem? path key).map fun entries => ⟨entries, path ++ [key]⟩

def ofStatements? (statements : List TomlStatement) : Option TomlDocument :=
  statements.foldlM carryOut? {}

end TomlDocument

end ClusterWatch
