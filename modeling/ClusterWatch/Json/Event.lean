import ClusterWatch.Decimal.Writing
import ClusterWatch.Event.Basic
import ClusterWatch.Json.Reader
import ClusterWatch.Time.Basic

/-! # Events in JSON

Events are written as JSON texts, and read back from them.
-/
namespace ClusterWatch
open Decimal Time

/-! ## Events as JSON texts

An event is written as one object without white space: its node, its time and its payload, whose first
field names its type. Quotes, backslashes and control characters are escaped, so a written event is
one line.
-/

def lowerHexDigit (n : Nat) : Char := Nat.digitChar n

def jsonChar (c : Char) : List Char :=
  if c = '"' then ['\\', '"']
  else if c = '\\' then ['\\', '\\']
  else if c = '\n' then ['\\', 'n']
  else if c = '\r' then ['\\', 'r']
  else if c = '\t' then ['\\', 't']
  else if c = '\x08' then ['\\', 'b']
  else if c = '\x0c' then ['\\', 'f']
  else if c.toNat < 0x20 then
    ['\\', 'u', '0', '0', lowerHexDigit (c.toNat / 16), lowerHexDigit (c.toNat % 16)]
  else [c]

def jsonString (cs : List Char) : List Char := '"' :: cs.flatMap jsonChar ++ ['"']

def jsonNatural (n : Nat) : List Char := Nat.toDigits 10 n

/-- A written double; one without a text is null. -/
def jsonReal (x : Binary64) : List Char := (jsonNumber? x).getD "null".toList

def jsonObject (fields : List (String × List Char)) : List Char :=
  '{' :: ((fields.map fun (name, value) => jsonString name.toList ++ ':' :: value).intersperse
    [',']).flatten ++ ['}']

def Payload.jsonFields : Payload → List (String × List Char)
  | .generation number liveCells =>
    [("generation", jsonNatural number.toNat), ("live_cells", jsonNatural liveCells.toNat)]
  | .pageFaults total read write =>
    [("total", jsonNatural total.toNat), ("read", jsonNatural read.toNat),
      ("write", jsonNatural write.toNat)]
  | .network kbSent kbReceived => [("kb_sent", jsonReal kbSent), ("kb_received", jsonReal kbReceived)]
  | .barrier name action =>
    [("name", jsonString name.toList), ("action", jsonString action.name.toList)]
  | .init startRow endRow =>
    [("start_row", jsonNatural startRow.toNat), ("end_row", jsonNatural endRow.toNat)]
  | .complete finalLiveCells =>
    [("final_live_cells", (finalLiveCells.map fun n => jsonNatural n.toNat).getD "null".toList)]
  | .error message => [("message", jsonString message.toList)]

def Payload.toJson (p : Payload) : List Char :=
  jsonObject (("type", jsonString p.kind.name.toList) :: p.jsonFields)

def Event.toJsonWithTime (e : Event) (time : List Char) : List Char :=
  jsonObject [("node", jsonNatural e.node.toNat), ("observed_at", jsonString time),
    ("payload", e.payload.toJson)]

def Event.toJson (e : Event) : List Char := e.toJsonWithTime e.observedAt.toChars

/-! ## Events from JSON texts

The readers of events and payloads. Both take an object, with its fields in any order, or an array of
the values of the fields in their order. A field may not occur twice, and fields with other names are
passed over. A payload is looked at as a whole, so that all in it has to be proper; of an event this
holds only for the fields that it has.
-/

namespace JsonValue

def text? : JsonValue → Option (List Char)
  | .string s => s
  | _ => none

def word64? : JsonValue → Option UInt64
  | .number n =>
    match JsonNumber.ofText? n with
    | some (.natural n) => some n
    | _ => none
  | _ => none

def word32? (v : JsonValue) : Option UInt32 :=
  (v.word64?.filter (·.toNat < UInt32.size)).map fun n => UInt32.ofNat n.toNat

def real? : JsonValue → Option Binary64
  | .number n =>
    match JsonNumber.ofText? n with
    | some (.natural n) => some (.ofNat n.toNat)
    | some (.negative n) => some (Binary64.ofNat n.natAbs).neg
    | some (.real x) => some x
    | none => none
  | _ => none

def valuesOf (name : String) (fields : List (Option (List Char) × JsonValue)) : List JsonValue :=
  (fields.filter fun f => f.1 = some name.toList).map (·.2)

/-- The value of the only field with a name, `null` if there is none. -/
def only? (fields : List (Option (List Char) × JsonValue)) (name : String) : Option JsonValue :=
  match valuesOf name fields with
  | [] => some .null
  | [v] => some v
  | _ => none

/-- The name of a choice without data: a string, or an object with one field of this name. -/
def choice? (isNothing : JsonValue → Bool) : JsonValue → Option (List Char)
  | .string s => s
  | .object [(name, v)] => if isNothing v then name else none
  | _ => none

def isNull : JsonValue → Bool
  | .null => true
  | _ => false

def isNullOrEmpty : JsonValue → Bool
  | .null | .object [] => true
  | _ => false

def depthLimit : Nat := 127

end JsonValue

open JsonValue

def EventKind.ofJson? (v : JsonValue) : Option EventKind :=
  (choice? isNull v).bind fun name => EventKind.ofName? (String.ofList name)

def BarrierAction.ofJson? (isNothing : JsonValue → Bool) (v : JsonValue) : Option BarrierAction :=
  (choice? isNothing v).bind fun name => BarrierAction.ofName? (String.ofList name)

def EventKind.fieldNames : EventKind → List String
  | .generation => ["generation", "live_cells"]
  | .pageFaults => ["total", "read", "write"]
  | .network => ["kb_sent", "kb_received"]
  | .barrier => ["name", "action"]
  | .init => ["start_row", "end_row"]
  | .complete => ["final_live_cells"]
  | .error => ["message"]

def Payload.ofValues? (kind : EventKind) (values : List JsonValue) : Option Payload :=
  match kind, values with
  | .generation, [a, b] => do some (.generation (← a.word64?) (← b.word64?))
  | .pageFaults, [a, b, c] => do some (.pageFaults (← a.word64?) (← b.word64?) (← c.word64?))
  | .network, [a, b] => do some (.network (← a.real?) (← b.real?))
  | .barrier, [a, b] => do
    some (.barrier (String.ofList (← a.text?)) (← BarrierAction.ofJson? isNullOrEmpty b))
  | .init, [a, b] => do some (.init (← a.word32?) (← b.word32?))
  | .complete, [.null] => some (.complete none)
  | .complete, [a] => do some (.complete (some (← a.word64?)))
  | .error, [a] => do some (.error (String.ofList (← a.text?)))
  | _, _ => none

def EventKind.ofType? (v : JsonValue) : Option EventKind :=
  v.text?.bind fun name => EventKind.ofName? (String.ofList name)

def Payload.ofJson? (v : JsonValue) : Option Payload :=
  if !v.isProper then none
  else
    match v with
    | .object fields => do
      let kind ← EventKind.ofType? (← only? fields "type")
      let values ← kind.fieldNames.mapM (only? fields)
      Payload.ofValues? kind values
    | .array (type :: values) => do Payload.ofValues? (← EventKind.ofType? type) values
    | _ => none

def Event.ofValues? (node observedAt payload : JsonValue) : Option Event := do
  if payload.depth < depthLimit then
    let node ← node.word32?
    let time ← Instant.ofChars? (← observedAt.text?)
    return { node, payload := ← Payload.ofJson? payload, observedAt := time }
  else none

def Event.ofJson? : JsonValue → Option Event
  | .object fields => do
    if fields.all (·.1.isSome) then
      Event.ofValues? (← only? fields "node") (← only? fields "observed_at")
        (← only? fields "payload")
    else none
  | .array [node, observedAt, payload] => Event.ofValues? node observedAt payload
  | _ => none

def Payload.ofText? (cs : List Char) : Option Payload :=
  ((JsonValue.ofChars? cs).filter (·.depth ≤ depthLimit)).bind Payload.ofJson?

def Event.ofText? (cs : List Char) : Option Event := (JsonValue.ofChars? cs).bind Event.ofJson?

end ClusterWatch
