import ClusterWatch.Rehearsal.Session

/-! # Nodes on a host

Nodes that are launched on a host without a controller, and whose output is read line by line.
-/
namespace ClusterWatch
open Host Text

/-- The output of a node: what of it has been taken apart into items and not yet been read. -/
structure NodeReader where
  handle : NodeHandle
  output : NodeOutput := {}
  items : List PipeItem := []

structure Supervision where
  config : Config
  host : Host
  handles : List NodeHandle := []
  readers : List NodeReader := []

namespace Supervision

def serve (s : Supervision) : Supervision :=
  let (readers, host) := s.readers.foldl (fun (readers, host) (n : NodeReader) =>
    if n.output.ended then (readers ++ [n], host)
    else
      let closed := Host.isClosed host n.handle.pid
      let (output, errors, host) := Host.takeOutput host n.handle.pid
      let (items, rest) := n.output.receive output errors closed
      (readers ++ [{ n with output := rest, items := n.items ++ items }], host))
    (([] : List NodeReader), s.host)
  { s with readers, host }

def tick (s : Supervision) : Supervision :=
  { s with host := s.host.advance (s.host.now + millisecond) }.serve

def waitFor (condition : Supervision → Bool) : (most : Nat) → Supervision → Bool × Supervision
  | 0, s => (condition s, s)
  | most + 1, s => if condition s then (true, s) else waitFor condition most s.tick

/-- Ends nodes: time passes until they have ended, at most the grace period. -/
def endNodes : (grace : Nat) → List Ending → Host → List Ending × Host
  | 0, endings, host => Ending.forAll (Ending.resume Host.system true) host endings
  | grace + 1, endings, host =>
    if (Ending.results? endings).isSome then (endings, host)
    else
      let (endings, host) := Ending.forAll (Ending.resume Host.system false)
        (host.advance (host.now + millisecond)) endings
      endNodes grace endings host

/-- Goes through a launch; the fuel bounds the number of its pauses. -/
def goThrough (c : Config) (held : List NodeHandle) : (fuel : Nat) → Launch → Host → Launch × Host
  | 0, l, host => (l, host)
  | fuel + 1, l, host =>
    match l with
    | .settling _ =>
      let host := host.advance (host.now + l.pause c * millisecond)
      let (l, host) := Launch.resume Host.system c held true host l
      goThrough c held fuel l host
    | .failing error endings =>
      let (_, host) := endNodes c.timings.gracePeriod.toNat endings host
      (.failed error, host)
    | l => (l, host)

/-- Launches all nodes. What they write is read instead of the output of earlier nodes of their
numbers. -/
def launch (s : Supervision) : Except ClusterError (List NodeId) × Supervision :=
  let (l, host) := Launch.begin Host.system s.config s.handles s.host
  match goThrough s.config s.handles (s.config.nodes.toNat + 2) l host with
  | (.launched handles, host) =>
    let (old, kept) := s.readers.partition fun r => handles.any (·.node = r.handle.node)
    (.ok (handles.map (·.node)), { s with
      host := old.foldl (fun host r => host.breakPipes r.handle.pid) host
      handles := s.handles ++ handles
      readers := kept ++ handles.map fun h => { handle := h } })
  | (.failed error, host) =>
    let handles := match error with
      | .executableNotFound _ => s.handles
      | _ => []
    (.error error, { s with host, handles })
  | (_, host) => (.ok [], { s with host })

def liveCount (s : Supervision) : Nat := Host.system.liveCount s.host s.handles

def anyAlive (s : Supervision) : Bool := Host.system.anyAlive s.host s.handles

def terminateAll (s : Supervision) : List (NodeId × Termination) × Supervision :=
  let (endings, host) := Ending.forAll (Ending.begin Host.system) s.host s.handles
  let (endings, host) := endNodes s.config.timings.gracePeriod.toNat endings host
  ((Ending.results? endings).getD [], { s with host, handles := [] })

def reader? (s : Supervision) (node : NodeId) : Option NodeReader :=
  s.readers.find? (·.handle.node = node)

def read (s : Supervision) (node : NodeId) (count : Option Nat) :
    Option (List PipeItem) × Supervision :=
  match s.reader? node with
  | none => (none, s)
  | some _ =>
    let enough (s : Supervision) : Bool := (s.reader? node).any fun n =>
      n.output.ended || count.any (· ≤ n.items.length)
    let (_, s) := waitFor enough patience s
    let items := ((s.reader? node).map (·.items)).getD []
    let taken := count.getD items.length
    (some (items.take taken), { s with readers := s.readers.map fun n =>
      if n.handle.node = node then { n with items := n.items.drop taken } else n })

def waitLive (s : Supervision) (count : Nat) : Bool × Supervision :=
  waitFor (fun s => s.liveCount ≤ count) patience s

end Supervision

end ClusterWatch
