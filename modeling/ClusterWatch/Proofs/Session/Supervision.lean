import ClusterWatch.Proofs.Session.Holding
import ClusterWatch.Proofs.Session.Outcomes
import Mathlib.Logic.Function.Basic

/-!
# Ending all nodes that are supervised

A host keeps the laws of ending (`Host.lawfulEnding`), whatever the shells on it do: so what holds of every lawful
system holds of `Supervision.terminateAll`, which is `Ending.endAll` on the host with a millisecond for a moment.
`System.LawfulEnding.ends_every_node` puts both together.
-/

namespace ClusterWatch

/-! ## Nodes on a host -/

/-- A moment passes on a host. -/
def Host.moment (host : Host) : Host := host.advance (host.now + millisecond)

theorem Host.Since.later {h h' : Host} (hsince : h.Since h') : Host.system.Later Host.Known h h' :=
  ⟨hsince.known, fun hp => (hsince.ages hp).alive⟩

theorem Host.lawfulEnding : Host.system.LawfulEnding Host.moment Host.Known where
  passes h := (since_advance h _).later
  requestExit h q := (since_signal h q "TERM").later
  kill h q := (since_signal h q "KILL").later
  killed {h p} _ := by
    show (h.signal p "KILL").isAlive p = false
    simp [isAlive_kill]
  kill_other {h p q} _ hne halive := by
    show (h.signal q "KILL").isAlive p = true
    rw [isAlive_kill, show h.isAlive p = true from halive]
    simpa using hne

namespace Supervision

theorem endNodes_eq (grace : Nat) (es : List Ending) (host : Host) :
    endNodes grace es host = Ending.await Host.system Host.moment grace es host := by
  induction grace generalizing es host with
  | zero => rfl
  | succ grace ih =>
    rw [endNodes, Ending.await]
    split
    · rfl
    · exact ih _ _

/-- What ending all nodes that are supervised comes to. -/
structure TerminatesAll (s : Supervision) : Prop where
  results : s.terminateAll.1 =
    (Ending.endAll Host.system Host.moment s.config.timings.gracePeriod.toNat s.host s.handles).1
  host : s.terminateAll.2.host =
    (Ending.endAll Host.system Host.moment s.config.timings.gracePeriod.toNat s.host s.handles).2
  ends : Host.system.EndsAll Host.moment Host.Known s.config.timings.gracePeriod.toNat s.host s.handles
  handles : s.terminateAll.2.handles = []
  liveCount : s.terminateAll.2.liveCount = 0
  anyAlive : s.terminateAll.2.anyAlive = false
  again : s.terminateAll.2.terminateAll.1 = []

theorem terminateAll_eq (s : Supervision) :
    s.terminateAll =
      ((Ending.endAll Host.system Host.moment s.config.timings.gracePeriod.toNat s.host s.handles).1,
        { s with
          host := (Ending.endAll Host.system Host.moment s.config.timings.gracePeriod.toNat s.host s.handles).2
          handles := [] }) := by
  rw [terminateAll]
  dsimp only
  rw [endNodes_eq]
  rfl

theorem endAll_nil {World : Type} (s : System World) (moment : World → World) (moments : Nat) (w : World) :
    (Ending.endAll s moment moments w []).1 = [] := by
  cases moments <;> rfl

theorem Reachable.terminatesAll {s : Supervision} (h : s.Reachable) : s.TerminatesAll where
  results := by rw [terminateAll_eq]
  host := by rw [terminateAll_eq]
  ends := Ending.endsAll Host.lawfulEnding _ s.host h.held.holds.known h.held.holds.distinct
  handles := rfl
  liveCount := rfl
  anyAlive := rfl
  again := by
    rw [terminateAll_eq]
    exact endAll_nil ..

end Supervision

/-! ## The outcome -/

/-- Every node that is held ends by itself, on any system that keeps the laws and so under any supervision: one that
had exited is left alone, one that exits in time is not killed, and no other is left alive. -/
theorem System.LawfulEnding.ends_every_node {World : Type} {s : System World} {moment : World → World}
    {known : World → Pid → Prop} (laws : s.LawfulEnding moment known) (moments : Nat) {w : World}
    {handles : List NodeHandle} (hknown : ∀ h ∈ handles, known w h.pid) (hpids : (pidsOf handles).Nodup) :
    s.EndsAll moment known moments w handles ∧ ∀ sup : Supervision, sup.Reachable → sup.TerminatesAll :=
  ⟨Ending.endsAll laws moments w hknown hpids, fun _ => Supervision.Reachable.terminatesAll⟩

/-- How a process takes it to be asked to exit: it does so after some moments, or never. -/
inductive Manner
  | gone
  | leaving (moments : Nat)
  | staying (patience : Option Nat)
deriving DecidableEq, Repr

namespace Manner

def asked : Manner → Manner
  | staying (some moments) => leaving moments
  | m => m

def later : Manner → Manner
  | leaving 0 => gone
  | leaving (moments + 1) => leaving moments
  | m => m

end Manner

namespace System

/-- A world of processes with manners. -/
def mannered : System (Pid → Manner) where
  pathExists _ _ := false
  spawn w _ _ _ := (.error "there is no program", w)
  isAlive w p := w p ≠ .gone
  requestExit w p := Function.update w p (w p).asked
  kill w p := Function.update w p .gone

theorem lawfulEnding_mannered : mannered.LawfulEnding (Manner.later ∘ ·) fun _ _ => True where
  passes w := by
    refine ⟨fun _ => trivial, fun {p} _ => ?_⟩
    cases h : w p <;> simp [mannered, h, Manner.later]
  requestExit w q := by
    refine ⟨fun _ => trivial, fun {p} _ => ?_⟩
    by_cases hp : p = q
    · subst hp
      cases h : w p <;> simp [mannered, h, Manner.asked]
    · simp [mannered, hp]
  kill w q := by
    refine ⟨fun _ => trivial, fun {p} _ => ?_⟩
    by_cases hp : p = q <;> simp [mannered, hp]
  killed _ := by simp [mannered]
  kill_other _ hp := by simp [mannered, hp]

theorem separate_mannered (p : Pid) : mannered.Separate (Manner.later ∘ ·) p fun w w' => w p = w' p where
  isAlive h := by simp [mannered, h]
  passes h := congrArg Manner.later h
  requestExit h := by simp [mannered, h]
  left hne h := by simp [mannered, hne.symm, h]
  right hne h := by simp [mannered, hne.symm, h]

/-- A process that exits two moments after it is asked, one that never does, and one that does at once; no other
lives. -/
def threeManners : Pid → Manner
  | 102 => .staying (some 2)
  | 103 => .staying none
  | 104 => .staying (some 0)
  | _ => .gone

end System

def NodeHandle.four : List NodeHandle := [⟨0, 101⟩, ⟨1, 102⟩, ⟨2, 103⟩, ⟨3, 104⟩]

/-- A supervision of two nodes before their launch. -/
def Supervision.ofTwo : Supervision where
  config := { executable := "/usr/bin/sleep" }
  host := { files := Host.standardFiles, directory := ["work"] }

theorem System.LawfulEnding.ends_four_nodes :
    (Ending.endAll System.mannered (Manner.later ∘ ·) 3 System.threeManners NodeHandle.four).1 =
        [(0, .alreadyExited), (1, .graceful), (2, .killed), (3, .graceful)] ∧
      System.mannered.EndsAll (Manner.later ∘ ·) (fun _ _ => True) 3 System.threeManners NodeHandle.four ∧
      (Ending.endAll System.mannered (Manner.later ∘ ·) 3 System.threeManners NodeHandle.four).1[1]? =
        (Ending.endAll System.mannered (Manner.later ∘ ·) 3 System.threeManners [⟨1, 102⟩]).1[0]? ∧
      Supervision.ofTwo.launch.2.TerminatesAll := by
  have hpids : (pidsOf NodeHandle.four).Nodup := by decide
  obtain ⟨hends, hreachable⟩ := System.lawfulEnding_mannered.ends_every_node 3 (w := System.threeManners)
    (fun _ _ => trivial) hpids
  have hsplit : NodeHandle.four = [⟨0, 101⟩] ++ ⟨1, 102⟩ :: [⟨2, 103⟩, ⟨3, 104⟩] := rfl
  refine ⟨by decide, hends, ?_, hreachable _ (.launch (.start _ _ rfl))⟩
  exact hends.apart [] [] hsplit (System.separate_mannered 102) rfl (fun _ _ => trivial) (by decide)

end ClusterWatch
