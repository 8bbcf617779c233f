import ClusterWatch.Proofs.Host.Lifetimes
import ClusterWatch.Proofs.Session.Ending
import ClusterWatch.Rehearsal.Supervision

/-!
# What a supervision holds

The handles of a supervision stand for processes that its host knows, and no two for the same one
(`Supervision.Reachable.held`). A launch starts its nodes under new numbers (`Launch.goneOn_spawnNext`), so they are
none of those that are held already; everything else that a supervision does is something that may become of its host
(`Host.Since`).
-/

namespace ClusterWatch

/-! ## Ending and launching -/

namespace Ending

theorem since_forAll {α : Type} {look : Host → α → Ending × Host}
    (hlook : ∀ (host : Host) a, host.Since (look host a).2) (host : Host) (as : List α) :
    host.Since (forAll look host as).2 :=
  forAll_snd .refl .trans hlook host as

theorem since_begin (host : Host) (h : NodeHandle) : host.Since (begin Host.system host h).2 := by
  rw [begin]
  split
  · exact Host.since_signal host h.pid "TERM"
  · exact .refl host

theorem since_resume (graceOver : Bool) (host : Host) (e : Ending) :
    host.Since (resume Host.system graceOver host e).2 := by
  rw [resume]
  split
  · exact .refl host
  · split
    · exact .refl host
    · split
      · exact Host.since_signal host e.handle.pid "KILL"
      · exact .refl host

end Ending

theorem Supervision.since_endNodes (grace : Nat) (es : List Ending) (host : Host) :
    host.Since (endNodes grace es host).2 := by
  induction grace generalizing es host with
  | zero => exact Ending.since_forAll (Ending.since_resume true) host es
  | succ grace ih =>
    rw [endNodes]
    split
    · exact .refl host
    · exact ((Host.since_advance host _).trans (Ending.since_forAll (Ending.since_resume false) _ es)).trans (ih _ _)

/-- The processes of handles are known, and no two have the same; their numbers have been given from `first` on. -/
structure Host.Holds (host : Host) (first : Pid) (handles : List NodeHandle) : Prop where
  known : ∀ h ∈ handles, host.Known h.pid
  numbers : ∀ h ∈ handles, first ≤ h.pid
  distinct : (pidsOf handles).Nodup

namespace Host.Holds
variable {host host' : Host} {first next : Pid} {handles handles' : List NodeHandle}

theorem nil (host : Host) (first : Pid) : host.Holds first [] :=
  ⟨fun _ h => absurd h List.not_mem_nil, fun _ h => absurd h List.not_mem_nil, List.nodup_nil⟩

theorem later (h : host.Holds first handles) (hsince : host.Since host') : host'.Holds first handles :=
  ⟨fun n hn => hsince.known (h.known n hn), h.numbers, h.distinct⟩

theorem append (h : host.Holds first handles) (hold : ∀ n ∈ handles, n.pid < next) (hle : first ≤ next)
    (h' : host.Holds next handles') : host.Holds first (handles ++ handles') where
  known n hn := (List.mem_append.1 hn).elim (h.known n) (h'.known n)
  numbers n hn := (List.mem_append.1 hn).elim (h.numbers n) fun hn => Nat.le_trans hle (h'.numbers n hn)
  distinct := by
    rw [pidsOf, List.map_append, List.nodup_append]
    refine ⟨h.distinct, h'.distinct, fun p hp q hq => ?_⟩
    obtain ⟨n, hn, rfl⟩ := List.mem_map.1 hp
    obtain ⟨m, hm, rfl⟩ := List.mem_map.1 hq
    exact Nat.ne_of_lt (Nat.lt_of_lt_of_le (hold n hn) (h'.numbers m hm))

theorem singleton {n : NodeHandle} (hknown : host.Known n.pid) : host.Holds n.pid [n] where
  known _ hm := by rwa [List.mem_singleton.1 hm]
  numbers _ hm := Nat.le_of_eq (by rw [List.mem_singleton.1 hm])
  distinct := by simp [pidsOf]

end Host.Holds

namespace Launch
variable (c : Config) (held : List NodeHandle) {first : Pid}

/-- What a launch has started is held on the host. -/
def HeldOn (host : Host) (first : Pid) : Launch → Prop
  | settling handles | launched handles => host.Holds first handles
  | failing .. | failed _ => True

/-- A launch that has gone on from a host: what has become of the host, and what is held there. -/
structure GoneOn (host : Host) (first : Pid) (reached : Launch × Host) : Prop where
  since : host.Since reached.2
  heldOn : reached.1.HeldOn reached.2 first

theorem GoneOn.after {host host' : Host} {reached : Launch × Host} (h : GoneOn host' first reached)
    (hsince : host.Since host') : GoneOn host first reached :=
  ⟨hsince.trans h.since, h.heldOn⟩

theorem goneOn_fail (host : Host) (handles : List NodeHandle) (error : ClusterError) :
    GoneOn host first (fail Host.system host handles error) := by
  have hsince := Ending.since_forAll Ending.since_begin host handles
  rw [fail]
  dsimp only
  split <;> exact ⟨hsince, trivial⟩

theorem goneOn_spawnNext {host : Host} (hnumbered : host.Numbered) (hfirst : first ≤ host.nextPid)
    {handles : List NodeHandle} (hholds : host.Holds first handles) :
    GoneOn host first (spawnNext Host.system c held host handles) := by
  let node := UInt32.ofNat handles.length
  obtain ⟨hsince, hknown⟩ := Host.since_spawn host c.executable (c.argsFor node)
  rw [spawnNext, show Host.system.spawn host c.executable node (c.argsFor node) =
    host.spawn c.executable (c.argsFor node) from rfl]
  generalize host.spawn c.executable (c.argsFor node) = spawned at hsince hknown ⊢
  obtain ⟨cause | pid, host'⟩ := spawned
  · exact (goneOn_fail host' (held ++ handles) (.spawn node cause)).after hsince
  · obtain ⟨rfl, hnew⟩ := hknown pid rfl
    refine ⟨hsince, (hholds.later hsince).append (fun n hn => (hholds.known n hn).old) hfirst ?_⟩
    exact .singleton (n := ⟨node, host.nextPid⟩) (hnew hnumbered)

theorem goneOn_begin {host : Host} (hnumbered : host.Numbered) :
    GoneOn host host.nextPid (begin Host.system c held host) := by
  rw [begin]
  split
  · exact goneOn_spawnNext c held hnumbered (Nat.le_refl _) (.nil host _)
  · exact ⟨.refl host, trivial⟩

theorem goneOn_resume (timeOver : Bool) {host : Host} (hnumbered : host.Numbered) (hfirst : first ≤ host.nextPid)
    {handles : List NodeHandle} (hholds : host.Holds first handles) :
    GoneOn host first (resume Host.system c held timeOver host (.settling handles)) := by
  rw [resume]
  split
  · exact ⟨.refl host, hholds⟩
  · split
    · exact ⟨.refl host, hholds⟩
    · exact goneOn_spawnNext c held hnumbered hfirst hholds

end Launch

namespace Supervision

theorem goneOn_goThrough (c : Config) (held : List NodeHandle) {first : Pid} (fuel : Nat) {l : Launch} {host : Host}
    (hnumbered : host.Numbered) (hfirst : first ≤ host.nextPid) (hheld : l.HeldOn host first) :
    Launch.GoneOn host first (goThrough c held fuel l host) := by
  induction fuel generalizing l host with
  | zero => exact ⟨.refl host, hheld⟩
  | succ fuel ih =>
    cases l with
    | launched handles => exact ⟨.refl host, hheld⟩
    | failed error => exact ⟨.refl host, trivial⟩
    | failing error endings => exact ⟨since_endNodes _ endings host, trivial⟩
    | settling handles =>
      have hpause := Host.since_advance host (host.now + (Launch.settling handles).pause c * millisecond)
      have hresumed := (Launch.goneOn_resume c held true (hpause.numbered hnumbered)
        (Nat.le_trans hfirst hpause.nextPid) (Host.Holds.later hheld hpause)).after hpause
      have hnumber := Nat.le_trans hfirst hresumed.since.nextPid
      rw [goThrough]
      exact (ih (hresumed.since.numbered hnumbered) hnumber hresumed.heldOn).after hresumed.since

/-! ## All that a supervision does -/

/-- All that is held are processes of the host, each of them once. -/
structure Held (s : Supervision) : Prop where
  numbered : s.host.Numbered
  holds : s.host.Holds 0 s.handles

theorem Held.passes {s s' : Supervision} (h : s.Held) (hsince : s.host.Since s'.host)
    (hhandles : s'.handles = s.handles ∨ s'.handles = []) : s'.Held where
  numbered := hsince.numbered h.numbered
  holds := by
    rcases hhandles with e | e <;> rw [e]
    · exact h.holds.later hsince
    · exact .nil _ _

theorem since_takeOutput (host : Host) (launch : Pid) : host.Since (host.takeOutput launch).2.2 := by
  rw [Host.takeOutput]
  split
  · exact .of_processes rfl rfl
  · exact .refl host

theorem since_foldl {α β : Type} (host : β → Host) {f : β → α → β} (hf : ∀ b a, (host b).Since (host (f b a)))
    (as : List α) (b : β) : (host b).Since (host (as.foldl f b)) := by
  induction as generalizing b with
  | nil => exact .refl (host b)
  | cons a as ih => exact (hf b a).trans (ih (f b a))

theorem held_serve {s : Supervision} (h : s.Held) : s.serve.Held := by
  refine h.passes (since_foldl Prod.snd (fun b n => ?_) s.readers ([], s.host)) (.inl rfl)
  dsimp only
  split
  · exact .refl b.2
  · exact since_takeOutput b.2 n.handle.pid

theorem held_tick {s : Supervision} (h : s.Held) : s.tick.Held :=
  held_serve (h.passes (Host.since_advance s.host _) (.inl rfl))

theorem held_waitFor {condition : Supervision → Bool} (most : Nat) {s : Supervision} (h : s.Held) :
    (waitFor condition most s).2.Held := by
  induction most generalizing s with
  | zero => exact h
  | succ most ih =>
    rw [waitFor]
    split
    · exact h
    · exact ih (held_tick h)

theorem held_read {s : Supervision} (node : NodeId) (count : Option Nat) (h : s.Held) : (s.read node count).2.Held := by
  rw [read]
  split
  · exact h
  · exact (held_waitFor patience h).passes (.refl _) (.inl rfl)

theorem held_terminateAll {s : Supervision} (h : s.Held) : s.terminateAll.2.Held :=
  h.passes ((Ending.since_forAll Ending.since_begin s.host s.handles).trans (since_endNodes _ _ _)) (.inr rfl)

theorem held_launch {s : Supervision} (h : s.Held) : s.launch.2.Held := by
  have hbegun := Launch.goneOn_begin s.config s.handles h.numbered
  have hwent := (goneOn_goThrough s.config s.handles (s.config.nodes.toNat + 2) (hbegun.since.numbered h.numbered)
    hbegun.since.nextPid hbegun.heldOn).after hbegun.since
  rw [launch]
  generalize Launch.begin Host.system s.config s.handles s.host = begun at hwent ⊢
  dsimp only
  generalize goThrough s.config s.handles (s.config.nodes.toNat + 2) begun.1 begun.2 = went at hwent ⊢
  obtain ⟨hsince, hheld⟩ := hwent
  split
  case h_1 handles host =>
    have hbroken (old : List NodeReader) :
        host.Since (old.foldl (fun host r => host.breakPipes r.handle.pid) host) := by
      refine since_foldl id (fun host r => ?_) old host
      exact .of_processes rfl rfl
    have hold : ∀ n ∈ s.handles, n.pid < s.host.nextPid := fun n hn => (h.holds.known n hn).old
    exact ⟨(hsince.trans (hbroken _)).numbered h.numbered,
      ((h.holds.later hsince).append hold (Nat.zero_le _) hheld).later (hbroken _)⟩
  case h_2 error host =>
    refine h.passes hsince ?_
    dsimp only
    split
    · exact .inl rfl
    · exact .inr rfl
  case h_3 => exact h.passes hsince (.inl rfl)

/-- The supervisions that come about: nothing runs when they begin. -/
inductive Reachable : Supervision → Prop
  | start (config : Config) (host : Host) (hnone : host.processes = []) : Reachable { config, host }
  | launch {s : Supervision} : Reachable s → Reachable s.launch.2
  | tick {s : Supervision} : Reachable s → Reachable s.tick
  | read {s : Supervision} (node : NodeId) (count : Option Nat) : Reachable s → Reachable (s.read node count).2
  | waitLive {s : Supervision} (count : Nat) : Reachable s → Reachable (s.waitLive count).2
  | terminateAll {s : Supervision} : Reachable s → Reachable s.terminateAll.2

theorem Reachable.held {s : Supervision} (h : s.Reachable) : s.Held := by
  induction h with
  | start config host hnone =>
    exact ⟨fun q hq => absurd (hnone ▸ hq) List.not_mem_nil, .nil host 0⟩
  | launch _ ih => exact held_launch ih
  | tick _ ih => exact held_tick ih
  | read node count _ ih => exact held_read node count ih
  | waitLive count _ ih => exact held_waitFor patience ih
  | terminateAll _ ih => exact held_terminateAll ih

end Supervision

end ClusterWatch
