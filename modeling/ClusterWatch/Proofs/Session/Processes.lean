import ClusterWatch.Session.Launch

/-!
# The processes of launches and of endings

A launch and a list of endings hold processes. `System.Lawful` states what a session relies on: only a
spawn that succeeds makes a process, and a process that is dead stays dead. Under these laws no process
gets lost: one that lives after a launch has gone on is held by the launch, or was alive before and is
none of those that the launch held (`Launch.alive_begin`, `Launch.alive_resume`); the same holds of
endings. `Launch.Ordered` says that the nodes of a launch are numbered in the order of their start.
-/

namespace ClusterWatch

variable {World : Type}

/-- The behaviour of processes that a session relies on. `passes` relates the worlds before and after
some time in which the session does nothing. -/
structure System.Lawful (s : System World) (passes : World → World → Prop) : Prop where
  spawn {w : World} {path : String} {node : NodeId} {args : List String} {p : Pid} :
    s.isAlive (s.spawn w path node args).2 p = true →
      s.isAlive w p = true ∨ (s.spawn w path node args).1 = .ok p
  requestExit {w : World} {q p : Pid} :
    s.isAlive (s.requestExit w q) p = true → s.isAlive w p = true
  kill {w : World} {q p : Pid} :
    s.isAlive (s.kill w q) p = true → s.isAlive w p = true ∧ p ≠ q
  passes {w w' : World} {p : Pid} :
    passes w w' → s.isAlive w' p = true → s.isAlive w p = true

/-- A world of live processes, each of which lives until it is killed. -/
def System.stubborn : System (List Pid) where
  pathExists _ _ := true
  spawn w _ _ _ := (.ok (w.foldl max 0 + 1), (w.foldl max 0 + 1) :: w)
  isAlive w p := w.contains p
  requestExit w _ := w
  kill w p := w.filter (· ≠ p)

theorem System.lawful_stubborn : System.stubborn.Lawful fun w w' => w' ⊆ w where
  spawn {w path node args p} h := by
    have h' : p = w.foldl max 0 + 1 ∨ p ∈ w := by simpa [stubborn] using h
    rcases h' with rfl | hp
    · exact .inr rfl
    · exact .inl (by simpa [stubborn] using hp)
  requestExit h := h
  kill h := by simpa [stubborn] using h
  passes {w w' p} hw h := by
    have hp : p ∈ w' := by simpa [stubborn] using h
    simpa [stubborn] using hw hp

/-- The processes of handles. -/
def pidsOf (handles : List NodeHandle) : List Pid := handles.map (·.pid)

namespace Ending

/-- The process that an ending still has to wait for. -/
def owed (e : Ending) : List Pid :=
  match e.result with
  | none => [e.handle.pid]
  | some _ => []

/-- The processes that are still to end. -/
def pending (es : List Ending) : List Pid := es.flatMap owed

@[simp] theorem pending_nil : pending [] = [] := rfl

@[simp] theorem pending_cons (e : Ending) (es : List Ending) :
    pending (e :: es) = e.owed ++ pending es := List.flatMap_cons

variable {s : System World} {passes : World → World → Prop}

/-- What each look keeps, a round of looks keeps: no process comes to life, and a process that was owed
and lives is still owed. -/
theorem forAll_alive {α : Type} {look : World → α → Ending × World} {before : α → List Pid} {p : Pid}
    (hlook : ∀ w a, s.isAlive (look w a).2 p = true →
      s.isAlive w p = true ∧ (p ∈ before a → p ∈ (look w a).1.owed))
    (as : List α) (w : World) (h : s.isAlive (forAll look w as).2 p = true) :
    s.isAlive w p = true ∧ (p ∈ as.flatMap before → p ∈ pending (forAll look w as).1) := by
  induction as generalizing w with
  | nil => exact ⟨h, by simp⟩
  | cons a as ih =>
    obtain ⟨hrest, hkept⟩ := ih (look w a).2 h
    obtain ⟨halive, hfirst⟩ := hlook w a hrest
    refine ⟨halive, fun hp => ?_⟩
    rw [List.flatMap_cons, List.mem_append] at hp
    show p ∈ pending ((look w a).1 :: (forAll look (look w a).2 as).1)
    rw [pending_cons, List.mem_append]
    exact hp.imp hfirst hkept

theorem alive_begin (laws : s.Lawful passes) {w : World} {h : NodeHandle} {p : Pid}
    (hp : s.isAlive (begin s w h).2 p = true) :
    s.isAlive w p = true ∧ (p ∈ [h.pid] → p ∈ (begin s w h).1.owed) := by
  rw [begin] at hp ⊢
  split at hp
  case isTrue halive => exact ⟨laws.requestExit hp, fun h => by simpa [halive, owed] using h⟩
  case isFalse hdead =>
    refine ⟨hp, fun h => absurd hp ?_⟩
    rwa [List.mem_singleton.1 h]

theorem alive_resume (laws : s.Lawful passes) {graceOver : Bool} {w : World} {e : Ending} {p : Pid}
    (hp : s.isAlive (resume s graceOver w e).2 p = true) :
    s.isAlive w p = true ∧ (p ∈ e.owed → p ∈ (resume s graceOver w e).1.owed) := by
  rw [resume] at hp ⊢
  cases hr : e.result with
  | some t => simpa [hr, owed] using hp
  | none =>
    have howed : e.owed = [e.handle.pid] := by simp [owed, hr]
    rw [howed]
    simp only [hr] at hp ⊢
    split at hp
    case isTrue hdead =>
      refine ⟨hp, fun h => ?_⟩
      rw [List.mem_singleton.1 h] at hp
      simp [hp] at hdead
    case isFalse hlive =>
      rw [if_neg hlive]
      cases graceOver with
      | false => exact ⟨hp, fun h => by simpa [owed, hr] using h⟩
      | true =>
        obtain ⟨halive, hne⟩ := laws.kill hp
        exact ⟨halive, fun h => absurd (List.mem_singleton.1 h) hne⟩

theorem alive_forAll_begin (laws : s.Lawful passes) (handles : List NodeHandle) (w : World) {p : Pid}
    (h : s.isAlive (forAll (begin s) w handles).2 p = true) :
    s.isAlive w p = true ∧ (p ∈ pidsOf handles → p ∈ pending (forAll (begin s) w handles).1) := by
  have hpids : pidsOf handles = handles.flatMap fun h => [h.pid] := List.map_eq_flatMap
  rw [hpids]
  exact forAll_alive (fun w h => alive_begin laws (w := w) (h := h)) handles w h

theorem alive_forAll_resume (laws : s.Lawful passes) (graceOver : Bool) (es : List Ending) (w : World)
    {p : Pid} (h : s.isAlive (forAll (resume s graceOver) w es).2 p = true) :
    s.isAlive w p = true ∧ (p ∈ pending es → p ∈ pending (forAll (resume s graceOver) w es).1) :=
  forAll_alive (fun w e => alive_resume laws (w := w) (e := e)) es w h

/-- Nothing is pending once there are results. -/
theorem pending_eq_nil {es : List Ending} {results : List (NodeId × Termination)}
    (h : results? es = some results) : pending es = [] := by
  rw [results?] at h
  induction es generalizing results with
  | nil => rfl
  | cons e es ih =>
    rw [List.mapM_cons] at h
    cases hr : e.result with
    | none => simp [hr] at h
    | some t =>
      cases hes : es.mapM fun e => e.result.map (e.handle.node, ·) with
      | none => simp [hr, hes] at h
      | some rest => simp [owed, hr, ih hes]

end Ending

namespace Launch

/-- The processes that a launch holds. -/
def pids : Launch → List Pid
  | settling handles => pidsOf handles
  | failing _ endings => Ending.pending endings
  | launched handles => pidsOf handles
  | failed _ => []

/-- The nodes that are started are the first ones, in their order, and not more than there are. -/
def Ordered (c : Config) : Launch → Prop
  | settling handles =>
    handles.map (·.node) = (List.range handles.length).map UInt32.ofNat ∧
      handles.length ≤ c.nodes.toNat
  | launched handles =>
    handles.map (·.node) = (List.range c.nodes.toNat).map UInt32.ofNat
  | _ => True

variable {s : System World} {passes : World → World → Prop}

theorem alive_fail (laws : s.Lawful passes) (handles : List NodeHandle) (e : ClusterError) (w : World)
    {p : Pid} (h : s.isAlive (fail s w handles e).2 p = true) :
    s.isAlive w p = true ∧ (p ∈ pidsOf handles → p ∈ (fail s w handles e).1.pids) := by
  rw [fail] at h ⊢
  obtain ⟨halive, hkept⟩ : s.isAlive w p = true ∧
      (p ∈ pidsOf handles → p ∈ Ending.pending (Ending.forAll (Ending.begin s) w handles).1) := by
    apply Ending.alive_forAll_begin laws
    revert h
    dsimp only
    split <;> exact id
  refine ⟨halive, fun hp => ?_⟩
  dsimp only
  split
  case h_1 results hr => simpa [Ending.pending_eq_nil hr] using hkept hp
  case h_2 => exact hkept hp

/-- A process that lives after the next node is started is held by the launch, or it was alive before
and is none of those that are started already. -/
theorem alive_spawnNext (laws : s.Lawful passes) (c : Config) (handles : List NodeHandle) (w : World)
    {p : Pid} (h : s.isAlive (spawnNext s c [] w handles).2 p = true) :
    p ∈ (spawnNext s c [] w handles).1.pids ∨ s.isAlive w p = true ∧ p ∉ pidsOf handles := by
  let node := UInt32.ofNat handles.length
  have hspawn : s.isAlive (s.spawn w c.executable node (c.argsFor node)).2 p = true →
      s.isAlive w p = true ∨ (s.spawn w c.executable node (c.argsFor node)).1 = .ok p := laws.spawn
  simp only [spawnNext] at h ⊢
  generalize s.spawn w c.executable _ _ = outcome at h hspawn ⊢
  obtain ⟨cause | pid, w'⟩ := outcome
  case error =>
    obtain ⟨halive, hkept⟩ := alive_fail laws _ _ _ h
    by_cases hp : p ∈ pidsOf handles
    · exact .inl (hkept hp)
    · exact .inr ⟨(hspawn halive).resolve_right (by simp), hp⟩
  case ok =>
    show p ∈ pidsOf (handles ++ [⟨_, pid⟩]) ∨ _
    by_cases hp : p ∈ pidsOf handles
    · exact .inl (by rw [pidsOf, List.map_append]; exact List.mem_append_left _ hp)
    · rcases hspawn h with halive | hpid
      · exact .inr ⟨halive, hp⟩
      · exact .inl (by simp [pidsOf, Except.ok.inj hpid])

theorem alive_begin (laws : s.Lawful passes) (c : Config) (w : World) {p : Pid}
    (h : s.isAlive (begin s c [] w).2 p = true) :
    p ∈ (begin s c [] w).1.pids ∨ s.isAlive w p = true := by
  rw [begin] at h ⊢
  split at h
  case isTrue hpath =>
    rw [if_pos hpath]
    exact (alive_spawnNext laws c [] w h).imp_right (·.1)
  case isFalse => exact .inr h

theorem alive_resume (laws : s.Lawful passes) (c : Config) (timeOver : Bool) (w : World) (l : Launch)
    {p : Pid} (h : s.isAlive (resume s c [] timeOver w l).2 p = true) :
    p ∈ (resume s c [] timeOver w l).1.pids ∨ s.isAlive w p = true ∧ p ∉ l.pids := by
  cases l with
  | settling handles =>
    simp only [resume] at h ⊢
    split at h
    case isTrue hwait =>
      rw [if_pos hwait]
      exact Decidable.or_iff_not_imp_left.2 fun hp => ⟨h, hp⟩
    case isFalse hover =>
      rw [if_neg hover]
      split at h
      case isTrue hall =>
        rw [if_pos hall]
        exact Decidable.or_iff_not_imp_left.2 fun hp => ⟨h, hp⟩
      case isFalse hmore =>
        rw [if_neg hmore]
        exact alive_spawnNext laws c handles w h
  | failing e endings =>
    simp only [resume] at h ⊢
    obtain ⟨halive, hkept⟩ : s.isAlive w p = true ∧ (p ∈ Ending.pending endings →
        p ∈ Ending.pending (Ending.forAll (Ending.resume s timeOver) w endings).1) := by
      apply Ending.alive_forAll_resume laws
      revert h
      split <;> exact id
    by_cases hp : p ∈ Ending.pending endings
    · refine .inl ?_
      split
      case h_1 results hr => simpa [Ending.pending_eq_nil hr] using hkept hp
      case h_2 => exact hkept hp
    · exact .inr ⟨halive, hp⟩
  | launched handles => exact Decidable.or_iff_not_imp_left.2 fun hp => ⟨h, hp⟩
  | failed e => exact .inr ⟨h, by simp [pids]⟩

theorem ordered_fail (c : Config) (handles : List NodeHandle) (e : ClusterError) (w : World) :
    (fail s w handles e).1.Ordered c := by
  rw [fail]
  dsimp only
  split <;> trivial

theorem ordered_spawnNext {c : Config} {handles : List NodeHandle} (w : World)
    (hnodes : handles.map (·.node) = (List.range handles.length).map UInt32.ofNat)
    (hlt : handles.length < c.nodes.toNat) : (spawnNext s c [] w handles).1.Ordered c := by
  simp only [spawnNext]
  split
  case h_1 pid w' _ =>
    refine ⟨?_, by rw [List.length_append]; exact hlt⟩
    simp [hnodes, List.range_succ]
  case h_2 => exact ordered_fail c _ _ _

theorem ordered_begin {c : Config} (w : World) (h : 0 < c.nodes.toNat) :
    (begin s c [] w).1.Ordered c := by
  rw [begin]
  split
  · exact ordered_spawnNext w (by simp) h
  · trivial

theorem ordered_resume {c : Config} (timeOver : Bool) (w : World) {l : Launch} (h : l.Ordered c) :
    (resume s c [] timeOver w l).1.Ordered c := by
  cases l with
  | settling handles =>
    obtain ⟨hnodes, hle⟩ := h
    simp only [resume]
    split
    · exact ⟨hnodes, hle⟩
    · split
      case isTrue hall =>
        have hlen : handles.length = c.nodes.toNat := Nat.le_antisymm hle hall
        rwa [hlen] at hnodes
      case isFalse hmore => exact ordered_spawnNext w hnodes (Nat.lt_of_not_le hmore)
  | failing e endings =>
    simp only [resume]
    split <;> trivial
  | launched handles => exact h
  | failed e => exact h

end Launch

end ClusterWatch
