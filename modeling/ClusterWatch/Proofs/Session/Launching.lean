import ClusterWatch.Proofs.Session.Overlap

/-!
# Launching is all or nothing

A launch starts the nodes in their order and ends with all of them, or with the first that could not be started
and with none (`Launch.Runs.allOrNothing`). What has been tried is seen in a world that keeps a record of it
(`System.recorded`). A start that fails leaves nothing (`Course.Reachable.start_all_or_nothing`).
-/

namespace ClusterWatch

variable {World : Type}

/-! ## Attempts to start a node -/

/-- An attempt to start a node, and what came of it. -/
structure Attempt where
  path : String
  node : NodeId
  args : List String
  outcome : Except String Pid

/-- The attempt to start the node with this number. -/
def Config.attempt (c : Config) (k : Nat) (outcome : Except String Pid) : Attempt where
  path := c.executable
  node := .ofNat k
  args := if k = 0 then c.coordinatorArgs else c.collaboratorArgs (.ofNat k)
  outcome := outcome

/-- The same system in a world that keeps a record of all attempts. -/
def System.recorded (s : System World) : System (World × List Attempt) where
  pathExists w path := s.pathExists w.1 path
  spawn w path node args :=
    ((s.spawn w.1 path node args).1, (s.spawn w.1 path node args).2,
      w.2 ++ [⟨path, node, args, (s.spawn w.1 path node args).1⟩])
  isAlive w := s.isAlive w.1
  requestExit w p := (s.requestExit w.1 p, w.2)
  kill w p := (s.kill w.1 p, w.2)

/-- Time passes, and the record stays as it is. -/
def Recorded (passes : World → World → Prop) (w w' : World × List Attempt) : Prop :=
  passes w.1 w'.1 ∧ w'.2 = w.2

theorem System.Lawful.recorded {s : System World} {passes : World → World → Prop} (laws : s.Lawful passes) :
    s.recorded.Lawful (Recorded passes) where
  spawn h := laws.spawn h
  requestExit h := laws.requestExit h
  kill h := laws.kill h
  passes hw h := laws.passes hw.1 h

theorem argsFor_ofNat (c : Config) {k : Nat} (hk : k < c.nodes.toNat ∨ k = 0) :
    c.argsFor (.ofNat k) = if k = 0 then c.coordinatorArgs else c.collaboratorArgs (.ofNat k) := by
  have hzero : UInt32.ofNat k = 0 ↔ k = 0 := by
    have hnodes := c.nodes.toNat_lt
    have hsize : UInt32.size = 4294967296 := rfl
    rw [← UInt32.toNat_inj, UInt32.toNat_ofNat_of_lt' (by omega)]
    rfl
  rw [Config.argsFor, Role.ofNode]
  by_cases h : k = 0
  · rw [if_pos (hzero.2 h), if_pos h]
  · rw [if_neg (mt hzero.1 h), if_neg h]

namespace Ending

theorem forAll_recorded {α : Type} {look : World → α → Ending × World}
    {look' : World × List Attempt → α → Ending × (World × List Attempt)} {attempts : List Attempt}
    (h : ∀ w a, look' (w, attempts) a = ((look w a).1, (look w a).2, attempts)) (w : World) (as : List α) :
    forAll look' (w, attempts) as = ((forAll look w as).1, (forAll look w as).2, attempts) := by
  induction as generalizing w with
  | nil => rfl
  | cons a as ih =>
    simp only [forAll]
    rw [h, ih]

theorem begin_recorded (s : System World) (w : World) (attempts : List Attempt) (h : NodeHandle) :
    begin s.recorded (w, attempts) h = ((begin s w h).1, (begin s w h).2, attempts) := by
  by_cases hlive : s.isAlive w h.pid = true <;> simp [begin, System.recorded, hlive]

theorem resume_recorded (s : System World) (graceOver : Bool) (w : World) (attempts : List Attempt) (e : Ending) :
    resume s.recorded graceOver (w, attempts) e =
      ((resume s graceOver w e).1, (resume s graceOver w e).2, attempts) := by
  cases hr : e.result with
  | some t => simp [resume, hr]
  | none =>
    by_cases hlive : s.isAlive w e.handle.pid = true <;> cases graceOver <;>
      simp [resume, System.recorded, hr, hlive]

/-- When the grace period is over, all nodes have ended. -/
theorem results?_forAll_resume (s : System World) (w : World) (es : List Ending) :
    (results? (forAll (resume s true) w es).1).isSome = true := by
  induction es generalizing w with
  | nil => rfl
  | cons e es ih =>
    have hresult : (resume s true w e).1.result.isSome = true := by
      rw [resume]
      cases hr : e.result with
      | some t => simp [hr]
      | none => cases s.isAlive w e.handle.pid <;> rfl
    have hrest := ih (resume s true w e).2
    rw [results?] at hrest ⊢
    obtain ⟨t, ht⟩ := Option.isSome_iff_exists.1 hresult
    obtain ⟨rest, hes⟩ := Option.isSome_iff_exists.1 hrest
    simp only [forAll, List.mapM_cons, ht, hes]
    rfl

end Ending

namespace Launch

variable {s : System World} {c : Config} {w : World} {attempts : List Attempt}

theorem fail_recorded (handles : List NodeHandle) (e : ClusterError) :
    fail s.recorded (w, attempts) handles e = ((fail s w handles e).1, (fail s w handles e).2, attempts) := by
  rw [fail, Ending.forAll_recorded (Ending.begin_recorded s · attempts), fail]
  dsimp only
  split <;> rfl

theorem spawnNext_recorded (handles : List NodeHandle) :
    spawnNext s.recorded c [] (w, attempts) handles =
      ((spawnNext s c [] w handles).1, (spawnNext s c [] w handles).2,
        attempts ++ [⟨c.executable, .ofNat handles.length, c.argsFor (.ofNat handles.length),
          (s.spawn w c.executable (.ofNat handles.length) (c.argsFor (.ofNat handles.length))).1⟩]) := by
  simp only [spawnNext, System.recorded]
  generalize s.spawn w c.executable _ _ = outcome
  obtain ⟨cause | pid, w'⟩ := outcome
  · exact fail_recorded _ _
  · rfl

/-! ## Runs of a launch -/

/-- A launch goes on while time passes. It is counted how often a pause of it was over. -/
inductive Runs (s : System World) (passes : World → World → Prop) (c : Config) (w₀ : World) :
    Nat → Launch → World → Prop
  | begin : Runs s passes c w₀ 0 (begin s c [] w₀).1 (begin s c [] w₀).2
  | passes {n : Nat} {l : Launch} {w w' : World} (h : Runs s passes c w₀ n l w) (hw : passes w w') :
      Runs s passes c w₀ n l w'
  | resume {n : Nat} {l : Launch} {w : World} (h : Runs s passes c w₀ n l w) (timeOver : Bool) :
      Runs s passes c w₀ (n + timeOver.toNat) (resume s c [] timeOver w l).1 (resume s c [] timeOver w l).2

/-- The attempts that have started these nodes. -/
def started (c : Config) (handles : List NodeHandle) : List Attempt :=
  handles.mapIdx fun k h => c.attempt k (.ok h.pid)

/-- The nodes have the first numbers. -/
def Numbered (handles : List NodeHandle) : Prop :=
  handles.map (·.node) = (List.range handles.length).map UInt32.ofNat

/-- How many nodes a launch starts. There is a coordinator in any case. -/
def size (c : Config) : Nat := max 1 c.nodes.toNat

/-- What a launch has tried when it has come so far, with so many pauses over. -/
inductive Account (c : Config) (n : Nat) : Launch → List Attempt → Prop
  | settling {handles : List NodeHandle} (hnodes : Numbered handles) (hlength : handles.length = n + 1)
      (hn : n < size c) : Account c n (.settling handles) (started c handles)
  | launched {handles : List NodeHandle} (hnodes : Numbered handles) (hlength : handles.length = size c) :
      Account c n (.launched handles) (started c handles)
  | failing {handles : List NodeHandle} {cause : String} {endings : List Ending} (hlt : handles.length < size c)
      (hn : n < size c) : Account c n (.failing (.spawn (.ofNat handles.length) cause) endings)
        (started c handles ++ [c.attempt handles.length (.error cause)])
  | failed {handles : List NodeHandle} {cause : String} (hlt : handles.length < size c) :
      Account c n (.failed (.spawn (.ofNat handles.length) cause))
        (started c handles ++ [c.attempt handles.length (.error cause)])
  | missing : Account c n (.failed (.executableNotFound c.executable)) []

theorem started_concat (c : Config) (handles : List NodeHandle) (h : NodeHandle) :
    started c (handles ++ [h]) = started c handles ++ [c.attempt handles.length (.ok h.pid)] := by
  simp [started, List.mapIdx_append]

theorem Numbered.concat {handles : List NodeHandle} (h : Numbered handles) (p : Pid) :
    Numbered (handles ++ [⟨.ofNat handles.length, p⟩]) := by
  rw [Numbered] at h ⊢
  simp [h, List.range_succ]

theorem fail_cases (s : System World) (w : World) (handles : List NodeHandle) (e : ClusterError) :
    (∃ endings, (fail s w handles e).1 = .failing e endings) ∨ (fail s w handles e).1 = .failed e := by
  rw [fail]
  dsimp only
  split
  · exact .inr rfl
  · exact .inl ⟨_, rfl⟩

/-- The next node is started, or that it could not be is the error of the launch. -/
theorem spawnNext_cases (s : System World) (c : Config) (w : World) (handles : List NodeHandle) :
    (∃ p, (s.spawn w c.executable (.ofNat handles.length) (c.argsFor (.ofNat handles.length))).1 = .ok p ∧
        (spawnNext s c [] w handles).1 = .settling (handles ++ [⟨.ofNat handles.length, p⟩])) ∨
      ∃ cause,
        (s.spawn w c.executable (.ofNat handles.length) (c.argsFor (.ofNat handles.length))).1 = .error cause ∧
        ((∃ endings, (spawnNext s c [] w handles).1 =
            .failing (.spawn (.ofNat handles.length) cause) endings) ∨
          (spawnNext s c [] w handles).1 = .failed (.spawn (.ofNat handles.length) cause)) := by
  simp only [spawnNext]
  generalize s.spawn w c.executable _ _ = outcome
  obtain ⟨cause | p, w'⟩ := outcome
  · exact .inr ⟨cause, rfl, fail_cases s w' _ _⟩
  · exact .inl ⟨p, rfl, rfl⟩

theorem account_spawnNext (s : System World) {c : Config} {n : Nat} (handles : List NodeHandle) (w : World)
    (hnodes : Numbered handles) (hlength : handles.length = n) (hn : n < size c) :
    Account c n (spawnNext s.recorded c [] (w, started c handles) handles).1
      (spawnNext s.recorded c [] (w, started c handles) handles).2.2 := by
  have hargs : c.argsFor (.ofNat handles.length) = (c.attempt handles.length (.ok 0)).args :=
    argsFor_ofNat c (by rw [hlength]; unfold size at hn; omega)
  rw [spawnNext_recorded]
  obtain ⟨p, hspawn, hnext⟩ | ⟨cause, hspawn, ⟨endings, hnext⟩ | hnext⟩ := spawnNext_cases s c w handles
  · rw [hnext, hspawn, hargs]
    show Account c n _ (started c handles ++ [c.attempt handles.length (.ok p)])
    rw [← started_concat c handles ⟨.ofNat handles.length, p⟩]
    exact .settling (hnodes.concat p) (by simp [hlength]) hn
  · rw [hnext, hspawn, hargs]
    exact .failing (hlength ▸ hn) hn
  · rw [hnext, hspawn, hargs]
    exact .failed (hlength ▸ hn)

theorem account_begin (s : System World) (c : Config) (w : World) :
    Account c 0 (begin s.recorded c [] (w, [])).1 (begin s.recorded c [] (w, [])).2.2 := by
  rw [begin]
  split
  · exact account_spawnNext s [] w rfl rfl (by unfold size; omega)
  · exact .missing

theorem Account.resume {s : System World} {c : Config} {n : Nat} {l : Launch} {attempts : List Attempt}
    (h : Account c n l attempts) (timeOver : Bool) (w : World) :
    Account c (n + timeOver.toNat) (resume s.recorded c [] timeOver (w, attempts) l).1
      (resume s.recorded c [] timeOver (w, attempts) l).2.2 := by
  cases h with
  | @settling handles hnodes hlength hn =>
    cases timeOver with
    | false => exact .settling hnodes hlength hn
    | true =>
      simp only [Launch.resume, Bool.not_true, Bool.false_eq_true, if_false]
      split
      case isTrue hall =>
        refine .launched hnodes ?_
        unfold size at hn ⊢
        omega
      case isFalse hmore =>
        have hmore : n + 1 < size c := by
          unfold size
          omega
        exact account_spawnNext s handles w hnodes hlength hmore
  | launched hnodes hlength => exact .launched hnodes hlength
  | @failing handles cause endings hlt hn =>
    have hrecorded := Ending.forAll_recorded (Ending.resume_recorded s timeOver ·
      (started c handles ++ [c.attempt handles.length (.error cause)])) w endings
    simp only [Launch.resume, hrecorded]
    cases timeOver with
    | false =>
      split
      · exact .failed hlt
      · exact .failing hlt hn
    | true =>
      obtain ⟨results, hresults⟩ := Option.isSome_iff_exists.1 (Ending.results?_forAll_resume s w endings)
      rw [hresults]
      exact .failed hlt
  | failed hlt => exact .failed hlt
  | missing => exact .missing

/-- From this record a launch has gone on so that the record only grows, and it holds what it has started. -/
def Records (attempts : List Attempt) (r : Launch × World × List Attempt) : Prop :=
  ∃ new, r.2.2 = attempts ++ new ∧ ∀ a ∈ new, ∀ p, a.outcome = .ok p → p ∈ r.1.pids

theorem records_self (l : Launch) (w : World) (attempts : List Attempt) : Records attempts (l, w, attempts) :=
  ⟨[], (List.append_nil _).symm, List.forall_mem_nil _⟩

theorem records_spawnNext (s : System World) (c : Config) (w : World) (attempts : List Attempt)
    (handles : List NodeHandle) : Records attempts (spawnNext s.recorded c [] (w, attempts) handles) := by
  rw [spawnNext_recorded]
  refine ⟨_, rfl, List.forall_mem_singleton.2 fun p hp => ?_⟩
  obtain ⟨q, hspawn, hnext⟩ | ⟨cause, hspawn, -⟩ := spawnNext_cases s c w handles
  · rw [hspawn] at hp
    cases hp
    rw [hnext]
    simp [pids, pidsOf]
  · rw [hspawn] at hp
    cases hp

theorem records_begin (s : System World) (c : Config) (w : World) :
    Records [] (Launch.begin s.recorded c [] (w, [])) := by
  rw [Launch.begin]
  split
  · exact records_spawnNext s c w [] []
  · exact records_self _ w []

theorem records_resume (s : System World) (c : Config) (timeOver : Bool) (w : World) (attempts : List Attempt)
    (l : Launch) : Records attempts (Launch.resume s.recorded c [] timeOver (w, attempts) l) := by
  cases l with
  | settling handles =>
    simp only [Launch.resume]
    split
    · exact records_self _ w attempts
    · split
      · exact records_self _ w attempts
      · exact records_spawnNext s c w attempts handles
  | failing e endings =>
    simp only [Launch.resume, Ending.forAll_recorded (Ending.resume_recorded s timeOver · attempts)]
    split <;> exact records_self _ _ attempts
  | launched handles | failed e => exact records_self _ w attempts

namespace Runs

variable {passes : World → World → Prop} {w₀ : World} {n : Nat} {l : Launch}

theorem account {w' : World × List Attempt}
    (h : Runs s.recorded (Recorded passes) c (w₀, []) n l w') : Account c n l w'.2 := by
  induction h with
  | begin => exact account_begin s c w₀
  | passes h hw ih => rwa [hw.2]
  | resume h timeOver ih => exact ih.resume timeOver _

/-- A process that the launch has started and that lives is held by it, and no other one has come to life. -/
theorem alive (laws : s.Lawful passes) {w' : World × List Attempt}
    (h : Runs s.recorded (Recorded passes) c (w₀, []) n l w') {p : Pid} (hp : s.isAlive w'.1 p = true) :
    (∀ a ∈ w'.2, a.outcome = .ok p → p ∈ l.pids) ∧ (p ∈ l.pids ∨ s.isAlive w₀ p = true) := by
  induction h with
  | begin =>
    obtain ⟨new, hrecord, hnew⟩ := records_begin s c w₀
    refine ⟨fun a ha hout => hnew a ?_ p hout, alive_begin laws.recorded c (w₀, []) hp⟩
    rwa [hrecord] at ha
  | passes h hw ih =>
    rw [hw.2]
    exact ih (laws.passes hw.1 hp)
  | @resume n l w' h timeOver ih =>
    obtain ⟨new, hrecord, hnew⟩ := records_resume s c timeOver w'.1 w'.2 l
    by_cases hheld : p ∈ (Launch.resume s.recorded c [] timeOver w' l).1.pids
    · exact ⟨fun _ _ _ => hheld, .inl hheld⟩
    · obtain ⟨halive, hlost⟩ := (alive_resume laws.recorded c timeOver w' l hp).resolve_left hheld
      obtain ⟨hstarted, horigin⟩ := ih halive
      refine ⟨fun a ha hout => ?_, .inr (horigin.resolve_left hlost)⟩
      rw [hrecord, List.mem_append] at ha
      rcases ha with ha | ha
      · exact absurd (hstarted a ha hout) hlost
      · exact hnew a ha p hout

theorem missing {w' : World × List Attempt} (h : Runs s.recorded (Recorded passes) c (w₀, []) n l w')
    (hpath : s.pathExists w₀ c.executable = false) :
    l = .failed (.executableNotFound c.executable) ∧ w'.2 = [] := by
  induction h with
  | begin =>
    have hbegin : Launch.begin s.recorded c [] (w₀, []) = (.failed (.executableNotFound c.executable), w₀, []) :=
      if_neg (by simp [System.recorded, hpath])
    rw [hbegin]
    exact ⟨rfl, rfl⟩
  | passes h hw ih => rwa [hw.2]
  | resume h timeOver ih =>
    obtain ⟨rfl, hnone⟩ := ih
    exact ⟨rfl, hnone⟩

theorem attempts_ne_nil {w' : World × List Attempt} (h : Runs s.recorded (Recorded passes) c (w₀, []) n l w')
    (hpath : s.pathExists w₀ c.executable = true) : w'.2 ≠ [] := by
  induction h with
  | begin =>
    have hbegin : Launch.begin s.recorded c [] (w₀, []) = spawnNext s.recorded c [] (w₀, []) [] := if_pos hpath
    rw [hbegin, spawnNext_recorded]
    exact List.cons_ne_nil _ _
  | passes h hw ih => rwa [hw.2]
  | @resume n l w' h timeOver ih =>
    obtain ⟨new, hrecord, -⟩ := records_resume s c timeOver w'.1 w'.2 l
    rw [hrecord]
    exact List.append_ne_nil_of_left_ne_nil ih new

end Runs

theorem begin_recorded (s : System World) (c : Config) (w : World) :
    (begin s.recorded c [] (w, [])).1 = (begin s c [] w).1 ∧
      (begin s.recorded c [] (w, [])).2.1 = (begin s c [] w).2 := by
  have hpath : s.recorded.pathExists (w, []) c.executable = s.pathExists w c.executable := rfl
  rw [begin, begin, hpath]
  split
  · rw [spawnNext_recorded]
    exact ⟨rfl, rfl⟩
  · exact ⟨rfl, rfl⟩

theorem resume_recorded (s : System World) (c : Config) (timeOver : Bool) (w : World) (attempts : List Attempt)
    (l : Launch) :
    (resume s.recorded c [] timeOver (w, attempts) l).1 = (resume s c [] timeOver w l).1 ∧
      (resume s.recorded c [] timeOver (w, attempts) l).2.1 = (resume s c [] timeOver w l).2 := by
  cases l with
  | settling handles =>
    simp only [resume]
    split
    · exact ⟨rfl, rfl⟩
    · split
      · exact ⟨rfl, rfl⟩
      · rw [spawnNext_recorded]
        exact ⟨rfl, rfl⟩
  | failing e endings =>
    simp only [resume, Ending.forAll_recorded (Ending.resume_recorded s timeOver · attempts)]
    split <;> exact ⟨rfl, rfl⟩
  | launched handles | failed e => exact ⟨rfl, rfl⟩

/-- The record changes nothing: every run has one. -/
theorem Runs.exists_recorded {passes : World → World → Prop} {w₀ : World} {n : Nat} {l : Launch}
    (h : Runs s passes c w₀ n l w) :
    ∃ attempts, Runs s.recorded (Recorded passes) c (w₀, []) n l (w, attempts) := by
  induction h with
  | begin =>
    obtain ⟨hlaunch, hworld⟩ := begin_recorded s c w₀
    rw [← hlaunch, ← hworld]
    exact ⟨_, .begin⟩
  | passes h hw ih =>
    obtain ⟨attempts, hruns⟩ := ih
    exact ⟨attempts, hruns.passes ⟨hw, rfl⟩⟩
  | @resume n l w h timeOver ih =>
    obtain ⟨attempts, hruns⟩ := ih
    obtain ⟨hlaunch, hworld⟩ := resume_recorded s c timeOver w attempts l
    rw [← hlaunch, ← hworld]
    exact ⟨_, hruns.resume timeOver⟩

/-! ## All or nothing -/

/-- How it stands with a launch that began in the world `w₀` and has come to `l` and `w`, with so many pauses over
and after these attempts. -/
structure AllOrNothing (s : System World) (c : Config) (w₀ : World) (n : Nat) (l : Launch) (w : World)
    (attempts : List Attempt) : Prop where
  /-- Without the program nothing is tried. -/
  missing : s.pathExists w₀ c.executable = false →
    l = .failed (.executableNotFound c.executable) ∧ attempts = []
  /-- The nodes are tried in their order, the coordinator as such and every other one as a collaborator. -/
  order : ∀ k a, attempts[k]? = some a → k < size c ∧ a = c.attempt k a.outcome
  /-- The first node that cannot be started is the last one tried, and the error of the launch. -/
  failure : ∀ k a cause, attempts[k]? = some a → a.outcome = .error cause →
    attempts.length = k + 1 ∧ ((∃ endings, l = .failing (.spawn (.ofNat k) cause) endings) ∨
      l = .failed (.spawn (.ofNat k) cause))
  /-- A launch of which no attempt fails does not fail. -/
  success : s.pathExists w₀ c.executable = true → (∀ a ∈ attempts, ∃ p, a.outcome = .ok p) →
    (∃ handles, l = .settling handles) ∨ ∃ handles, l = .launched handles
  /-- It gives all nodes in their order, each with the process that was started for it, and their outputs. -/
  launched : ∀ handles, l = .launched handles →
    handles.map (·.node) = (List.range (size c)).map UInt32.ofNat ∧
      attempts.map (·.outcome) = (pidsOf handles).map .ok ∧
      (Controller.freshDrains handles).map DrainTask.source = handles
  /-- A launch that has failed has ended what it started, and left nothing. -/
  gone : ∀ e, l = .failed e →
    (∀ a ∈ attempts, ∀ p, a.outcome = .ok p → s.isAlive w p = false) ∧
      ∀ p, s.isAlive w p = true → s.isAlive w₀ p = true
  /-- A launch comes to an end with the pauses of its nodes. -/
  returns : size c ≤ n → (∃ handles, l = .launched handles) ∨ ∃ e, l = .failed e

theorem getElem?_started {handles : List NodeHandle} {k : Nat} {a : Attempt}
    (h : (started c handles)[k]? = some a) : k < handles.length ∧ ∃ p, a = c.attempt k (.ok p) := by
  rw [started, List.getElem?_mapIdx, Option.map_eq_some_iff] at h
  obtain ⟨handle, hk, rfl⟩ := h
  exact ⟨(List.getElem?_eq_some_iff.1 hk).1, handle.pid, rfl⟩

theorem getElem?_started_concat {handles : List NodeHandle} {cause : String} {k : Nat} {a : Attempt}
    (h : (started c handles ++ [c.attempt handles.length (.error cause)])[k]? = some a) :
    (k < handles.length ∧ ∃ p, a = c.attempt k (.ok p)) ∨
      k = handles.length ∧ a = c.attempt k (.error cause) := by
  have hlength : (started c handles).length = handles.length := List.length_mapIdx
  rcases Nat.lt_or_ge k handles.length with hk | hk
  · rw [List.getElem?_append_left (by rwa [hlength])] at h
    exact .inl (getElem?_started h)
  · rw [List.getElem?_append_right (by rwa [hlength]), hlength, List.getElem?_singleton] at h
    split at h
    case isTrue hzero =>
      have hk : k = handles.length := by omega
      cases h
      exact .inr ⟨hk, by rw [hk]⟩
    case isFalse => cases h

namespace Account
variable {n : Nat} {l : Launch}

theorem order (h : Account c n l attempts) {k : Nat} {a : Attempt} (hk : attempts[k]? = some a) :
    k < size c ∧ a = c.attempt k a.outcome := by
  cases h with
  | settling hnodes hlength hn =>
    obtain ⟨hlt, p, rfl⟩ := getElem?_started hk
    exact ⟨by omega, rfl⟩
  | launched hnodes hlength =>
    obtain ⟨hlt, p, rfl⟩ := getElem?_started hk
    exact ⟨by omega, rfl⟩
  | failing hlt | failed hlt =>
    obtain ⟨hlt', p, rfl⟩ | ⟨rfl, rfl⟩ := getElem?_started_concat hk
    · exact ⟨by omega, rfl⟩
    · exact ⟨hlt, rfl⟩
  | missing => cases hk

theorem failure (h : Account c n l attempts) {k : Nat} {a : Attempt} {cause : String}
    (hk : attempts[k]? = some a) (hout : a.outcome = .error cause) :
    attempts.length = k + 1 ∧ ((∃ endings, l = .failing (.spawn (.ofNat k) cause) endings) ∨
      l = .failed (.spawn (.ofNat k) cause)) := by
  have hlength (handles : List NodeHandle) (a : Attempt) :
      (started c handles ++ [a]).length = handles.length + 1 := by
    simp [started]
  cases h with
  | settling | launched =>
    obtain ⟨-, p, rfl⟩ := getElem?_started hk
    cases hout
  | failing hlt hn =>
    obtain ⟨-, p, rfl⟩ | ⟨rfl, rfl⟩ := getElem?_started_concat hk
    · cases hout
    · cases hout
      exact ⟨hlength _ _, .inl ⟨_, rfl⟩⟩
  | failed hlt =>
    obtain ⟨-, p, rfl⟩ | ⟨rfl, rfl⟩ := getElem?_started_concat hk
    · cases hout
    · cases hout
      exact ⟨hlength _ _, .inr rfl⟩
  | missing => cases hk

theorem success (h : Account c n l attempts) (hne : attempts ≠ [])
    (hall : ∀ a ∈ attempts, ∃ p, a.outcome = .ok p) :
    (∃ handles, l = .settling handles) ∨ ∃ handles, l = .launched handles := by
  cases h with
  | settling => exact .inl ⟨_, rfl⟩
  | launched => exact .inr ⟨_, rfl⟩
  | failing | failed =>
    obtain ⟨p, hp⟩ := hall _ (List.mem_append_right _ (List.mem_singleton_self _))
    cases hp
  | missing => exact absurd rfl hne

theorem launched_eq {handles : List NodeHandle} (h : Account c n (.launched handles) attempts) :
    handles.map (·.node) = (List.range (size c)).map UInt32.ofNat ∧
      attempts.map (·.outcome) = (pidsOf handles).map .ok ∧
      (Controller.freshDrains handles).map DrainTask.source = handles := by
  cases h with
  | launched hnodes hlength =>
    rw [Numbered, hlength] at hnodes
    refine ⟨hnodes, ?_, ?_⟩
    · apply List.ext_getElem?
      intro k
      simp [started, pidsOf, Config.attempt, Function.comp_def]
    · rw [Controller.freshDrains, List.map_map]
      exact List.map_id _

theorem returns (h : Account c n l attempts) (hn : size c ≤ n) :
    (∃ handles, l = .launched handles) ∨ ∃ e, l = .failed e := by
  cases h with
  | settling hnodes hlength hlt => omega
  | launched => exact .inl ⟨_, rfl⟩
  | failing hlt hn => omega
  | failed | missing => exact .inr ⟨_, rfl⟩

end Account

/-- Every launch is all or nothing. -/
theorem Runs.allOrNothing {passes : World → World → Prop} (laws : s.Lawful passes) {w₀ : World} {n : Nat}
    {l : Launch} (h : Runs s.recorded (Recorded passes) c (w₀, []) n l (w, attempts)) :
    AllOrNothing s c w₀ n l w attempts where
  missing := h.missing
  order _ _ := h.account.order
  failure _ _ _ := h.account.failure
  success hpath := h.account.success (h.attempts_ne_nil hpath)
  launched handles hl := (hl ▸ h.account).launched_eq
  gone e hl := by
    subst hl
    refine ⟨fun a ha p hout => ?_, fun p hp => ((h.alive laws hp).2).resolve_left List.not_mem_nil⟩
    rw [← Bool.not_eq_true]
    exact fun hp => List.not_mem_nil ((h.alive laws hp).1 a ha hout)
  returns := h.account.returns

end Launch

/-! ## A start that fails -/

namespace Controller

/-- A step of a start that ends it with an error leaves an idle controller whose drains are told to end. -/
def RollsBack (r : Stepped World) : Prop :=
  ∀ e, r.2.2 = some (.started (.error e)) → r.1.stage = .idle ∧ r.1.running = false

theorem rollsBack_of_none (c : Controller) (w : World) : RollsBack (c, w, none) := by
  intro e he
  cases he

theorem rollsBack_afterLaunch {c : Controller} (h : c.stage = .starting) (id : CallId) (w : World) (l : Launch) :
    RollsBack (c.afterLaunch id w l) := by
  cases l with
  | failed e =>
    intro e' _
    rw [afterLaunch, tryChangeStage_eq]
    exact ⟨if_pos ⟨h, rfl⟩, rfl⟩
  | launched handles =>
    intro e he
    rw [afterLaunch, changeStage, if_pos ⟨h, rfl⟩] at he
    cases he
  | settling handles | failing e endings => exact rollsBack_of_none _ w

theorem rollsBack_afterBus (s : System World) {c : Controller} (h : c.stage = .starting) (id : CallId) (w : World)
    (answered : Bus × Option BusAnswer) : RollsBack (afterBus s c id w answered) := by
  obtain ⟨bus, _ | answer⟩ := answered
  · exact rollsBack_of_none _ w
  · rw [afterBus, afterClear_eq]
    apply rollsBack_afterLaunch
    exact h

theorem rollsBack_request (s : System World) {c : Controller} (h : c.stage = .starting) (id : CallId) (w : World) :
    RollsBack (request s c id w .startOpen) := by
  simp only [request, reduceCtorEq, if_false]
  split
  · apply rollsBack_afterBus
    exact h
  · exact rollsBack_of_none _ w

theorem rollsBack_step (s : System World) {c : Controller} (h : c.stage = .starting) {id : CallId}
    (hid : c.Busy .start id) (timeOver : Bool) (w : World) : RollsBack (c.step s id timeOver w) := by
  obtain ⟨p, hp, hkind⟩ := hid
  rw [step, hp]
  cases p with
  | startOpen => exact rollsBack_request s h id w
  | startClearing => exact rollsBack_afterBus s h id w _
  | startLaunching l => exact rollsBack_afterLaunch h id _ _
  | startQueued =>
    dsimp only
    split
    · exact rollsBack_afterBus s h id w _
    · exact rollsBack_of_none _ w
  | _ => cases hkind

end Controller

namespace Course

open Controller

variable {s : System World} {passes : World → World → Prop} {config : Config} {w₀ : World} {x : Course World}

/-- Nothing is left of a start: the controller is idle, the drains are told to end, and there are none; no process
lives. -/
structure RolledBack (s : System World) (x : Course World) : Prop where
  cleared : Cleared s x.controller x.world
  running : x.controller.running = false

theorem Reachable.rolledBack (laws : s.Lawful passes) (hnew : ∀ pid, s.isAlive w₀ pid = false)
    (hx : Reachable s passes config w₀ x) (hstage : x.controller.stage = .idle)
    (hrunning : x.controller.running = false) : RolledBack s x := by
  have hcons := hx.interleaved.1.consistent laws hnew
  refine ⟨(settled_of_consistent hcons fun a => ⟨fun ha => ?_, fun ha => ?_⟩).resolve_right ?_, hrunning⟩
  · simpa [hstage] using hcons.staged.start_stage ha
  · simpa [hstage] using hcons.staged.stop_stage ha
  · simp [hstage]

/-- A launch is all or nothing. A start of an idle controller that no stop overlaps with and that fails, whatever
the error, leaves nothing. -/
theorem Reachable.start_all_or_nothing (laws : s.Lawful passes) (hnew : ∀ pid, s.isAlive w₀ pid = false)
    (hx : Reachable s passes config w₀ x) :
    (∀ c w n l w' attempts, Launch.Runs s.recorded (Recorded passes) c (w, []) n l (w', attempts) →
      Launch.AllOrNothing s c w n l w' attempts) ∧
    ∀ id e,
      (x.controller.stage = .idle → x.controller.phase? id = none →
        (x.call s id .start).2 = some (.started (.error e)) → RolledBack s (x.call s id .start).1) ∧
      ∀ timeOver, x.controller.Busy .start id → (∀ a, ¬ x.controller.Busy .stop a) →
        (x.resume s id timeOver).2 = some (.started (.error e)) → RolledBack s (x.resume s id timeOver).1 := by
  refine ⟨fun c w n l w' attempts h => h.allOrNothing laws, fun id e => ⟨fun hidle hphase he => ?_, ?_⟩⟩
  · have hopen : x.openCall id .start =
        (x.goOn ({ x.controller with stage := .starting }.addCall id .startOpen) x.world, none) := by
      rw [Course.openCall, Controller.openCall, openStart, changeStage, if_pos ⟨hidle, rfl⟩]
    have hcall : x.call s id .start =
        (x.goOn ({ x.controller with stage := .starting }.addCall id .startOpen) x.world).resume s id false := by
      rw [Course.call, hopen]
    have hbusy : ({ x.controller with stage := .starting }.addCall id .startOpen).Busy .start id :=
      (busy_addCall (c := { x.controller with stage := .starting }) hphase).2 (.inl ⟨rfl, rfl⟩)
    have hy : Reachable s passes config w₀ (x.call s id .start).1 := hx.calls id .start hphase
    rw [hcall] at he hy ⊢
    obtain ⟨hstage, hrunning⟩ := rollsBack_step s rfl hbusy false x.world e he
    exact hy.rolledBack laws hnew hstage hrunning
  · intro timeOver hbusy hnone he
    have hcons := hx.interleaved.1.consistent laws hnew
    have hstarting : x.controller.stage = .starting := by
      refine (hcons.staged.start_stage hbusy).resolve_right fun hstopping => ?_
      obtain ⟨a, ha⟩ := hcons.staged.stopping hstopping
      exact hnone a ha
    obtain ⟨hstage, hrunning⟩ := rollsBack_step s hstarting hbusy timeOver _ e he
    exact (hx.resumes id timeOver).rolledBack laws hnew hstage hrunning

end Course

/-- A world in which there is room for two processes, each of which lives until it is killed. -/
def System.narrow : System (List Pid) where
  pathExists _ _ := true
  spawn w _ _ _ :=
    if w.length ≤ 1 then (.ok (w.foldl max 0 + 1), (w.foldl max 0 + 1) :: w) else (.error "no room", w)
  isAlive w p := w.contains p
  requestExit w _ := w
  kill w p := w.filter (· ≠ p)

theorem System.lawful_narrow : System.narrow.Lawful fun w w' => w' ⊆ w where
  spawn {w path node args p} h := by
    by_cases hroom : w.length ≤ 1
    · have h' : p = w.foldl max 0 + 1 ∨ p ∈ w := by simpa [narrow, hroom] using h
      rcases h' with rfl | hp
      · exact .inr (by simp [narrow, hroom])
      · exact .inl (by simpa [narrow] using hp)
    · exact .inl (by simpa [narrow, hroom] using h)
  requestExit h := h
  kill h := System.lawful_stubborn.kill h
  passes hw h := System.lawful_stubborn.passes hw h

/-- The third of three nodes finds no room: the two before it are killed. -/
theorem Course.start_all_or_nothing_narrow :
    ∃ x, Reachable System.narrow (fun w w' => w' ⊆ w) { nodes := 3 } [] x ∧
      (x.resume System.narrow 1 true).2 = some (.started (.error (.spawn 2 "no room"))) ∧
      RolledBack System.narrow (x.resume System.narrow 1 true).1 ∧
      ∃ l w attempts, Launch.Runs System.narrow.recorded (Recorded fun w w' => w' ⊆ w) { nodes := 3 } ([], []) 3
          l (w, attempts) ∧ l = .failed (.spawn 2 "no room") ∧ w = [] ∧
        Launch.AllOrNothing System.narrow { nodes := 3 } [] 3 l w attempts := by
  have h₀ : Reachable System.narrow (fun w w' => w' ⊆ w) { nodes := 3 } [] ⟨{ config := { nodes := 3 } }, [], []⟩ :=
    .fresh
  have h₁ := ((h₀.calls 1 .start rfl).resumes 1 true).resumes 1 true
  obtain ⟨hlaunch, hstart⟩ := h₁.start_all_or_nothing System.lawful_narrow fun _ => rfl
  have hbegin : Launch.Runs System.narrow.recorded (Recorded fun w w' => w' ⊆ w) { nodes := 3 } ([], []) 0 _ _ :=
    .begin
  have hruns := ((hbegin.resume true).resume true).resume true
  have hnone : ∀ a, ¬ Controller.Busy _ .stop a := fun a ha =>
    nomatch (h₁.interleaved.1.consistent System.lawful_narrow fun _ => rfl).staged.stop_stage ha
  exact ⟨_, h₁, rfl, (hstart 1 (.spawn 2 "no room")).2 true ⟨_, rfl, rfl⟩ hnone rfl, _, _, _, hruns, rfl, rfl,
    hlaunch _ _ _ _ _ _ hruns⟩

end ClusterWatch
