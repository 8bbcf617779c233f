import ClusterWatch.Proofs.Session.Steps

/-!
# Overlapping starts and stops

When no call is interrupted between its waits, every call that is opened has asked for the session before
another one begins, so no stop overtakes a start (`Course.Reachable.interleaved`). The controller then
stays consistent, and starts and stops can overlap in any number and order (`Course.Reachable.orderly`):
once none of them is in progress, the session runs with all its nodes or nothing is left of it.

When calls are interrupted also between their opening and their request for the session, that a stop takes
the nodes of a start it has aborted depends on their order in the line (`Course.Interleaved.leftover_taken`).
A stop that overtakes the start leaves the nodes alive in an idle controller
(`Course.overtaken_start_leaves_nodes`).
-/

namespace ClusterWatch

open Controller

variable {World : Type} {s : System World} {passes : World → World → Prop} {config : Config} {w₀ : World}
  {x : Course World}

namespace Course

/-- Whatever the order of the steps, the controller is consistent if no stop overtakes a start. -/
theorem Interleaved.consistent (laws : s.Lawful passes) (hnew : ∀ pid, s.isAlive w₀ pid = false)
    (hx : Interleaved s passes InOrder config w₀ x) : Consistent s x.controller x.world := by
  induction hx with
  | fresh => exact Consistent.fresh config hnew
  | opens id kind hx h ih => exact ih.openCall h kind
  | resumes id timeOver hx h ih => exact (ih.step laws h timeOver).consistent
  | elapses hx h ih => exact ih.elapses laws h

/-- Every call has asked for the session. -/
def Asked (x : Course World) : Prop :=
  ∀ id p, x.controller.phase? id = some p → p.isOpen = false

theorem Asked.inOrder (h : x.Asked) (id : CallId) : InOrder x.controller id := by
  intro hid
  cases h id _ hid

theorem Asked.resume (s : System World) {id : CallId} (timeOver : Bool)
    (h : ∀ a p, a ≠ id → x.controller.phase? a = some p → p.isOpen = false) :
    (x.resume s id timeOver).1.Asked := by
  have hgoes := goesOn_step s x.controller id timeOver x.world
  intro a p hp
  by_cases ha : a = id
  · rw [ha] at hp
    exact hgoes.asked p hp
  · exact h a p ha ((hgoes.others a ha).symm.trans hp)

/-- A call that is not interrupted is answered as it is opened, or it is in progress and goes on. -/
theorem call_cases (s : System World) {id : CallId} (h : x.controller.phase? id = none) (kind : CallKind) :
    (∃ answer, x.openCall id kind = (x, some answer) ∧ x.call s id kind = (x, some answer)) ∨
      ∃ p, p.isOpen = true ∧ p.kind = kind ∧
        (∀ a, (x.openCall id kind).1.controller.phase? a =
          if a = id then some p else x.controller.phase? a) ∧
        x.call s id kind = (x.openCall id kind).1.resume s id false := by
  rcases openCall_cases x.controller id kind with ⟨answer, heq⟩ | ⟨stage, p, ho, hkind, heq⟩
  · have hsame : x.openCall id kind = (x, some answer) := by
      simp [Course.openCall, heq, goOn]
    exact .inl ⟨answer, hsame, by unfold Course.call; rw [hsame]⟩
  · refine .inr ⟨p, ho, hkind, fun a => ?_, ?_⟩
    · show (x.controller.openCall id kind).1.phase? a = _
      rw [heq]
      exact phase?_addCall (c := { x.controller with stage }) p h a
    · have hnone : (x.openCall id kind).2 = none := congrArg Prod.snd heq
      rw [Course.call]
      generalize x.openCall id kind = opened at hnone ⊢
      obtain ⟨y, answer⟩ := opened
      cases hnone
      rfl

/-- A call that is opened when every other one has asked for the session may ask for it. -/
theorem Asked.inOrder_openCall {id : CallId} {kind : CallKind} {p : Phase} (h : x.Asked)
    (hphase : ∀ a, (x.openCall id kind).1.controller.phase? a =
      if a = id then some p else x.controller.phase? a) :
    InOrder (x.openCall id kind).1.controller id := by
  intro hid a ha
  by_cases haid : a = id
  · rw [haid, hid] at ha
    cases ha
  · rw [hphase, if_neg haid] at ha
    cases h a _ ha

/-- Calls that are not interrupted between their waits interleave so that no stop overtakes a start. -/
theorem Reachable.interleaved (hx : Reachable s passes config w₀ x) :
    Interleaved s passes InOrder config w₀ x ∧ x.Asked := by
  induction hx with
  | fresh =>
    refine ⟨.fresh, fun id p hp => ?_⟩
    simp [phase?] at hp
  | @calls x id kind hx h ih =>
    rcases call_cases s h kind with ⟨answer, -, hcall⟩ | ⟨p, -, -, hphase, hcall⟩
    · rw [hcall]
      exact ih
    · rw [hcall]
      refine ⟨(ih.1.opens id kind h).resumes id false (ih.2.inOrder_openCall hphase),
        Asked.resume s false fun a q ha hq => ?_⟩
      rw [hphase, if_neg ha] at hq
      exact ih.2 a q hq
  | resumes id timeOver hx ih =>
    exact ⟨ih.1.resumes id timeOver (ih.2.inOrder id), Asked.resume s timeOver fun a p _ => ih.2 a p⟩
  | elapses hx h ih =>
    refine ⟨ih.1.elapses h, ?_⟩
    cases h with
    | time => exact ih.2
    | feed => exact ih.2

/-- What holds whenever calls overlap. -/
structure Orderly (s : System World) (x : Course World) : Prop where
  /-- The stage has changed only as the table allows. -/
  changes : x.Allowed
  one_start {a b : CallId} : x.controller.Busy .start a → x.controller.Busy .start b → a = b
  one_stop {a b : CallId} : x.controller.Busy .stop a → x.controller.Busy .stop b → a = b
  /-- Without a start or a stop in progress, nothing is left of any session, or one runs and has all its
  nodes and drains. -/
  settled : (∀ a, ¬ x.controller.Busy .start a ∧ ¬ x.controller.Busy .stop a) →
    Cleared s x.controller x.world ∨ x.controller.stage = .running ∧ x.controller.Complete
  /-- A stop in progress is through when nothing is left of the session. -/
  stopped (id : CallId) (timeOver : Bool) : x.controller.Busy .stop id →
    (x.resume s id timeOver).2.isSome = true →
      Cleared s (x.resume s id timeOver).1.controller (x.resume s id timeOver).1.world
  /-- So is a stop that finds a start in progress, or a session that runs, and does not have to wait. -/
  stopped_at_once (id : CallId) : x.controller.phase? id = none →
    x.controller.stage = .starting ∨ x.controller.stage = .running →
    (x.call s id .stop).2.isSome = true →
      Cleared s (x.call s id .stop).1.controller (x.call s id .stop).1.world

/-- Without a start or a stop in progress, the controller rests or a whole session runs. -/
theorem settled_of_consistent {c : Controller} {w : World} (h : Consistent s c w)
    (hnone : ∀ a, ¬ c.Busy .start a ∧ ¬ c.Busy .stop a) :
    Cleared s c w ∨ c.stage = .running ∧ c.Complete := by
  cases hs : c.stage with
  | idle =>
    have hempty := h.staged.idle_session hs
    refine .inl ⟨hs, hempty, fun pid => ?_⟩
    rw [← Bool.not_eq_true]
    intro ha
    rcases h.held ha with hpid | ⟨a, p, hp, hpid⟩
    · rw [hempty] at hpid
      exact List.not_mem_nil hpid
    · cases p with
      | startLaunching l => exact (hnone a).1 ⟨_, hp, rfl⟩
      | stopEnding es => exact (hnone a).2 ⟨_, hp, rfl⟩
      | _ => exact List.not_mem_nil hpid
  | starting =>
    obtain ⟨a, ha⟩ := h.staged.starting hs
    exact absurd ha (hnone a).1
  | running => exact .inr ⟨rfl, h.staged.running hs⟩
  | stopping =>
    obtain ⟨a, ha⟩ := h.staged.stopping hs
    exact absurd ha (hnone a).2

/-- Starts and stops that overlap, in any number and order, leave the controller in order. -/
theorem Reachable.orderly (laws : s.Lawful passes) (hnew : ∀ pid, s.isAlive w₀ pid = false)
    (hx : Reachable s passes config w₀ x) : Orderly s x := by
  obtain ⟨hinter, hasked⟩ := hx.interleaved
  have hcons := hinter.consistent laws hnew
  exact {
    changes := hinter.allowed
    one_start := hcons.staged.one_start
    one_stop := hcons.staged.one_stop
    settled := settled_of_consistent hcons
    stopped := fun id timeOver => (hcons.step laws (hasked.inOrder id) timeOver).cleared
    stopped_at_once := fun id h hstage ha => by
      rcases call_cases s h .stop with ⟨answer, hopen, -⟩ | ⟨p, -, hkind, hphase, hcall⟩
      · -- Only a stop that finds nothing to do is answered as it is opened.
        have hanswer : (x.controller.openStop id).2 = some answer := congrArg Prod.snd hopen
        rw [Controller.openStop] at hanswer
        rcases hstage with hs | hs <;> simp [hs] at hanswer
      · rw [hcall] at ha ⊢
        have hstep := (hcons.openCall h .stop).step laws (hasked.inOrder_openCall hphase) false
        exact hstep.cleared ⟨p, (hphase id).trans (if_pos rfl), hkind⟩ ha }

/-- A stop that comes while the first node settles: the start goes on to its end, and then the stop kills
the two nodes. -/
theorem orderly_stop_in_launch : ∃ x, Reachable System.stubborn (fun w w' => w' ⊆ w) {} [] x ∧
    x.changes = [(.stopping, .idle), (.starting, .stopping), (.idle, .starting)] ∧ x.world = [] ∧
    Orderly System.stubborn x := by
  have h₀ : Reachable System.stubborn (fun w w' => w' ⊆ w) {} [] ⟨{ config := {} }, [], []⟩ := .fresh
  have h₁ := (h₀.calls 1 .start rfl).calls 2 .stop rfl
  have h₂ := (h₁.resumes 1 true).resumes 1 true
  have h₃ := (h₂.resumes 2 false).resumes 2 true
  exact ⟨_, h₃, by decide, by decide, h₃.orderly System.lawful_stubborn fun _ => rfl⟩

/-! ## Stops that overtake starts -/

/-- As long as no stop overtakes a start, nodes in the session belong to a session that runs, or a stop
that still waits for the session is going to take them; and no node lives when the controller is idle. -/
theorem Interleaved.leftover_taken (laws : s.Lawful passes) (hnew : ∀ pid, s.isAlive w₀ pid = false)
    (hx : Interleaved s passes InOrder config w₀ x) :
    (x.controller.session.nodes ≠ none → x.controller.stage ≠ .running →
      x.controller.stage = .stopping ∧
        ∃ a, x.controller.phase? a = some .stopOpen ∨ x.controller.phase? a = some .stopQueued) ∧
    (x.controller.stage = .idle → Cleared s x.controller x.world) := by
  have hcons := hx.consistent laws hnew
  constructor
  · intro hnodes hne
    cases hs : x.controller.stage with
    | idle => exact absurd (by rw [hcons.staged.idle_session hs]) hnodes
    | starting =>
      obtain ⟨a, ha⟩ := hcons.staged.starting hs
      exact absurd (by rw [hcons.staged.start_session ha]) hnodes
    | running => exact absurd hs hne
    | stopping =>
      obtain ⟨a, p, hp, hkind⟩ := hcons.staged.stopping hs
      refine ⟨rfl, a, ?_⟩
      cases p with
      | stopOpen => exact .inl hp
      | stopQueued => exact .inr hp
      | stopEnding es => exact absurd (hcons.staged.ending_session hp) hnodes
      | _ => cases hkind
  · intro hs
    refine (settled_of_consistent hcons fun a => ⟨fun ha => ?_, fun ha => ?_⟩).resolve_right ?_
    · simpa [hs] using hcons.staged.start_stage ha
    · simpa [hs] using hcons.staged.stop_stage ha
    · simp [hs]

/-- A stop that finds a start in its launch takes the nodes of it. -/
theorem leftover_taken_after_launch :
    ∃ x, Interleaved System.stubborn (fun w w' => w' ⊆ w) InOrder {} [] x ∧
      x.controller.session.nodes = some [⟨0, 1⟩, ⟨1, 2⟩] ∧
      (x.controller.stage = .stopping ∧
        ∃ a, x.controller.phase? a = some .stopOpen ∨ x.controller.phase? a = some .stopQueued) := by
  have h₀ : Reachable System.stubborn (fun w w' => w' ⊆ w) {} [] ⟨{ config := {} }, [], []⟩ := .fresh
  have h₁ := (h₀.calls 1 .start rfl).calls 2 .stop rfl
  have h := ((h₁.resumes 1 true).resumes 1 true).interleaved.1
  exact ⟨_, h, by decide,
    (h.leftover_taken System.lawful_stubborn fun _ => rfl).1 (by decide) (by decide)⟩

/-- A stop that asks for the session before the start does that it has aborted: the controller is idle
without a call in progress, and the nodes of the start live. -/
theorem overtaken_start_leaves_nodes :
    ∃ x, Interleaved System.stubborn (fun w w' => w' ⊆ w) (fun _ _ => True) {} [] x ∧
      x.controller.stage = .idle ∧ x.controller.calls = [] ∧
      x.controller.session.nodes = some [⟨0, 1⟩, ⟨1, 2⟩] ∧
      System.stubborn.isAlive x.world 1 = true ∧ System.stubborn.isAlive x.world 2 = true := by
  have h₀ : Interleaved System.stubborn (fun w w' => w' ⊆ w) (fun _ _ => True) {} []
    ⟨{ config := {} }, [], []⟩ := .fresh
  have h₁ := (h₀.opens 1 .start rfl).opens 2 .stop rfl
  have h₂ := (h₁.resumes 2 false trivial).resumes 1 false trivial
  have h₃ := (h₂.resumes 1 true trivial).resumes 1 true trivial
  exact ⟨_, h₃, by decide, by decide, by decide, by decide, by decide⟩

end Course

end ClusterWatch
