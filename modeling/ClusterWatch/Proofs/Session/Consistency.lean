import ClusterWatch.Proofs.Session.Interleaving

/-!
# What overlapping calls keep

`Consistent` ties together what calls share: the stage, the line for the session, what the session
holds, and the processes that live. At most one start and one stop are in progress; a stop never stands
before a start, so the stop that gets the session finds all that the start has left there; and every
process that lives is held by the session or by the call that has it. Each step of a call keeps all
this (`Consistent.openCall`, `Consistent.step`), provided that no stop asks for the session while a start
has not yet done so.
-/

namespace ClusterWatch

variable {World : Type}

namespace Controller

/-- The session holds the nodes of the configuration, in order, and one drain for each of them. -/
def Complete (c : Controller) : Prop :=
  ∃ handles, c.session.nodes = some handles ∧
    handles.map (·.node) = (List.range c.config.nodes.toNat).map UInt32.ofNat ∧
    c.session.drains.map DrainTask.source = handles

/-- How the stage, the session and the calls in progress agree. -/
structure Staged (c : Controller) : Prop where
  one_start {a b : CallId} : c.Busy .start a → c.Busy .start b → a = b
  one_stop {a b : CallId} : c.Busy .stop a → c.Busy .stop b → a = b
  start_stage {a : CallId} : c.Busy .start a → c.stage = .starting ∨ c.stage = .stopping
  stop_stage {a : CallId} : c.Busy .stop a → c.stage = .stopping
  starting : c.stage = .starting → ∃ a, c.Busy .start a
  stopping : c.stage = .stopping → ∃ a, c.Busy .stop a
  /-- No start waits behind a stop. -/
  order : c.line.Pairwise fun x y => ¬ (c.Busy .stop x ∧ c.Busy .start y)
  /-- While a start has not asked for the session, no stop has. -/
  open_order {a b : CallId} :
    c.phase? a = some .startOpen → c.Busy .stop b → c.phase? b = some .stopOpen
  start_session {a : CallId} : c.Busy .start a → c.session = {}
  idle_session : c.stage = .idle → c.session = {}
  ending_session {a : CallId} {es : List Ending} :
    c.phase? a = some (.stopEnding es) → c.session.nodes = none
  running : c.stage = .running → c.Complete
  launching {a : CallId} {l : Launch} :
    c.phase? a = some (.startLaunching l) → l.Ordered c.config

/-- A process is held by the session or by a call. -/
def Holds (c : Controller) (pid : Pid) : Prop :=
  pid ∈ pidsOf (c.session.nodes.getD []) ∨ ∃ id p, c.phase? id = some p ∧ pid ∈ p.pids

/-- What overlapping calls keep. -/
structure Consistent (s : System World) (c : Controller) (w : World) : Prop where
  lined : c.Lined
  staged : c.Staged
  held {pid : Pid} : s.isAlive w pid = true → c.Holds pid

theorem Lined.retune {c : Controller} (h : c.Lined) (feed : Feed) (running : Bool) :
    { c with feed, running }.Lined := ⟨h.nodup, h.free, h.mem_line, h.inside⟩

theorem Staged.retune {c : Controller} (h : c.Staged) (feed : Feed) (running : Bool) :
    { c with feed, running }.Staged :=
  ⟨h.one_start, h.one_stop, h.start_stage, h.stop_stage, h.starting, h.stopping, h.order, h.open_order,
    h.start_session, h.idle_session, h.ending_session, h.running, h.launching⟩

variable {c : Controller} {id : CallId} {p : Phase}

theorem Busy.kind_eq {a b : CallKind} (ha : c.Busy a id) (hb : c.Busy b id) : a = b := by
  obtain ⟨p, hp, rfl⟩ := ha
  obtain ⟨q, hq, rfl⟩ := hb
  rw [Option.some.inj (hp.symm.trans hq)]

theorem phase?_of_busy_start (h : c.Busy .start id) (ho : id ∉ c.line) (hl : c.Lined) :
    c.phase? id = some .startOpen := by
  obtain ⟨p, hp, hk⟩ := h
  cases p with
  | startOpen => exact hp
  | startQueued | startClearing | startLaunching l =>
    exact absurd ((hl.mem_line id).2 ⟨_, hp, rfl⟩) ho
  | _ => cases hk

/-- When a stop has the session, no start is in progress. -/
theorem Staged.no_start (h : c.Staged) (hl : c.Lined) (hh : c.holder = some id)
    (hid : c.Busy .stop id) (a : CallId) : ¬ c.Busy .start a := by
  intro ha
  have hmem : id ∈ c.line := by
    rw [Lined.line_eq_cons hh]
    exact List.mem_cons_self
  by_cases hline : a ∈ c.line
  · -- A start in the line stands behind the stop that has the session, which the order excludes.
    have horder := h.order
    rw [Lined.line_eq_cons hh] at hline horder
    rcases List.mem_cons.1 hline with rfl | hline
    · cases ha.kind_eq hid
    · exact List.rel_of_pairwise_cons horder hline ⟨hid, ha⟩
  · -- A start that is not in the line is open, and then the stop has not asked for the session.
    have hopen := h.open_order (phase?_of_busy_start ha hline hl) hid
    exact hl.not_mem_line hopen rfl hmem

/-! ## Opening a call -/

theorem Staged.openStart (h : c.Staged) (hnew : c.phase? id = none) (hidle : c.stage = .idle) :
    ({ c with stage := .starting }.addCall id .startOpen).Staged := by
  have hbusy {k a} := busy_addCall (c := { c with stage := .starting }) (p := .startOpen) hnew
    (k := k) (a := a)
  have hphase := phase?_addCall (c := { c with stage := .starting }) .startOpen hnew
  have hstart (a) : ¬ c.Busy .start a := fun ha => by simpa [hidle] using h.start_stage ha
  have hstop (a) : ¬ c.Busy .stop a := fun ha => by simpa [hidle] using h.stop_stage ha
  have hnostop (a) : ¬ ({ c with stage := .starting }.addCall id .startOpen).Busy .stop a := by
    rw [hbusy]
    rintro (⟨-, hk⟩ | ha)
    · cases hk
    · exact hstop a ha
  have honly {a} (ha : ({ c with stage := .starting }.addCall id .startOpen).Busy .start a) : a = id := by
    rcases hbusy.1 ha with ⟨rfl, -⟩ | ha
    · rfl
    · exact absurd ha (hstart a)
  exact {
    one_start := fun ha hb => (honly ha).trans (honly hb).symm
    one_stop := fun ha => absurd ha (hnostop _)
    start_stage := fun _ => .inl rfl
    stop_stage := fun ha => absurd ha (hnostop _)
    starting := fun _ => ⟨id, hbusy.2 (.inl ⟨rfl, rfl⟩)⟩
    stopping := fun hs => by cases hs
    order := List.pairwise_of_forall fun _ _ hxy => hnostop _ hxy.1
    open_order := fun _ hb => absurd hb (hnostop _)
    start_session := fun _ => h.idle_session hidle
    idle_session := fun hs => by cases hs
    ending_session := fun ha => absurd ⟨_, ha, rfl⟩ (hnostop _)
    running := fun hs => by cases hs
    launching := fun ha => by
      rw [hphase] at ha
      split at ha
      · cases ha
      · exact h.launching ha }

theorem Staged.openStop (h : c.Staged) (hnew : c.phase? id = none) (hl : c.Lined)
    (hstage : c.stage = .starting ∨ c.stage = .running) :
    ({ c with stage := .stopping }.addCall id .stopOpen).Staged := by
  have hbusy {k a} := busy_addCall (c := { c with stage := .stopping }) (p := .stopOpen) hnew
    (k := k) (a := a)
  have hphase := phase?_addCall (c := { c with stage := .stopping }) .stopOpen hnew
  have hstop (a) : ¬ c.Busy .stop a := fun ha => by
    rcases hstage with hs | hs <;> simpa [hs] using h.stop_stage ha
  have honly {a} (ha : ({ c with stage := .stopping }.addCall id .stopOpen).Busy .stop a) : a = id := by
    rcases hbusy.1 ha with ⟨rfl, -⟩ | ha
    · rfl
    · exact absurd ha (hstop a)
  have hstart {a} (ha : ({ c with stage := .stopping }.addCall id .stopOpen).Busy .start a) :
      c.Busy .start a := by
    rcases hbusy.1 ha with ⟨-, hk⟩ | ha
    · cases hk
    · exact ha
  have hmem : id ∉ c.line := fun hmem => by
    obtain ⟨q, hq, -⟩ := (hl.mem_line id).1 hmem
    rw [hnew] at hq
    cases hq
  have hold {a r} (ha : ({ c with stage := .stopping }.addCall id .stopOpen).phase? a = some r)
      (hr : r ≠ .stopOpen) : c.phase? a = some r := by
    rw [hphase] at ha
    split at ha
    · exact absurd (Option.some.inj ha).symm hr
    · exact ha
  exact {
    one_start := fun ha hb => h.one_start (hstart ha) (hstart hb)
    one_stop := fun ha hb => (honly ha).trans (honly hb).symm
    start_stage := fun _ => .inr rfl
    stop_stage := fun _ => rfl
    starting := fun hs => by cases hs
    stopping := fun _ => ⟨id, hbusy.2 (.inl ⟨rfl, rfl⟩)⟩
    order := h.order.imp_of_mem fun hx _ _ hxy => hmem (honly hxy.1 ▸ hx)
    open_order := fun _ hb => by rw [hphase, if_pos (honly hb)]
    start_session := fun ha => h.start_session (hstart ha)
    idle_session := fun hs => by cases hs
    ending_session := fun ha => absurd ⟨_, hold ha (by simp), rfl⟩ (hstop _)
    running := fun hs => by cases hs
    launching := fun ha => h.launching (hold ha (by simp)) }

theorem Staged.openQuestion (h : c.Staged) (hnew : c.phase? id = none) (q : Question) :
    (c.addCall id (.asking q)).Staged := by
  have hphase := phase?_addCall (.asking q) hnew
  have hbusy {k a} (hk : k ≠ .question q) :
      (c.addCall id (.asking q)).Busy k a ↔ c.Busy k a := by
    rw [busy_addCall hnew]
    exact or_iff_right fun hx => hk hx.2.symm
  have hstart {a} := hbusy (k := .start) (a := a) (by simp)
  have hstop {a} := hbusy (k := .stop) (a := a) (by simp)
  have hold {a r} (ha : (c.addCall id (.asking q)).phase? a = some r) (hr : r ≠ .asking q) :
      c.phase? a = some r := by
    rw [hphase] at ha
    split at ha
    · exact absurd (Option.some.inj ha).symm hr
    · exact ha
  exact {
    one_start := fun ha hb => h.one_start (hstart.1 ha) (hstart.1 hb)
    one_stop := fun ha hb => h.one_stop (hstop.1 ha) (hstop.1 hb)
    start_stage := fun ha => h.start_stage (hstart.1 ha)
    stop_stage := fun ha => h.stop_stage (hstop.1 ha)
    starting := fun hs => (h.starting hs).imp fun _ => hstart.2
    stopping := fun hs => (h.stopping hs).imp fun _ => hstop.2
    order := h.order.imp fun hne hxy => hne ⟨hstop.1 hxy.1, hstart.1 hxy.2⟩
    open_order := fun {a b} ha hb => by
      have hb' := h.open_order (hold ha (by simp)) (hstop.1 hb)
      rw [hphase, if_neg, hb']
      rintro rfl
      rw [hnew] at hb'
      cases hb'
    start_session := fun ha => h.start_session (hstart.1 ha)
    idle_session := h.idle_session
    ending_session := fun ha => h.ending_session (hold ha (by simp))
    running := h.running
    launching := fun ha => h.launching (hold ha (by simp)) }

theorem Holds.addCall (hnew : c.phase? id = none) {pid : Pid} (h : c.Holds pid) :
    (c.addCall id p).Holds pid := by
  rcases h with h | ⟨a, r, ha, hr⟩
  · exact .inl h
  · refine .inr ⟨a, r, ?_, hr⟩
    rw [phase?_addCall p hnew, if_neg, ha]
    rintro rfl
    rw [hnew] at ha
    cases ha

/-- Opening a call keeps the controller consistent. -/
theorem Consistent.openCall {s : System World} {w : World} (h : Consistent s c w)
    (hnew : c.phase? id = none) (kind : CallKind) : Consistent s (c.openCall id kind).1 w := by
  cases kind with
  | start =>
    rw [Controller.openCall, Controller.openStart, changeStage]
    by_cases hidle : c.stage = .idle
    · rw [if_pos ⟨hidle, rfl⟩]
      have hl : ({ c with stage := .starting } : Controller).Lined :=
        ⟨h.lined.nodup, h.lined.free, h.lined.mem_line, h.lined.inside⟩
      exact ⟨hl.addCall hnew rfl, h.staged.openStart hnew hidle,
        fun ha => Holds.addCall (c := { c with stage := .starting }) hnew (h.held ha)⟩
    · rw [if_neg fun hs => hidle hs.1]
      exact h
  | stop =>
    have hopen (hs : c.stage = .starting ∨ c.stage = .running) :
        Consistent s ({ c with stage := .stopping }.addCall id .stopOpen) w := by
      have hl : ({ c with stage := .stopping } : Controller).Lined :=
        ⟨h.lined.nodup, h.lined.free, h.lined.mem_line, h.lined.inside⟩
      exact ⟨hl.addCall hnew rfl, h.staged.openStop hnew h.lined hs,
        fun ha => Holds.addCall (c := { c with stage := .stopping }) hnew (h.held ha)⟩
    rw [Controller.openCall, Controller.openStop]
    cases hs : c.stage with
    | idle | stopping => exact h
    | starting => exact hopen (.inl hs)
    | running => exact hopen (.inr hs)
  | question q =>
    show Consistent s (c.openQuestion id q).1 w
    rw [Controller.openQuestion]
    split
    · exact h
    · exact ⟨h.lined.addCall hnew rfl, h.staged.openQuestion hnew q, fun ha => (h.held ha).addCall hnew⟩

end Controller

end ClusterWatch
