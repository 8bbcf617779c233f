import ClusterWatch.Proofs.Session.Consistency

/-!
# The moves of calls in their line

A step of a call ends in one of three ways: the call stands in the line (`Staged.join`), it has the
session and waits (`Staged.wait`), or it is through and gives the session away (`Staged.leave`). Each of
them keeps the agreement of the stage, the session and the calls.
-/

namespace ClusterWatch

variable {World : Type}

namespace Controller

variable {c : Controller} {id : CallId} {p : Phase}

/-! ## Asking for the session -/

/-- A call may ask for the session, a stop only if no start is open. -/
theorem Staged.join (h : c.Staged) (hl : c.Lined) (hp : c.phase? id = some p) (ho : p.isOpen = true)
    (horder : Course.InOrder c id) : (c.join id p).Staged := by
  have hbusy {k a} := busy_join hp (k := k) (a := a)
  have hphase := phase?_join hp
  have hstage : (c.join id p).stage = c.stage := by unfold Controller.join; split <;> rfl
  have hsession : (c.join id p).session = c.session := by unfold Controller.join; split <;> rfl
  have hconfig : (c.join id p).config = c.config := by unfold Controller.join; split <;> rfl
  have hold {a r} (ha : (c.join id p).phase? a = some r) (hr : r.isInside = true ∨ r.isOpen = true) :
      c.phase? a = some r := by
    rw [hphase] at ha
    split at ha
    · rw [← Option.some.inj ha] at hr
      simp [isInside_queued ho] at hr
    · exact ha
  exact {
    one_start := fun ha hb => h.one_start (hbusy.1 ha) (hbusy.1 hb)
    one_stop := fun ha hb => h.one_stop (hbusy.1 ha) (hbusy.1 hb)
    start_stage := fun ha => hstage ▸ h.start_stage (hbusy.1 ha)
    stop_stage := fun ha => hstage ▸ h.stop_stage (hbusy.1 ha)
    starting := fun hs => (h.starting (hstage ▸ hs)).imp fun _ => hbusy.2
    stopping := fun hs => (h.stopping (hstage ▸ hs)).imp fun _ => hbusy.2
    order := by
      rw [line_join hl, List.pairwise_append]
      refine ⟨h.order.imp fun hne hxy => hne ⟨hbusy.1 hxy.1, hbusy.1 hxy.2⟩, by simp, ?_⟩
      intro x hx y hy hxy
      rw [List.mem_singleton.1 hy, hbusy, hbusy] at hxy
      -- A start that asks now has been open, and so has every stop.
      have hstart := phase?_of_busy_start hxy.2 (hl.not_mem_line hp ho) hl
      exact hl.not_mem_line (h.open_order hstart hxy.1) rfl hx
    open_order := fun {a b} ha hb => by
      have ha' := hold ha (.inr rfl)
      have hb' := h.open_order ha' (hbusy.1 hb)
      rw [hphase, if_neg, hb']
      rintro rfl
      exact horder hb' a ha'
    start_session := fun ha => hsession ▸ h.start_session (hbusy.1 ha)
    idle_session := fun hs => hsession ▸ h.idle_session (hstage ▸ hs)
    ending_session := fun ha => hsession ▸ h.ending_session (hold ha (.inl rfl))
    running := fun hs => by
      rw [Complete, hsession, hconfig]
      exact h.running (hstage ▸ hs)
    launching := fun ha => hconfig ▸ h.launching (hold ha (.inl rfl)) }

theorem Consistent.join {s : System World} {w : World} (h : Consistent s c w)
    (hp : c.phase? id = some p) (ho : p.isOpen = true) (horder : Course.InOrder c id) :
    Consistent s (c.join id p) w where
  lined := h.lined.join hp ho
  staged := h.staged.join h.lined hp ho horder
  held ha := by
    rcases h.held ha with hs | ⟨a, r, har, hr⟩
    · refine .inl ?_
      rw [Controller.join]
      split <;> exact hs
    · refine .inr ⟨a, r, ?_, hr⟩
      rw [phase?_join hp, if_neg, har]
      rintro rfl
      rw [hp] at har
      have := Phase.isOpen_of_isInside (Phase.isInside_of_mem_pids hr)
      rw [← Option.some.inj har, ho] at this
      cases this

/-! ## Waiting with the session -/

theorem Staged.wait (h : c.Staged) (hl : c.Lined) (hh : c.holder = some id)
    (hp : c.phase? id = some p) {q : Phase} (hq : q.isInside = true) (hkind : q.kind = p.kind)
    (hending : ∀ es, q = .stopEnding es → c.session.nodes = none)
    (hlaunch : ∀ l, q = .startLaunching l → l.Ordered c.config) : (c.setPhase id q).Staged := by
  have hbusy {k a} := busy_setPhase hp hkind (k := k) (a := a)
  have hphase := phase?_setPhase q hp
  exact {
    one_start := fun ha hb => h.one_start (hbusy.1 ha) (hbusy.1 hb)
    one_stop := fun ha hb => h.one_stop (hbusy.1 ha) (hbusy.1 hb)
    start_stage := fun ha => h.start_stage (hbusy.1 ha)
    stop_stage := fun ha => h.stop_stage (hbusy.1 ha)
    starting := fun hs => (h.starting hs).imp fun _ => hbusy.2
    stopping := fun hs => (h.stopping hs).imp fun _ => hbusy.2
    order := h.order.imp fun hne hxy => hne ⟨hbusy.1 hxy.1, hbusy.1 hxy.2⟩
    open_order := fun {a b} ha hb => by
      rw [hphase] at ha
      split at ha
      · rw [Option.some.inj ha] at hq
        cases hq
      · have hb' := h.open_order ha (hbusy.1 hb)
        rw [hphase, if_neg, hb']
        rintro rfl
        -- The call in question stands in the line, so it is not open.
        refine hl.not_mem_line hb' rfl ?_
        rw [Lined.line_eq_cons hh]
        exact List.mem_cons_self
    start_session := fun ha => h.start_session (hbusy.1 ha)
    idle_session := h.idle_session
    ending_session := fun ha => by
      rw [hphase] at ha
      split at ha
      · exact hending _ (Option.some.inj ha)
      · exact h.ending_session ha
    running := h.running
    launching := fun ha => by
      rw [hphase] at ha
      split at ha
      · exact hlaunch _ (Option.some.inj ha)
      · exact h.launching ha }

/-- The stop that has the session takes the nodes out of it. -/
theorem Staged.takeNodes (h : c.Staged) (hl : c.Lined) (hh : c.holder = some id)
    (hid : c.Busy .stop id) :
    { c with session := { c.session with nodes := none } }.Staged := by
  have hstart := h.no_start hl hh hid
  have hstage := h.stop_stage hid
  exact {
    one_start := h.one_start
    one_stop := h.one_stop
    start_stage := h.start_stage
    stop_stage := h.stop_stage
    starting := h.starting
    stopping := h.stopping
    order := h.order
    open_order := h.open_order
    start_session := fun ha => absurd ha (hstart _)
    idle_session := fun hs => by simp [hstage] at hs
    ending_session := fun _ => rfl
    running := fun hs => by simp [hstage] at hs
    launching := h.launching }

/-! ## Giving the session away -/

/-- The call that has the session is through, with a new stage and a new session. What has to hold of
them is said of the other calls. -/
theorem Staged.leave (h : c.Staged) (hl : c.Lined) (hh : c.holder = some id) (stage : Stage)
    (session : Session)
    (hstart : ∀ a, a ≠ id → c.Busy .start a →
      (stage = .starting ∨ stage = .stopping) ∧ session = {})
    (hstop : ∀ a, a ≠ id → c.Busy .stop a → stage = .stopping)
    (hstarting : stage = .starting → ∃ a, a ≠ id ∧ c.Busy .start a)
    (hstopping : stage = .stopping → ∃ a, a ≠ id ∧ c.Busy .stop a)
    (hidle : stage = .idle → session = {})
    (hrunning : stage = .running → { c with session }.Complete) :
    ((({ c with stage, session } : Controller).dropCall id).releaseSession).Staged := by
  have hbusy {k a} := busy_leave (c := { c with stage, session }) id (k := k) (a := a)
  have hold {a r} (ha : (({ c with stage, session } : Controller).dropCall id).phase? a = some r) :
      a ≠ id ∧ c.phase? a = some r := by
    rw [phase?_dropCall] at ha
    split at ha
    · cases ha
    · exact ⟨‹_›, ha⟩
  exact {
    one_start := fun ha hb => h.one_start (hbusy.1 ha).2 (hbusy.1 hb).2
    one_stop := fun ha hb => h.one_stop (hbusy.1 ha).2 (hbusy.1 hb).2
    start_stage := fun ha => (hstart _ (hbusy.1 ha).1 (hbusy.1 ha).2).1
    stop_stage := fun ha => hstop _ (hbusy.1 ha).1 (hbusy.1 ha).2
    starting := fun hs => (hstarting hs).imp fun _ => hbusy.2
    stopping := fun hs => (hstopping hs).imp fun _ => hbusy.2
    order := by
      have hl' : ({ c with stage, session } : Controller).Lined :=
        ⟨hl.nodup, hl.free, hl.mem_line, hl.inside⟩
      rw [line_leave hl']
      refine (h.order.sublist (List.tail_sublist _)).imp fun hne hxy => hne ?_
      exact ⟨(hbusy.1 hxy.1).2, (hbusy.1 hxy.2).2⟩
    open_order := fun {a b} ha hb => by
      have hb' := h.open_order (hold ha).2 (hbusy.1 hb).2
      rw [phase?_releaseSession, phase?_dropCall, if_neg (hbusy.1 hb).1]
      exact hb'
    start_session := fun ha => (hstart _ (hbusy.1 ha).1 (hbusy.1 ha).2).2
    idle_session := hidle
    ending_session := fun ha => absurd (hl.eq_holder hh (hold ha).2 rfl) (hold ha).1
    running := hrunning
    launching := fun ha => h.launching (hold ha).2 }

end Controller

end ClusterWatch
