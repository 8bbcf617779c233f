import ClusterWatch.Proofs.Follow.Session

/-!
# A watch is a follower

A watch that nobody interrupts takes its steps one at a time, with a tick of the host between them. Each of them, and
each tick, is some steps of the drains, the world and the follower, so a watch sees the whole session, as every
follower does (`Rehearsal.exists_run_follow`).
-/

namespace ClusterWatch

open Text Time

namespace Rehearsal

theorem waitFor_of_true {condition : Rehearsal → Bool} {r : Rehearsal} (h : condition r = true) (most : Nat) :
    waitFor condition most r = (true, r) := by
  cases most <;> simp [waitFor, h]

theorem begin_question {r : Rehearsal} (h : r.controller.Free) (q : Question) :
    r.begin (·.openQuestion · q) = (r.nextCall, { r with
      nextCall := r.nextCall + 1
      deadlines := r.deadlines.filter (·.1 ≠ r.nextCall)
      answers := (r.nextCall, r.controller.reply Host.system r.host q) :: r.answers }) := by
  obtain ⟨⟨config, stage, running, feed, session, holder, queue, calls⟩, host, deadlines, answers, next⟩ := r
  obtain ⟨rfl, rfl, rfl, rfl⟩ := h
  cases q <;>
    simp [begin, stepCall, Controller.openQuestion, Controller.addCall, Controller.step, Controller.phase?,
      Controller.request, Controller.enter, Controller.finish, Controller.dropCall, Controller.releaseSession,
      Controller.reply, Controller.pause?]

/-- A question is answered at once when nobody has the session. -/
theorem call_question {r : Rehearsal} (h : r.controller.Free) (q : Question) :
    (r.call (·.openQuestion · q)).1 = r.controller.reply Host.system r.host q ∧
      (r.call (·.openQuestion · q)).2.controller = r.controller ∧ (r.call (·.openQuestion · q)).2.host = r.host := by
  rw [call, begin_question h]
  dsimp only
  rw [finish, waitFor_of_true] <;> simp [answer?]

theorem poke_of_nil {r : Rehearsal} (h : r.controller.calls = []) : r.poke = r := by
  rw [poke, h]
  simp [settle, h]

/-- A drain has been served: the drains before it and itself, what they feed, and the host. -/
def served (running : Bool) (before : List DrainTask × Feed × Host) (t : DrainTask) : List DrainTask × Feed × Host :=
  let (standard, errors, host) := Host.takeOutput before.2.2 t.pid
  let (t', feed) := t.receive before.2.1 running (.ofMicroseconds host.now) standard errors
    (Host.isClosed before.2.2 t.pid)
  (before.1 ++ [t'], feed, host)

end Rehearsal

namespace Vigil

variable {v : Vigil Host} {c : Controller} {host : Host} {f : Follower} {waiting : Option CallId}

/-- How a vigil stands. -/
structure Stands (c : Controller) (host : Host) (f : Follower) (waiting : Option CallId)
    (due : Nat → List DrainAction) (v : Vigil Host) : Prop where
  controller : v.course.controller = c
  world : v.course.world = host
  follower : v.follower = f
  waiting : v.waiting = waiting
  due : v.due = due

/-- No drain has anything due. -/
def noneDue : Nat → List DrainAction := fun _ => []

/-- The controller with drains that have come further, and with what they feed. -/
abbrev drained (c : Controller) (feed : Feed) (drains : List DrainTask) : Controller :=
  { c with feed, session := { c.session with drains } }

theorem drained_set_self {place : Nat} {t : DrainTask} (hplace : c.session.drains[place]? = some t) :
    drained c c.feed (c.session.drains.set place t) = c := by
  obtain ⟨hlt, rfl⟩ := List.getElem?_eq_some_iff.1 hplace
  rw [drained, List.set_getElem_self hlt]

theorem run_append (s : System Host) (v : Vigil Host) (first second : List (VigilStep Host)) :
    v.run s (first ++ second) = (v.run s first).run s second := List.foldl_append

namespace Stands

theorem time {due : Nat → List DrainAction} (h : Stands c host f waiting due v) (later : Host) :
    Stands c later f waiting due (v.step Host.system (.time later)) where
  controller := h.controller
  world := rfl
  follower := h.follower
  waiting := h.waiting
  due := h.due

theorem acts {place : Nat} {actions : List DrainAction}
    (h : Stands c host f waiting (Function.update noneDue place actions) v) :
    Stands { c with feed := actions.foldl .perform c.feed } host f waiting noneDue
      (v.run Host.system (.replicate actions.length (.act place))) := by
  induction actions generalizing v c with
  | nil => exact { h with due := h.due.trans (Function.update_eq_self place _) }
  | cons action actions ih =>
    obtain ⟨rfl, rfl, rfl, rfl, hdue⟩ := h
    have hplace : v.due place = action :: actions := by rw [hdue, Function.update_self]
    have hrest : Function.update v.due place actions = Function.update noneDue place actions := by
      rw [hdue, Function.update_idem]
    have hact : Stands { v.course.controller with feed := v.course.controller.feed.perform action } v.course.world
        v.follower v.waiting (Function.update noneDue place actions) (v.step Host.system (.act place)) := by
      rw [Vigil.step, act, hplace]
      exact ⟨rfl, rfl, rfl, rfl, hrest⟩
    exact ih hact

theorem read (h : Stands c host f waiting noneDue v) {place : Nat} {t : DrainTask}
    (hplace : c.session.drains[place]? = some t) (hopen : t.isFinished = false) (item : PipeItem) (time : Instant) :
    Stands (drained c c.feed
        (c.session.drains.set place { t with drain := (t.drain.step ⟨item, c.running, time⟩).1 }))
      host f waiting (Function.update noneDue place (t.drain.step ⟨item, c.running, time⟩).2)
      (v.step Host.system (.read place item time)) := by
  obtain ⟨rfl, rfl, rfl, rfl, hdue⟩ := h
  have hnone : v.due place = [] := by rw [hdue, noneDue]
  rw [Vigil.step, Vigil.read, drains, hplace]
  dsimp only
  rw [if_pos ⟨hnone, hopen⟩, hdue]
  exact ⟨rfl, rfl, rfl, rfl, rfl⟩

theorem output (h : Stands c host f waiting noneDue v) {place : Nat} {t : DrainTask}
    (hplace : c.session.drains[place]? = some t) (hopen : t.isFinished = false) (output : NodeOutput) :
    Stands (drained c c.feed (c.session.drains.set place { t with output })) host f waiting noneDue
      (v.step Host.system (.output place output)) := by
  obtain ⟨rfl, rfl, rfl, rfl, hdue⟩ := h
  have hnone : v.due place = [] := by rw [hdue, noneDue]
  rw [Vigil.step, Vigil.output, drains, hplace]
  dsimp only
  rw [if_pos ⟨hnone, hopen⟩]
  exact ⟨rfl, rfl, rfl, rfl, hdue⟩

/-- The drain in a place takes items and performs what is due after each. -/
theorem items (h : Stands c host f waiting noneDue v) {place : Nat} {t : DrainTask}
    (hplace : c.session.drains[place]? = some t) (hopen : t.isFinished = false) (time : Instant)
    (items : List PipeItem) :
    ∃ steps, Stands (drained c (t.drain.run c.feed (items.map fun item => ⟨item, c.running, time⟩)).2
        (c.session.drains.set place
          { t with drain := (t.drain.run c.feed (items.map fun item => ⟨item, c.running, time⟩)).1 }))
      host f waiting noneDue (v.run Host.system steps) := by
  induction items generalizing v c t with
  | nil =>
    refine ⟨[], ?_⟩
    show Stands (drained c c.feed (c.session.drains.set place t)) host f waiting noneDue v
    rw [drained_set_self hplace]
    exact h
  | cons item items ih =>
    have hacts := (h.read hplace hopen item time).acts
    have hself := List.getElem?_set_self (a := { t with drain := (t.drain.step ⟨item, c.running, time⟩).1 })
      (List.getElem?_eq_some_iff.1 hplace).1
    obtain ⟨steps, hsteps⟩ := ih hacts hself hopen
    rw [drained, List.set_set] at hsteps
    refine ⟨.read place item time ::
      .replicate (t.drain.step ⟨item, c.running, time⟩).2.length (.act place) ++ steps, ?_⟩
    rw [run_append]
    exact hsteps

/-- A drain in a place takes what has come of its output. -/
theorem receive (h : Stands c host f waiting noneDue v) {place : Nat} {t : DrainTask}
    (hplace : c.session.drains[place]? = some t) (time : Instant) (standard errors : List UInt8) (atEnd : Bool) :
    ∃ steps, Stands (drained c (t.receive c.feed c.running time standard errors atEnd).2
        (c.session.drains.set place (t.receive c.feed c.running time standard errors atEnd).1))
      host f waiting noneDue (v.run Host.system steps) := by
  cases hopen : t.isFinished with
  | true =>
    refine ⟨[], ?_⟩
    rw [DrainTask.receive, if_pos hopen, drained_set_self hplace]
    exact h
  | false =>
    obtain ⟨steps, hsteps⟩ := h.items hplace hopen time (t.output.receive standard errors atEnd).1
    have hself := List.getElem?_set_self (a := { t with drain := (t.drain.run c.feed
      ((t.output.receive standard errors atEnd).1.map fun item => ⟨item, c.running, time⟩)).1 })
      (List.getElem?_eq_some_iff.1 hplace).1
    have houtput := hsteps.output hself hopen (t.output.receive standard errors atEnd).2
    rw [drained, List.set_set] at houtput
    refine ⟨steps ++ [.output place (t.output.receive standard errors atEnd).2], ?_⟩
    rw [run_append, DrainTask.receive, hopen]
    exact houtput

/-- The drains take in turn what has come of their outputs. -/
theorem serve (first rest : List DrainTask) (h : Stands c host f waiting noneDue v)
    (hdrains : c.session.drains = first ++ rest) :
    ∃ steps, Stands
      (drained c (rest.foldl (Rehearsal.served c.running) (first, c.feed, host)).2.1
        (rest.foldl (Rehearsal.served c.running) (first, c.feed, host)).1)
      (rest.foldl (Rehearsal.served c.running) (first, c.feed, host)).2.2 f waiting noneDue
      (v.run Host.system steps) := by
  induction rest generalizing v c host first with
  | nil =>
    refine ⟨[], ?_⟩
    rw [List.append_nil] at hdrains
    show Stands (drained c c.feed first) host f waiting noneDue v
    rw [← hdrains]
    exact h
  | cons t rest ih =>
    have hplace : c.session.drains[first.length]? = some t := by simp [hdrains]
    obtain ⟨steps, hsteps⟩ := (h.time (Host.takeOutput host t.pid).2.2).receive hplace
      (.ofMicroseconds (Host.takeOutput host t.pid).2.2.now) (Host.takeOutput host t.pid).1
      (Host.takeOutput host t.pid).2.1 (Host.isClosed host t.pid)
    rw [hdrains, List.set_append_right _ _ (Nat.le_refl _), Nat.sub_self, List.set_cons_zero,
      List.append_cons] at hsteps
    obtain ⟨more, hmore⟩ := ih _ hsteps rfl
    refine ⟨.time (Host.takeOutput host t.pid).2.2 :: steps ++ more, ?_⟩
    rw [run_append]
    exact hmore

theorem tick {r : Rehearsal} (hcalls : r.controller.calls = [])
    (h : Stands r.controller r.host f waiting noneDue v) :
    ∃ steps, Stands r.tick.controller r.tick.host f waiting noneDue (v.run Host.system steps) := by
  -- To serve the drains of a rehearsal is to serve all of them, from the first.
  obtain ⟨steps, hsteps⟩ := h.serve [] r.controller.session.drains rfl
  rw [Rehearsal.tick, Rehearsal.poke_of_nil (r := { r.serve with host := _ }) hcalls]
  refine ⟨steps ++ [.time (r.serve.host.advance (r.serve.host.now + millisecond))], ?_⟩
  rw [run_append]
  exact hsteps.time _

theorem setBus {due : Nat → List DrainAction} (h : Stands c host f waiting due v) (bus : Bus) :
    Stands { c with feed := { c.feed with bus } } host f waiting due (v.setBus bus) := by
  obtain ⟨rfl, rfl, rfl, rfl, rfl⟩ := h
  exact ⟨rfl, rfl, rfl, rfl, rfl⟩

theorem tell {due : Nat → List DrainAction} (h : Stands c host f waiting due v) (input : FollowInput) :
    Stands c host (f.step input) waiting due (v.tell input) :=
  { h with follower := congrArg (Follower.step · input) h.follower }

theorem await_answer (h : Stands c host f waiting noneDue v) (id : CallId) (bus : Bus) (answer : BusAnswer) :
    Stands { c with feed := { c.feed with bus } } host (f.step (.received (Watch.eventOf answer))) none noneDue
      (v.await id (bus, some answer)) :=
  { (h.setBus bus).tell (.received (Watch.eventOf answer)) with waiting := rfl }

theorem await_none (h : Stands c host f waiting noneDue v) (id : CallId) (bus : Bus) :
    Stands { c with feed := { c.feed with bus } } host f (some id) noneDue (v.await id (bus, none)) :=
  { h.setBus bus with waiting := rfl }

end Stands

end Vigil

namespace Watch

open Vigil

variable {settings : WatchSettings} {w : Watch} {r : Rehearsal} {v : Vigil Host}

/-- A watch is where a vigil is, and is not to be interrupted. -/
structure Keeps (w : Watch) (r : Rehearsal) (v : Vigil Host) : Prop where
  stands : Stands r.controller r.host w.follower (w.waiting.map (·.1)) noneDue v
  interruptAt : w.interruptAt = none

theorem keeps_tell {input : FollowInput} (hnever : settings.interruptAfter = none) (hat : w.interruptAt = none)
    (h : Stands r.controller r.host (w.follower.step input) none noneDue v) (now : Nat) :
    Keeps (w.tell settings now input) r v where
  stands := h
  interruptAt := by simp [tell, hat, hnever]

namespace Keeps

/-- The watch begins to wait for an event. -/
theorem begins (h : Keeps w r v) (hnever : settings.interruptAfter = none)
    (hphase : w.follower.phase = .receiving) (hwaiting : w.waiting = none) :
    Keeps (w.step settings r).1 (w.step settings r).2 (v.follow Host.system r.nextCall) := by
  have hbus : v.bus = r.bus := congrArg (·.feed.bus) h.stands.controller
  have hfollow : v.follow Host.system r.nextCall = v.await r.nextCall (r.bus.begin r.nextCall .receive) := by
    have hnone : v.waiting = none := h.stands.waiting.trans (by rw [hwaiting]; rfl)
    rw [Vigil.follow, h.stands.follower, hphase, hnone, hbus]
  rw [hfollow, Watch.step, hphase, hwaiting, Rehearsal.beginBus]
  obtain ⟨bus, _ | answer⟩ := r.bus.begin r.nextCall .receive
  · exact ⟨h.stands.await_none _ bus, h.interruptAt⟩
  · exact keeps_tell (r := { r.withBus bus with nextCall := r.nextCall + 1 }) hnever h.interruptAt
      (h.stands.await_answer _ bus answer) _

/-- The watch goes on to wait for an event. -/
theorem waits (h : Keeps w r v) (hnever : settings.interruptAfter = none) (hcalls : r.controller.calls = [])
    (hphase : w.follower.phase = .receiving) {id : CallId} {deadline : Nat}
    (hwaiting : w.waiting = some (id, deadline)) :
    ∃ steps, Keeps (w.step settings r).1 (w.step settings r).2 (v.run Host.system steps) := by
  obtain ⟨steps, hsteps⟩ := h.stands.tick hcalls
  have hcall : w.waiting.map (·.1) = some id := by rw [hwaiting]; rfl
  rw [hcall] at hsteps
  have hwatch : w.step settings r = w.await settings id deadline r := by rw [Watch.step, hphase, hwaiting]
  obtain ⟨more, hfollow⟩ : ∃ more, v.run Host.system more =
      (v.run Host.system steps).await id (r.tick.bus.resume id) := by
    refine ⟨steps ++ [.follow id], ?_⟩
    rw [run_append]
    show (v.run Host.system steps).follow Host.system id = _
    have hbus : (v.run Host.system steps).bus = r.tick.bus := congrArg (·.feed.bus) hsteps.controller
    rw [Vigil.follow, hsteps.follower, hphase, hsteps.waiting, hbus]
  rw [hwatch, Watch.await, h.interruptAt]
  simp only [Option.any_none, Bool.false_eq_true, if_false]
  generalize r.tick.bus.resume id = resumed at hfollow
  obtain ⟨bus, _ | answer⟩ := resumed
  · have hstands := hsteps.await_none id bus
    rw [← hfollow] at hstands
    dsimp only
    split
    · exact ⟨more, ⟨hcall ▸ hstands, h.interruptAt⟩⟩
    · have hbus : (v.run Host.system more).bus = bus := congrArg (·.feed.bus) hstands.controller
      refine ⟨more ++ [.expire], ?_⟩
      rw [run_append]
      show Keeps _ _ ((v.run Host.system more).step Host.system .expire)
      rw [Vigil.step, hstands.follower, hphase, hstands.waiting, hbus]
      exact keeps_tell (r := r.tick.withBus (bus.expire id).1) hnever h.interruptAt (hstands.await_answer ..) _
  · refine ⟨more, ?_⟩
    rw [hfollow]
    exact keeps_tell (r := r.tick.withBus bus) hnever h.interruptAt (hsteps.await_answer id bus answer) _

/-- The watch asks a question. -/
theorem asks (h : Keeps w r v) (hnever : settings.interruptAfter = none) (hfree : r.controller.Free)
    (hwaiting : w.waiting = none) (q : Question) (input : Bool → FollowInput) (now : Nat) :
    Keeps (w.tell settings now (input (r.call (·.openQuestion · q)).1.isTrue)) (r.call (·.openQuestion · q)).2
      (v.ask Host.system r.nextCall q input) := by
  obtain ⟨hreply, hcontroller, hhost⟩ := Rehearsal.call_question hfree q
  obtain ⟨hstands, hat⟩ := h
  have hask : v.ask Host.system r.nextCall q input =
      v.tell (input (r.controller.reply Host.system r.host q).isTrue) := by
    rw [Vigil.ask, Course.call_question (hstands.controller ▸ hfree), hstands.controller, hstands.world]
  rw [hask, hreply]
  rw [hwaiting] at hstands
  refine keeps_tell hnever hat ?_ now
  rw [hcontroller, hhost]
  exact hstands.tell _

/-- A step of a watch, with the time that passes before it, is some steps of a vigil. -/
theorem step (h : Keeps w r v) (hnever : settings.interruptAfter = none) (hfree : r.controller.Free)
    (hreceiving : w.waiting ≠ none → w.follower.phase = .receiving) :
    ∃ steps, Keeps (w.step settings r).1 (w.step settings r).2 (v.run Host.system steps) := by
  have hidle (hne : w.follower.phase ≠ .receiving) : w.waiting = none := not_imp_comm.1 hreceiving hne
  have hfollow (hkeeps : Keeps (w.step settings r).1 (w.step settings r).2 (v.follow Host.system r.nextCall)) :
      ∃ steps, Keeps (w.step settings r).1 (w.step settings r).2 (v.run Host.system steps) :=
    ⟨[.follow r.nextCall], hkeeps⟩
  cases hphase : w.follower.phase with
  | receiving =>
    cases hwaiting : w.waiting with
    | none => exact hfollow (h.begins hnever hphase hwaiting)
    | some wait => exact h.waits hnever hfree.calls hphase hwaiting
  | askingRunning =>
    apply hfollow
    rw [Vigil.follow, Watch.step, h.stands.follower, hphase]
    exact h.asks hnever hfree (hidle (by simp [hphase])) .isRunning .running _
  | askingDrains =>
    apply hfollow
    rw [Vigil.follow, Watch.step, h.stands.follower, hphase]
    exact h.asks hnever hfree (hidle (by simp [hphase])) .drainsFinished .drained _
  | taking =>
    apply hfollow
    have hbus : v.bus = r.bus := congrArg (·.feed.bus) h.stands.controller
    have hstands := h.stands
    rw [hidle (by simp [hphase])] at hstands
    rw [Vigil.follow, Watch.step, hstands.follower, hphase, hbus, Rehearsal.tryReceive]
    rcases r.bus.tryTake? with _ | ⟨e, bus⟩
    · exact keeps_tell hnever h.interruptAt (hstands.tell (.taken none)) _
    · exact keeps_tell (r := r.withBus bus) hnever h.interruptAt ((hstands.setBus bus).tell (.taken (some e))) _
  | finished =>
    refine ⟨[], ?_⟩
    rw [Watch.step, hphase]
    exact h

end Keeps

/-- A whole watch is a run of a vigil. -/
theorem Keeps.run {k : Nat} (h : Keeps w r v) (hkept : Kept k v) (hnever : settings.interruptAfter = none)
    (fuel : Nat) :
    ∃ steps, Keeps (Watch.run settings fuel w r).1 (Watch.run settings fuel w r).2 (v.run Host.system steps) := by
  induction fuel generalizing w r v with
  | zero => exact ⟨[], h⟩
  | succ fuel ih =>
    rw [Watch.run]
    split
    · exact ⟨[], h⟩
    · have hreceiving : w.waiting ≠ none → w.follower.phase = .receiving := by
        intro hne
        rw [← h.stands.follower]
        refine hkept.receiving ?_
        rw [h.stands.waiting]
        simpa using hne
      obtain ⟨first, hfirst⟩ := h.step hnever (h.stands.controller ▸ hkept.free) hreceiving
      obtain ⟨second, hsecond⟩ := ih hfirst (hkept.run first)
      exact ⟨first ++ second, run_append Host.system v first second ▸ hsecond⟩

end Watch

/-- To follow a session without interruption is a run of a vigil: at the end all events have been seen. -/
theorem Rehearsal.exists_run_follow {r : Rehearsal} (hfree : r.controller.Free) {k : Nat}
    (hbus : r.controller.feed.bus = { published := k }) {settings : WatchSettings}
    (hnever : settings.interruptAfter = none) :
    ∃ steps, (r.follow settings).1 = (Vigil.run Host.system { course := ⟨r.controller, r.host, []⟩ } steps).follower ∧
      (r.follow settings).2.controller =
        (Vigil.run Host.system { course := ⟨r.controller, r.host, []⟩ } steps).course.controller ∧
      ((r.follow settings).1.phase = .finished →
        Vigil.Seen k (Vigil.run Host.system { course := ⟨r.controller, r.host, []⟩ } steps)) := by
  have hkept : Vigil.Kept k ({ course := ⟨r.controller, r.host, []⟩ } : Vigil Host) := .start hfree hbus
  have hkeeps : Watch.Keeps {} r { course := ⟨r.controller, r.host, []⟩ } := ⟨⟨rfl, rfl, rfl, rfl, rfl⟩, rfl⟩
  obtain ⟨steps, hsteps⟩ := hkeeps.run hkept hnever watchLimit
  refine ⟨steps, hsteps.stands.follower.symm, hsteps.stands.controller.symm, fun hphase => ?_⟩
  exact (hkept.run steps).seen (hsteps.stands.follower ▸ hphase)

end ClusterWatch
