import ClusterWatch.Drain

/-!
# What a drain does with its pipes

A drain hears the lines that arrive up to the first item that is a failure or finds the running flag
cleared. `Drain.reference` says what has to come of the items as a whole; a run over them comes to the same
(`Drain.run_meets_reference`): what it heard is passed on in order, the item that stops it decides the outcome,
and the rest is read and has no effect.
-/

namespace ClusterWatch

/-- A line that arrives while the session runs. -/
def Arrival.isHeard (a : Arrival) : Bool :=
  match a.item with
  | .line _ => a.running
  | .failure _ => false

/-- The event that a line makes. -/
def Arrival.event? (a : Arrival) : Option Event :=
  match a.item with
  | .line text => (Line.classify text).map fun r => { r with observedAt := a.time }
  | .failure _ => none

/-- Events are observed by the tracker and published on the bus, one after the other. -/
def Feed.pass (f : Feed) (events : List Event) : Feed where
  tracker := events.foldl (fun t e => t.observe e.toReport) f.tracker
  bus := events.foldl .publish f.bus

namespace Drain

/-- What a new drain has to do with items. -/
def reference (node : NodeId) (f : Feed) (arrivals : List Arrival) : Drain × Feed :=
  let heard := arrivals.takeWhile Arrival.isHeard
  let events := heard.filterMap Arrival.event?
  let d : Drain := { node, lines := heard.length, events := events.length }
  let f := f.pass events
  match arrivals.dropWhile Arrival.isHeard with
  | [] => (d, f)
  | stopper :: rest =>
    match stopper.running, stopper.item with
    | true, .failure text =>
      let e : Event := { node, payload := .error text, observedAt := stopper.time }
      ({ d with events := d.events + 1, outcome := .failed, discarded := rest.length },
        { f with bus := f.bus.publish e })
    | _, _ => ({ d with outcome := .cancelled, discarded := rest.length }, f)

theorem published_foldl_publish (b : Bus) (events : List Event) :
    (events.foldl .publish b).published = b.published + events.length := by
  induction events generalizing b with
  | nil => rfl
  | cons e events ih =>
    rw [List.foldl_cons, ih, Bus.published_publish, List.length_cons, Nat.add_assoc, Nat.add_comm 1]

theorem foldl_publish (b : Bus) (events : List Event) :
    events.foldl .publish b =
      { b with queue := b.queue ++ events, published := b.published + events.length } := by
  induction events generalizing b with
  | nil => rw [List.append_nil]; rfl
  | cons e events ih =>
    rw [List.foldl_cons, ih, Bus.publish, List.append_assoc, List.length_cons, Nat.add_assoc, Nat.add_comm 1]
    rfl

theorem run_append (d : Drain) (f : Feed) (before after : List Arrival) :
    d.run f (before ++ after) = (d.run f before).1.run (d.run f before).2 after := by
  induction before generalizing d f with
  | nil => rfl
  | cons a before ih => exact ih _ _

/-- A line that is heard counts, and its event is passed on if it makes one. -/
theorem step_of_isHeard {d : Drain} (hd : d.outcome = .endOfStream) {a : Arrival} (ha : a.isHeard = true)
    (f : Feed) :
    (d.step a).1 = { d with lines := d.lines + 1, events := d.events + a.event?.toList.length } ∧
      (d.step a).2.foldl .perform f = f.pass a.event?.toList := by
  obtain ⟨item, running, time⟩ := a
  cases item with
  | failure text => cases ha
  | line text =>
    have hrunning : running = true := ha
    rw [step, Arrival.event?]
    simp only [hd, hrunning, if_true]
    cases Line.classify text with
    | none => exact ⟨by rw [← hd]; rfl, rfl⟩
    | some r => exact ⟨by rw [← hd]; rfl, rfl⟩

/-- What is heard is passed on in its order. -/
theorem run_of_isHeard {d : Drain} (hd : d.outcome = .endOfStream) (f : Feed) {heard : List Arrival}
    (h : ∀ a ∈ heard, a.isHeard = true) :
    d.run f heard =
      ({ d with lines := d.lines + heard.length,
                events := d.events + (heard.filterMap Arrival.event?).length },
        f.pass (heard.filterMap Arrival.event?)) := by
  induction heard generalizing d f with
  | nil => rfl
  | cons a heard ih =>
    have hevents : (a :: heard).filterMap Arrival.event? =
        a.event?.toList ++ heard.filterMap Arrival.event? := by
      cases he : a.event? <;> simp [he]
    have hpass : (f.pass a.event?.toList).pass (heard.filterMap Arrival.event?) =
        f.pass ((a :: heard).filterMap Arrival.event?) := by
      rw [hevents]
      simp only [Feed.pass]
      rw [List.foldl_append, List.foldl_append]
    obtain ⟨hdrain, hfeed⟩ := step_of_isHeard hd (h a List.mem_cons_self) f
    rw [run, hdrain, hfeed, ih, hpass, hevents]
    · simp only [List.length_append, List.length_cons, Nat.add_assoc, Nat.add_comm 1]
    · exact hd
    · exact fun b hb => h b (List.mem_cons_of_mem a hb)

/-- A drain that has stopped reads the rest. -/
theorem run_of_stopped {d : Drain} (hd : d.outcome ≠ .endOfStream) (f : Feed) (rest : List Arrival) :
    d.run f rest = ({ d with discarded := d.discarded + rest.length }, f) := by
  induction rest generalizing d with
  | nil => rfl
  | cons a rest ih =>
    have hstep : d.step a = ({ d with discarded := d.discarded + 1 }, []) := by
      rw [step]
      cases ho : d.outcome with
      | endOfStream => exact absurd ho hd
      | cancelled | failed => rfl
    rw [run, hstep]
    have hrest := ih (d := { d with discarded := d.discarded + 1 }) hd
    rw [List.foldl_nil, hrest, List.length_cons, Nat.add_assoc, Nat.add_comm 1]

/-- A run over items comes to what the reference says. -/
theorem run_eq_reference (node : NodeId) (f : Feed) (arrivals : List Arrival) :
    run { node } f arrivals = reference node f arrivals := by
  have hsplit : arrivals.takeWhile Arrival.isHeard ++ arrivals.dropWhile Arrival.isHeard = arrivals :=
    List.takeWhile_append_dropWhile
  have hheard : ∀ a ∈ arrivals.takeWhile Arrival.isHeard, a.isHeard = true :=
    List.all_eq_true.1 List.all_takeWhile
  have hstop := List.head?_dropWhile_not Arrival.isHeard arrivals
  conv => lhs; rw [← hsplit]
  rw [run_append, run_of_isHeard rfl f hheard, reference]
  generalize arrivals.takeWhile Arrival.isHeard = heard
  generalize arrivals.dropWhile Arrival.isHeard = rest at hstop
  cases rest with
  | nil => simp [run]
  | cons stopper rest =>
    obtain ⟨item, running, time⟩ := stopper
    cases running with
    | false =>
      rw [run, step]
      refine (run_of_stopped ?_ _ rest).trans ?_
      · simp
      · simp
    | true =>
      cases item with
      | line text => simp [Arrival.isHeard] at hstop
      | failure text =>
        rw [run, step]
        refine (run_of_stopped ?_ _ rest).trans ?_
        · simp
        · simp [Feed.perform]

theorem reference_published (node : NodeId) (f : Feed) (arrivals : List Arrival) :
    (reference node f arrivals).2.bus.published =
      f.bus.published + (reference node f arrivals).1.events := by
  have hpass (events : List Event) : (f.pass events).bus.published = f.bus.published + events.length :=
    published_foldl_publish f.bus events
  rw [reference]
  dsimp only
  split
  case h_1 => exact hpass _
  case h_2 stopper rest _ =>
    split
    case h_1 => rw [Bus.published_publish, hpass, Nat.add_assoc]
    case h_2 => exact hpass _

/-- Every item is a line that counts, the one that stops the drain, or read after that. -/
theorem reference_read (node : NodeId) (f : Feed) (arrivals : List Arrival) :
    (reference node f arrivals).1.lines +
        (if (reference node f arrivals).1.outcome = .endOfStream then 0 else 1) +
      (reference node f arrivals).1.discarded = arrivals.length := by
  have hsplit : arrivals.takeWhile Arrival.isHeard ++ arrivals.dropWhile Arrival.isHeard = arrivals :=
    List.takeWhile_append_dropWhile
  have hlength := congrArg List.length hsplit
  rw [List.length_append] at hlength
  rw [reference]
  dsimp only
  split
  case h_1 hnil =>
    rw [hnil] at hlength
    simpa using hlength
  case h_2 stopper rest hcons =>
    rw [hcons, List.length_cons] at hlength
    obtain ⟨item, running, time⟩ := stopper
    cases running with
    | false =>
      simp only [reduceCtorEq, if_false]
      omega
    | true =>
      cases item with
      | line text | failure text =>
        simp only [reduceCtorEq, if_false]
        omega

/-- A drain does what the reference says with any items, each of which may find the running flag set or
cleared. It has published as many events as it counts, and it has read every item. -/
theorem run_meets_reference (node : NodeId) (f : Feed) (arrivals : List Arrival) :
    run { node } f arrivals = reference node f arrivals ∧
      (run { node } f arrivals).2.bus.published =
        f.bus.published + (run { node } f arrivals).1.events ∧
      (run { node } f arrivals).1.lines +
          (if (run { node } f arrivals).1.outcome = .endOfStream then 0 else 1) +
        (run { node } f arrivals).1.discarded = arrivals.length := by
  rw [run_eq_reference]
  exact ⟨rfl, reference_published node f arrivals, reference_read node f arrivals⟩

end Drain

end ClusterWatch
