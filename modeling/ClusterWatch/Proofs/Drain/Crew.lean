import ClusterWatch.Proofs.Drain.Reference
import ClusterWatch.Proofs.Interleaving
import ClusterWatch.Proofs.Tracker.ByNode
import Mathlib.Algebra.BigOperators.Fin
import Mathlib.Data.Fintype.Basic
import Mathlib.Logic.Function.Basic

/-!
# Drains that take turns

The drains of a session feed one tracker and one bus. At its turn a drain takes its next item or performs one
action, so that the others may come between the observation of an event and its publication. In any order of
the turns every drain does what it would do alone, and it is done as soon as it has had the turns that this
takes (`Crew.concerted_run`).
-/

namespace ClusterWatch

/-! ## The actions of one drain -/

def DrainAction.published? : DrainAction → Option Event
  | .publish e => some e
  | .observe _ => none

def DrainAction.observed? : DrainAction → Option Event
  | .observe e => some e
  | .publish _ => none

open DrainAction

theorem Feed.foldl_perform (f : Feed) (actions : List DrainAction) :
    actions.foldl .perform f =
      { tracker := (actions.filterMap observed?).foldl (fun t e => t.observe e.toReport) f.tracker,
        bus := (actions.filterMap published?).foldl .publish f.bus } := by
  induction actions generalizing f with
  | nil => rfl
  | cons action actions ih =>
    rw [List.foldl_cons, ih]
    cases action <;> rfl

namespace Drain

def after (d : Drain) : List Arrival → Drain
  | [] => d
  | a :: arrivals => after (d.step a).1 arrivals

/-- The actions of a drain over items. -/
def actions (d : Drain) : List Arrival → List DrainAction
  | [] => []
  | a :: arrivals => (d.step a).2 ++ actions (d.step a).1 arrivals

theorem run_eq_actions (d : Drain) (f : Feed) (arrivals : List Arrival) :
    d.run f arrivals = (d.after arrivals, (d.actions arrivals).foldl .perform f) := by
  induction arrivals generalizing d f with
  | nil => rfl
  | cons a arrivals ih => rw [run, ih, actions, List.foldl_append, after]

theorem queue_run (node : NodeId) (arrivals : List Arrival) :
    (run { node } {} arrivals).2.bus.queue =
      (actions { node } arrivals).filterMap published? := by
  rw [run_eq_actions, Feed.foldl_perform, foldl_publish]
  rfl

/-- An item leads to two actions at most: an event is observed and published. -/
theorem length_step_le (d : Drain) (a : Arrival) : (d.step a).2.length ≤ 2 := by
  rw [step]
  -- The actions are written out in each branch: none, one or two.
  repeat' split
  all_goals simp

theorem length_actions_le (d : Drain) (arrivals : List Arrival) :
    (d.actions arrivals).length ≤ 2 * arrivals.length := by
  induction arrivals generalizing d with
  | nil => exact Nat.zero_le _
  | cons a arrivals ih =>
    have hstep := d.length_step_le a
    have hrest := ih (d.step a).1
    rw [actions, List.length_append, List.length_cons]
    omega

theorem length_queue_run (node : NodeId) (arrivals : List Arrival) :
    (run { node } {} arrivals).2.bus.queue.length = (run { node } {} arrivals).1.events := by
  have hpublished := reference_published node {} arrivals
  rw [← run_eq_reference, run_eq_actions, Feed.foldl_perform, foldl_publish] at hpublished
  rw [queue_run, run_eq_actions]
  exact Nat.add_left_cancel hpublished

end Drain

/-! ## Observed before published -/

/-- Actions in which every event is published right after it is observed, except events that the tracker keeps
nothing of, which may be published only. -/
inductive Paced : List DrainAction → Prop
  | nil : Paced []
  | pass (e : Event) {actions : List DrainAction} (h : Paced actions) :
      Paced (.observe e :: .publish e :: actions)
  | notice {e : Event} (he : e.isTracked = false) {actions : List DrainAction} (h : Paced actions) :
      Paced (.publish e :: actions)

theorem Drain.paced_actions (d : Drain) (arrivals : List Arrival) : Paced (d.actions arrivals) := by
  induction arrivals generalizing d with
  | nil => exact .nil
  | cons a arrivals ih =>
    have hrest := ih (d.step a).1
    rw [actions]
    obtain ⟨item, running, time⟩ := a
    revert hrest
    rw [step]
    cases d.outcome with
    | cancelled | failed => exact id
    | endOfStream =>
      cases running with
      | false => exact id
      | true =>
        cases item with
        | failure text => exact fun hrest => .notice rfl hrest
        | line text =>
          dsimp only
          rw [if_pos rfl]
          cases Line.classify text with
          | none => exact id
          | some r => exact fun hrest => .pass _ hrest

/-- The events among these that the tracker keeps something of. -/
def kept (events : List Event) : List Event := events.filter (·.isTracked)

theorem kept_cons_of_not_isTracked {e : Event} (he : e.isTracked = false) (events : List Event) :
    kept (e :: events) = kept events := List.filter_cons_of_neg (by simp [he])

theorem filter_concerns_kept (k : NodeId) (events : List Event) :
    (kept events).filter (fun e => Tracker.concerns k e.toReport) =
      events.filter fun e => Tracker.concerns k e.toReport := by
  rw [kept, List.filter_filter]
  apply List.filter_congr
  intro e _
  cases h : Tracker.concerns k e.toReport with
  | false => rfl
  | true => rw [(Tracker.concerns_eq_true.1 h).1]; rfl

theorem kept_cons_isPrefix (e : Event) {events events' : List Event} (h : kept events <+: kept events') :
    kept (e :: events) <+: kept (e :: events') := by
  simp only [kept, List.filter_cons]
  split
  · exact (List.prefix_cons_inj e).2 h
  · exact h

namespace Paced

theorem kept_eq {actions : List DrainAction} (h : Paced actions) :
    kept (actions.filterMap published?) = kept (actions.filterMap observed?) := by
  induction h with
  | nil => rfl
  | @pass e actions h ih =>
    show kept (e :: actions.filterMap published?) = kept (e :: actions.filterMap observed?)
    rw [kept, List.filter_cons, ← kept, ih, kept, kept, List.filter_cons]
  | notice he h ih => exact (kept_cons_of_not_isTracked he _).trans ih

/-- At any moment everything published has been observed. -/
theorem kept_isPrefix {actions : List DrainAction} (h : Paced actions) {done : List DrainAction}
    (hdone : done <+: actions) : kept (done.filterMap published?) <+: kept (done.filterMap observed?) := by
  induction h generalizing done with
  | nil =>
    rw [List.prefix_nil.1 hdone]
    exact List.prefix_rfl
  | pass e h ih =>
    obtain rfl | ⟨begun, rfl, hbegun⟩ := List.prefix_cons_iff.1 hdone
    · exact List.prefix_rfl
    · obtain rfl | ⟨rest, rfl, hrest⟩ := List.prefix_cons_iff.1 hbegun
      · exact List.nil_prefix
      · exact kept_cons_isPrefix e (ih hrest)
  | notice he h ih =>
    obtain rfl | ⟨rest, rfl, hrest⟩ := List.prefix_cons_iff.1 hdone
    · exact List.prefix_rfl
    · have hskip := kept_cons_of_not_isTracked he (rest.filterMap published?)
      exact hskip ▸ ih hrest

end Paced

/-! ## Drains at work -/

/-- A drain at work: the actions that are due, and the items that still come. -/
structure DrainJob where
  drain : Drain
  due : List DrainAction := []
  arrivals : List Arrival
deriving DecidableEq, Repr

namespace DrainJob

/-- The action that the drain performs at its next turn, unless it takes an item then or is done. -/
def next? (j : DrainJob) : Option DrainAction := j.due.head?

def turn (j : DrainJob) : DrainJob :=
  match j.due, j.arrivals with
  | _ :: due, _ => { j with due }
  | [], a :: arrivals => { drain := (j.drain.step a).1, due := (j.drain.step a).2, arrivals }
  | [], [] => j

/-- The actions that are still to be performed. -/
def left (j : DrainJob) : List DrainAction := j.due ++ j.drain.actions j.arrivals

/-- The number of turns that the drain needs. -/
def effort (j : DrainJob) : Nat := j.arrivals.length + j.left.length

/-- The drain has taken all items and performed all actions. -/
structure IsDone (j : DrainJob) : Prop where
  due : j.due = []
  arrivals : j.arrivals = []

theorem left_eq (j : DrainJob) : j.left = j.next?.toList ++ j.turn.left := by
  obtain ⟨drain, due, arrivals⟩ := j
  cases due with
  | cons action due => rfl
  | nil => cases arrivals <;> rfl

theorem after_turn (j : DrainJob) : j.turn.drain.after j.turn.arrivals = j.drain.after j.arrivals := by
  obtain ⟨drain, due, arrivals⟩ := j
  cases due with
  | cons action due => rfl
  | nil => cases arrivals <;> rfl

theorem effort_turn (j : DrainJob) : j.turn.effort = j.effort - 1 := by
  obtain ⟨drain, due, arrivals⟩ := j
  cases due with
  | cons action due => simp [effort, turn, left]
  | nil =>
    cases arrivals with
    | nil => rfl
    | cons a arrivals =>
      simp only [effort, turn, left, Drain.actions, List.nil_append, List.length_cons]
      omega

theorem IsDone.left_eq_nil {j : DrainJob} (h : j.IsDone) : j.left = [] := by
  rw [left, h.due, h.arrivals]
  rfl

theorem isDone_iff_effort {j : DrainJob} : j.IsDone ↔ j.effort = 0 := by
  constructor
  · intro h
    rw [effort, h.left_eq_nil, h.arrivals]
    rfl
  · intro h
    rw [effort, left, List.length_append] at h
    exact ⟨List.length_eq_zero_iff.1 (by omega), List.length_eq_zero_iff.1 (by omega)⟩

end DrainJob

/-- Drains that feed one tracker and one bus. -/
structure Crew (n : Nat) where
  jobs : Fin n → DrainJob
  feed : Feed := {}

namespace Crew
variable {n : Nat}

/-- New drains, each with the items that it will get. -/
def start (nodes : Fin n → NodeId) (arrivals : Fin n → List Arrival) (feed : Feed) : Crew n where
  jobs i := { drain := { node := nodes i }, arrivals := arrivals i }
  feed

def turn (c : Crew n) (i : Fin n) : Crew n where
  jobs := Function.update c.jobs i (c.jobs i).turn
  feed := (c.jobs i).next?.toList.foldl .perform c.feed

/-- The drains have turns in this order. -/
def run (c : Crew n) (turns : List (Fin n)) : Crew n := turns.foldl turn c

/-- The actions that are performed in turns, with the drains that perform them. -/
def performed (c : Crew n) : List (Fin n) → List (Fin n × DrainAction)
  | [] => []
  | i :: turns => (c.jobs i).next?.toList.map (i, ·) ++ performed (c.turn i) turns

theorem feed_run (c : Crew n) (turns : List (Fin n)) :
    (c.run turns).feed = ((c.performed turns).map (·.2)).foldl .perform c.feed := by
  induction turns generalizing c with
  | nil => rfl
  | cons i turns ih =>
    have hown : ((c.jobs i).next?.toList.map (i, ·)).map (·.2) = (c.jobs i).next?.toList := by
      rw [List.map_map]
      exact List.map_id _
    rw [performed, List.map_append, List.foldl_append, hown]
    exact ih (c.turn i)

theorem jobs_turn_self (c : Crew n) (i : Fin n) : (c.turn i).jobs i = (c.jobs i).turn :=
  Function.update_self ..

theorem jobs_turn_of_ne (c : Crew n) {i j : Fin n} (h : j ≠ i) : (c.turn i).jobs j = c.jobs j :=
  Function.update_of_ne h ..

theorem left_run (c : Crew n) (turns : List (Fin n)) (i : Fin n) :
    (c.jobs i).left = share i (c.performed turns) ++ ((c.run turns).jobs i).left := by
  induction turns generalizing c with
  | nil => rfl
  | cons j turns ih =>
    have hrest := ih (c.turn j)
    rw [performed, share_append, List.append_assoc]
    by_cases hj : j = i
    · subst hj
      rw [jobs_turn_self] at hrest
      rw [share_map_self, DrainJob.left_eq, hrest]
      rfl
    · rw [jobs_turn_of_ne c (Ne.symm hj)] at hrest
      rw [share_map_of_ne hj, List.nil_append, hrest]
      rfl

theorem after_run (c : Crew n) (turns : List (Fin n)) (i : Fin n) :
    ((c.run turns).jobs i).drain.after ((c.run turns).jobs i).arrivals =
      (c.jobs i).drain.after (c.jobs i).arrivals := by
  induction turns generalizing c with
  | nil => rfl
  | cons j turns ih =>
    refine (ih (c.turn j)).trans ?_
    by_cases hj : j = i
    · subst hj
      rw [jobs_turn_self, DrainJob.after_turn]
    · rw [jobs_turn_of_ne c (Ne.symm hj)]

theorem effort_run (c : Crew n) (turns : List (Fin n)) (i : Fin n) :
    ((c.run turns).jobs i).effort = (c.jobs i).effort - turns.count i := by
  induction turns generalizing c with
  | nil => rfl
  | cons j turns ih =>
    refine (ih (c.turn j)).trans ?_
    by_cases hj : j = i
    · subst hj
      rw [jobs_turn_self, DrainJob.effort_turn, List.count_cons_self]
      omega
    · rw [jobs_turn_of_ne c (Ne.symm hj), List.count_cons_of_ne hj]

/-- A drain is done once it has had the turns that it needs, and not before. -/
theorem isDone_run_iff (c : Crew n) (turns : List (Fin n)) (i : Fin n) :
    ((c.run turns).jobs i).IsDone ↔ (c.jobs i).effort ≤ turns.count i := by
  rw [DrainJob.isDone_iff_effort, effort_run, Nat.sub_eq_zero_iff_le]

/-- An item takes a turn, and so does each of the actions that it leads to. -/
theorem effort_start_le (nodes : Fin n → NodeId) (arrivals : Fin n → List Arrival) (f : Feed) (i : Fin n) :
    ((start nodes arrivals f).jobs i).effort ≤ 3 * (arrivals i).length := by
  have hactions := Drain.length_actions_le { node := nodes i } (arrivals i)
  show (arrivals i).length + (Drain.actions { node := nodes i } (arrivals i)).length ≤ _
  omega

/-! ## All together -/

/-- The published events, each with its drain. -/
def publications (performed : List (Fin n × DrainAction)) : List (Fin n × Event) :=
  pick published? performed

def observations (performed : List (Fin n × DrainAction)) : List (Fin n × Event) :=
  pick observed? performed

/-- A drain with a tracker and a bus of its own. -/
abbrev solo (nodes : Fin n → NodeId) (arrivals : Fin n → List Arrival) (i : Fin n) : Drain × Feed :=
  Drain.run { node := nodes i } {} (arrivals i)

/-- What holds of a crew at any moment, after the turns that its drains have had and what they have performed on this
feed. -/
structure Concerted (nodes : Fin n → NodeId) (arrivals : Fin n → List Arrival) (f : Feed) (turns : List (Fin n))
    (performed : List (Fin n × DrainAction)) (c : Crew n) : Prop where
  /-- A drain is done once it has had the turns that it needs, however the others fare. -/
  finished : ∀ i, (c.jobs i).IsDone ↔ ((start nodes arrivals f).jobs i).effort ≤ turns.count i
  /-- It needs at most three turns for an item. -/
  bounded : ∀ i, ((start nodes arrivals f).jobs i).effort ≤ 3 * (arrivals i).length
  /-- A drain that is done stands as it would alone, and has published the same. -/
  alone : ∀ i, (c.jobs i).IsDone → (c.jobs i).drain = (solo nodes arrivals i).1 ∧
    share i (publications performed) = (solo nodes arrivals i).2.bus.queue
  /-- A drain that is not done has published the first part of that. -/
  ahead : ∀ i, share i (publications performed) <+: (solo nodes arrivals i).2.bus.queue
  /-- The bus has what the drains published. -/
  queue : c.feed.bus.queue = f.bus.queue ++ (publications performed).map (·.2)
  /-- The bus counts as many events as the drains together. -/
  count : (∀ i, (c.jobs i).IsDone) →
    c.feed.bus.published = f.bus.published + ∑ i, (c.jobs i).drain.events
  /-- The tracker knows what it has observed. -/
  tracker : c.feed.tracker = ((observations performed).map (·.2.toReport)).foldl .observe f.tracker
  /-- What is published of generations and of rows is observed before. -/
  observed : ∀ i, kept (share i (publications performed)) <+: kept (share i (observations performed))
  /-- If no two drains speak of one node, the tracker in the end knows what the bus tells. -/
  order : (∀ i, (c.jobs i).IsDone) →
    (∀ i j, i ≠ j → ∀ e ∈ (solo nodes arrivals i).2.bus.queue,
      ∀ e' ∈ (solo nodes arrivals j).2.bus.queue, e.node ≠ e'.node) →
    c.feed.tracker = ((publications performed).map (·.2.toReport)).foldl .observe f.tracker

variable (nodes : Fin n → NodeId) (arrivals : Fin n → List Arrival) (f : Feed) (turns : List (Fin n))

theorem share_performed_isPrefix (i : Fin n) :
    share i ((start nodes arrivals f).performed turns) <+:
      Drain.actions { node := nodes i } (arrivals i) :=
  ⟨_, ((start nodes arrivals f).left_run turns i).symm⟩

variable {nodes arrivals f turns} in
theorem share_performed_of_isDone {i : Fin n} (h : (((start nodes arrivals f).run turns).jobs i).IsDone) :
    share i ((start nodes arrivals f).performed turns) =
      Drain.actions { node := nodes i } (arrivals i) := by
  have hleft := (start nodes arrivals f).left_run turns i
  rw [h.left_eq_nil, List.append_nil] at hleft
  exact hleft.symm

theorem share_publications (i : Fin n) (performed : List (Fin n × DrainAction)) :
    share i (publications performed) = (share i performed).filterMap published? := share_pick ..

theorem share_observations (i : Fin n) (performed : List (Fin n × DrainAction)) :
    share i (observations performed) = (share i performed).filterMap observed? := share_pick ..

variable {nodes arrivals f turns} in
theorem alone_of_isDone {i : Fin n} (h : (((start nodes arrivals f).run turns).jobs i).IsDone) :
    (((start nodes arrivals f).run turns).jobs i).drain = (solo nodes arrivals i).1 ∧
      share i (publications ((start nodes arrivals f).performed turns)) =
        (solo nodes arrivals i).2.bus.queue := by
  have hdrain := (start nodes arrivals f).after_run turns i
  rw [h.arrivals] at hdrain
  rw [share_publications, share_performed_of_isDone h, solo, Drain.queue_run, Drain.run_eq_actions]
  exact ⟨hdrain, rfl⟩

theorem bus_run : ((start nodes arrivals f).run turns).feed.bus =
    { f.bus with
      queue := f.bus.queue ++ (publications ((start nodes arrivals f).performed turns)).map (·.2),
      published := f.bus.published + (publications ((start nodes arrivals f).performed turns)).length } := by
  rw [feed_run, Feed.foldl_perform, Drain.foldl_publish, ← map_snd_pick published?, List.length_map]
  rfl

theorem tracker_run : ((start nodes arrivals f).run turns).feed.tracker =
    ((observations ((start nodes arrivals f).performed turns)).map (·.2.toReport)).foldl .observe f.tracker := by
  rw [feed_run, Feed.foldl_perform, ← List.foldl_map, ← map_snd_pick, List.map_map]
  rfl

/-- Events that agree drain by drain in what the tracker keeps lead to the same tracker, if no two drains
speak of one node. -/
theorem foldl_observe_eq_of_parted {entries entries' : List (Fin n × Event)}
    (hkept : ∀ i, kept (share i entries) = kept (share i entries'))
    (hnodes : ∀ i j, i ≠ j → ∀ e ∈ share i entries', ∀ e' ∈ share j entries', e.node ≠ e'.node)
    (t : Tracker) :
    (entries.map (·.2.toReport)).foldl .observe t = (entries'.map (·.2.toReport)).foldl .observe t := by
  apply Tracker.foldl_observe_eq
  intro k
  have hmap (entries : List (Fin n × Event)) :
      (entries.map (·.2.toReport)).filter (Tracker.concerns k) =
        ((entries.map (·.2)).filter fun e => Tracker.concerns k e.toReport).map (·.toReport) := by
    rw [List.filter_map, List.filter_map, List.map_map]
    rfl
  rw [hmap, hmap, filter_map_snd_eq]
  · intro i
    rw [← filter_concerns_kept, hkept, filter_concerns_kept]
  · have htold : ∀ x ∈ entries, Tracker.concerns k x.2.toReport = true →
        x.2 ∈ share x.1 entries' ∧ x.2.node = k := by
      intro x hx hk
      obtain ⟨htracked, hnode⟩ := Tracker.concerns_eq_true.1 hk
      have hmem : x.2 ∈ kept (share x.1 entries) := List.mem_filter.2 ⟨mem_share.2 hx, htracked⟩
      rw [hkept] at hmem
      exact ⟨(List.mem_filter.1 hmem).1, hnode⟩
    intro x hx y hy hkx hky
    obtain ⟨hxtold, hxnode⟩ := htold x hx hkx
    obtain ⟨hytold, hynode⟩ := htold y hy hky
    by_contra hne
    exact hnodes x.1 y.1 hne x.2 hxtold y.2 hytold (hxnode.trans hynode.symm)

/-- Drains that take turns in any order are concerted. -/
theorem concerted_run :
    Concerted nodes arrivals f turns ((start nodes arrivals f).performed turns)
      ((start nodes arrivals f).run turns) := by
  have hpaced (i) := Drain.paced_actions { node := nodes i } (arrivals i)
  have hinitial := share_performed_isPrefix nodes arrivals f turns
  constructor
  case finished => exact (start nodes arrivals f).isDone_run_iff turns
  case bounded => exact effort_start_le nodes arrivals f
  case alone => exact fun i hi => alone_of_isDone hi
  case ahead =>
    intro i
    rw [share_publications, solo, Drain.queue_run]
    exact (hinitial i).filterMap _
  case queue => rw [bus_run]
  case count =>
    intro hdone
    have hevents (i) : (share i (publications ((start nodes arrivals f).performed turns))).length =
        (((start nodes arrivals f).run turns).jobs i).drain.events := by
      obtain ⟨hdrain, hqueue⟩ := alone_of_isDone (hdone i)
      rw [hdrain, hqueue, Drain.length_queue_run]
    rw [bus_run, length_eq_sum_share]
    simp only [hevents]
  case tracker => exact tracker_run nodes arrivals f turns
  case observed =>
    intro i
    rw [share_publications, share_observations]
    exact (hpaced i).kept_isPrefix (hinitial i)
  case order =>
    intro hdone hnodes
    rw [tracker_run]
    refine foldl_observe_eq_of_parted (fun i => ?_) ?_ f.tracker
    · rw [share_publications, share_observations, share_performed_of_isDone (hdone i), (hpaced i).kept_eq]
    · simpa only [(alone_of_isDone (hdone _)).2] using hnodes

/-- The items of two drains. A pipe of the first one breaks after a line, and a line comes after that. -/
def brokenPipe (i : Fin 2) : List Arrival :=
  let line (text : String) : Arrival := ⟨.line text.toList, true, ⟨0, 0⟩⟩
  if i = 0 then
    [line "[Node 1] Generation 3: 5 live cells", ⟨.failure "broken pipe", true, ⟨0, 0⟩⟩,
      line "[Node 1] Generation 4: 5 live cells"]
  else [line "[Node 2] Generation 1: 4 live cells"]

/-- The first drain observes its event first and publishes it last, and fails then. The second one has published what
it would publish alone, and in the end both are done. -/
theorem concerted_run_broken :
    let nodes : Fin 2 → NodeId := fun i => if i = 0 then 1 else 2
    let turns : List (Fin 2) := [0, 0, 1, 1, 1, 0, 0, 0, 0]
    let c := (start nodes brokenPipe {}).run turns
    let performed := (start nodes brokenPipe {}).performed turns
    (∀ i, (c.jobs i).IsDone) ∧ (c.jobs 0).drain.outcome = .failed ∧ (c.jobs 1).drain = (solo nodes brokenPipe 1).1 ∧
      (observations performed).map (·.1) = [0, 1] ∧ (publications performed).map (·.1) = [1, 0, 0] ∧
      c.feed.bus.published = 3 ∧
      c.feed.tracker = ((publications performed).map (·.2.toReport)).foldl .observe {} := by
  intro nodes turns c performed
  have h := concerted_run nodes brokenPipe {} turns
  have hdone : ∀ i, (c.jobs i).IsDone := fun i => (h.finished i).2 (by revert i; decide)
  have hfirst : (c.jobs 0).drain = (solo nodes brokenPipe 0).1 := (h.alone 0 (hdone 0)).1
  have hsecond : (c.jobs 1).drain = (solo nodes brokenPipe 1).1 := (h.alone 1 (hdone 1)).1
  refine ⟨hdone, ?_, hsecond, by decide, by decide, ?_, h.order hdone (by decide)⟩
  · rw [hfirst]
    decide
  · have hcount := h.count hdone
    rw [Fin.sum_univ_two, hfirst, hsecond] at hcount
    rw [hcount]
    decide

end Crew

end ClusterWatch
