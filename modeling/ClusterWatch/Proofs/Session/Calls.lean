import ClusterWatch.Proofs.Session.Processes
import ClusterWatch.Session.Lifecycle

/-!
# Calls in progress and their line

What a controller knows of its calls is seen through `Controller.phase?`: each operation on the calls
changes the phase of one call and leaves the others as they are. The calls that have asked for the
session stand in a line, whose first one has it. `Lined` is the discipline of that line; it is kept by
asking (`Lined.join`), by waiting with the session (`Lined.wait`) and by giving it away
(`Lined.leave`).
-/

namespace ClusterWatch

/-- What is asked of a controller. -/
inductive CallKind
  | start
  | stop
  | question (q : Question)
deriving DecidableEq, Repr

namespace Phase

/-- What the call is that has this phase. -/
def kind : Phase → CallKind
  | startOpen | startQueued | startClearing | startLaunching _ => .start
  | stopOpen | stopQueued | stopEnding _ => .stop
  | asking q | askQueued q => .question q

/-- The call has not yet asked for the session. -/
def isOpen : Phase → Bool
  | startOpen | stopOpen | asking _ => true
  | _ => false

/-- The call has the session and has begun its work. -/
def isInside : Phase → Bool
  | startClearing | startLaunching _ | stopEnding _ => true
  | _ => false

/-- The processes that a call holds by itself. -/
def pids : Phase → List Pid
  | startLaunching l => l.pids
  | stopEnding es => Ending.pending es
  | _ => []

theorem isInside_of_mem_pids {p : Phase} {pid : Pid} (h : pid ∈ p.pids) : p.isInside = true := by
  cases p <;> first | rfl | exact absurd h List.not_mem_nil

theorem isOpen_of_isInside {p : Phase} (h : p.isInside = true) : p.isOpen = false := by
  cases p <;> first | rfl | exact absurd h Bool.false_ne_true

end Phase

namespace Controller

@[simp] theorem kind_queued (p : Phase) : (Phase.queued p).kind = p.kind := by cases p <;> rfl

@[simp] theorem isOpen_queued (p : Phase) : (Phase.queued p).isOpen = false := by cases p <;> rfl

theorem isInside_queued {p : Phase} (h : p.isOpen = true) : (Phase.queued p).isInside = false := by
  cases p <;> first | rfl | exact absurd h Bool.false_ne_true

/-! ## The phase of each call -/

private theorem find?_map_ite {id : CallId} {p : Phase} (calls : List (CallId × Phase)) (a : CallId) :
    (calls.map fun call => if call.1 = id then (id, p) else call).find? (·.1 = a) =
      (calls.find? (·.1 = a)).map fun call => if a = id then (id, p) else call := by
  induction calls with
  | nil => rfl
  | cons call calls ih =>
    by_cases hid : call.1 = id
    · by_cases ha : a = id
      · simp [hid, ha]
      · simp [hid, Ne.symm ha, ih]
    · by_cases ha : call.1 = a
      · have : a ≠ id := fun h => hid (ha.trans h)
        simp [ha, this]
      · simp only [List.map_cons, if_neg hid, List.find?_cons, ha, decide_false, ih]

theorem phase?_addCall {c : Controller} {id : CallId} (p : Phase) (h : c.phase? id = none)
    (a : CallId) : (c.addCall id p).phase? a = if a = id then some p else c.phase? a := by
  simp only [phase?] at h ⊢
  rw [Option.map_eq_none_iff] at h
  simp only [addCall, List.find?_append]
  by_cases ha : a = id
  · subst ha
    simp [h]
  · simp [ha, Ne.symm ha]

theorem phase?_setPhase {c : Controller} {id : CallId} {p : Phase} (q : Phase)
    (h : c.phase? id = some p) (a : CallId) :
    (c.setPhase id q).phase? a = if a = id then some q else c.phase? a := by
  simp only [phase?] at h ⊢
  simp only [setPhase, find?_map_ite]
  by_cases ha : a = id
  · subst ha
    obtain ⟨call, hcall, -⟩ := Option.map_eq_some_iff.1 h
    simp [hcall]
  · simp [ha]

theorem phase?_dropCall (c : Controller) (id a : CallId) :
    (c.dropCall id).phase? a = if a = id then none else c.phase? a := by
  rw [phase?]
  simp only [dropCall, List.find?_filter]
  by_cases ha : a = id
  · subst ha
    simp
  · rw [if_neg ha]
    congr 2
    funext call
    by_cases hcall : call.1 = a
    · simp [hcall, ha]
    · simp [hcall]

@[simp] theorem phase?_releaseSession (c : Controller) (a : CallId) :
    c.releaseSession.phase? a = c.phase? a := rfl

theorem phase?_congr {c d : Controller} (h : d.calls = c.calls) (a : CallId) :
    d.phase? a = c.phase? a := by
  simp only [phase?]
  rw [h]

theorem setPhase_of_phase?_eq_none {c : Controller} {id : CallId} (q : Phase) (h : c.phase? id = none) :
    c.setPhase id q = c := by
  rw [phase?, Option.map_eq_none_iff, List.find?_eq_none] at h
  have hcalls : (c.calls.map fun call => if call.1 = id then (id, q) else call) = c.calls := by
    refine (List.map_congr_left fun call hcall => if_neg ?_).trans (List.map_id _)
    simpa using h call hcall
  rw [setPhase, hcalls]

theorem setPhase_setPhase (c : Controller) (id : CallId) (p q : Phase) :
    (c.setPhase id p).setPhase id q = c.setPhase id q := by
  simp only [setPhase, List.map_map]
  congr 2
  funext call
  by_cases hcall : call.1 = id <;> simp [hcall]

theorem dropCall_setPhase (c : Controller) (id : CallId) (p : Phase) :
    (c.setPhase id p).dropCall id = c.dropCall id := by
  simp only [setPhase, dropCall]
  congr 1
  induction c.calls with
  | nil => rfl
  | cons call calls ih =>
    by_cases hcall : call.1 = id
    · simpa [hcall] using ih
    · simpa [hcall] using ih

/-- A call of this kind is in progress. -/
def Busy (c : Controller) (kind : CallKind) (id : CallId) : Prop :=
  ∃ p, c.phase? id = some p ∧ p.kind = kind

theorem busy_addCall {c : Controller} {id : CallId} {p : Phase} (h : c.phase? id = none)
    {k : CallKind} {a : CallId} :
    (c.addCall id p).Busy k a ↔ (a = id ∧ p.kind = k) ∨ c.Busy k a := by
  simp only [Busy]
  rw [phase?_addCall p h]
  by_cases ha : a = id
  · subst ha
    simp [h]
  · simp [ha]

theorem busy_setPhase {c : Controller} {id : CallId} {p q : Phase} (h : c.phase? id = some p)
    (hkind : q.kind = p.kind) {k : CallKind} {a : CallId} :
    (c.setPhase id q).Busy k a ↔ c.Busy k a := by
  simp only [Busy]
  rw [phase?_setPhase q h]
  by_cases ha : a = id
  · subst ha
    simp [h, hkind]
  · simp [ha]

theorem busy_leave {c : Controller} (id : CallId) {k : CallKind} {a : CallId} :
    ((c.dropCall id).releaseSession).Busy k a ↔ a ≠ id ∧ c.Busy k a := by
  simp only [Busy]
  rw [phase?_releaseSession, phase?_dropCall]
  by_cases ha : a = id <;> simp [ha]

/-! ## The line for the session -/

/-- The calls that have asked for the session: the one that has it, and those that wait for it. -/
def line (c : Controller) : List CallId := c.holder.toList ++ c.queue

/-- The discipline of the line. -/
structure Lined (c : Controller) : Prop where
  nodup : c.line.Nodup
  /-- Nobody waits for a session that is free. -/
  free : c.holder = none → c.queue = []
  mem_line : ∀ id, id ∈ c.line ↔ ∃ p, c.phase? id = some p ∧ p.isOpen = false
  /-- Only the call that has the session is inside. -/
  inside : ∀ {id p}, c.phase? id = some p → p.isInside = true → c.holder = some id

/-- A call asks for the session: it gets it, or waits for it behind the others. -/
def join (c : Controller) (id : CallId) (p : Phase) : Controller :=
  if c.holder.isNone then { c with holder := some id }.setPhase id (Phase.queued p)
  else { c with queue := c.queue ++ [id] }.setPhase id (Phase.queued p)

@[simp] theorem line_setPhase (c : Controller) (id : CallId) (p : Phase) :
    (c.setPhase id p).line = c.line := rfl

theorem line_leave {c : Controller} (h : c.Lined) (id : CallId) :
    ((c.dropCall id).releaseSession).line = c.line.tail := by
  show c.queue.head?.toList ++ c.queue.tail = _
  cases hh : c.holder with
  | none => simp [line, hh, h.free hh]
  | some holder => cases hq : c.queue <;> simp [line, hh, hq]

theorem line_join {c : Controller} (h : c.Lined) (id : CallId) (p : Phase) :
    (c.join id p).line = c.line ++ [id] := by
  rw [join]
  cases hh : c.holder with
  | none => simp [line, hh, setPhase, h.free hh]
  | some holder => simp [line, hh, setPhase]

theorem phase?_join {c : Controller} {id : CallId} {p : Phase} (h : c.phase? id = some p)
    (a : CallId) :
    (c.join id p).phase? a = if a = id then some (Phase.queued p) else c.phase? a := by
  rw [join]
  split
  · exact phase?_setPhase (c := { c with holder := some id }) _ h a
  · exact phase?_setPhase (c := { c with queue := c.queue ++ [id] }) _ h a

theorem busy_join {c : Controller} {id : CallId} {p : Phase} (h : c.phase? id = some p)
    {k : CallKind} {a : CallId} : (c.join id p).Busy k a ↔ c.Busy k a := by
  simp only [Busy]
  rw [phase?_join h]
  by_cases ha : a = id
  · subst ha
    simp [h]
  · simp [ha]

namespace Lined

variable {c : Controller} {id : CallId} {p : Phase}

/-- A call that is inside is at the head of the line, and no other one holds processes. -/
theorem eq_holder (h : c.Lined) (hh : c.holder = some id) {a : CallId} {q : Phase}
    (ha : c.phase? a = some q) (hq : q.isInside = true) : a = id :=
  Option.some.inj ((h.inside ha hq).symm.trans hh)

theorem not_mem_line (h : c.Lined) (hp : c.phase? id = some p) (ho : p.isOpen = true) :
    id ∉ c.line := by
  intro hmem
  obtain ⟨q, hq, hopen⟩ := (h.mem_line id).1 hmem
  rw [hp] at hq
  rw [Option.some.inj hq, hopen] at ho
  exact Bool.false_ne_true ho

theorem line_eq_cons (hh : c.holder = some id) : c.line = id :: c.queue := by
  simp [line, hh]

theorem addCall (h : c.Lined) (hnew : c.phase? id = none) (hp : p.isOpen = true) :
    (c.addCall id p).Lined where
  nodup := h.nodup
  free := h.free
  mem_line a := by
    show a ∈ c.line ↔ _
    rw [h.mem_line, phase?_addCall p hnew]
    by_cases ha : a = id
    · subst ha
      simp [hnew, hp]
    · simp [ha]
  inside {a q} ha hq := by
    rw [phase?_addCall p hnew] at ha
    by_cases haid : a = id
    · rw [if_pos haid] at ha
      rw [← Option.some.inj ha] at hq
      have := Phase.isOpen_of_isInside hq
      rw [hp] at this
      exact absurd this.symm Bool.false_ne_true
    · rw [if_neg haid] at ha
      exact h.inside ha hq

theorem join (h : c.Lined) (hp : c.phase? id = some p) (ho : p.isOpen = true) :
    (c.join id p).Lined where
  nodup := by
    rw [line_join h]
    exact List.nodup_append.2 ⟨h.nodup, by simp, fun a ha b hb heq =>
      h.not_mem_line hp ho (by rwa [heq, List.mem_singleton.1 hb] at ha)⟩
  free := by
    rw [Controller.join]
    split
    · intro hnone
      cases hnone
    · rename_i hh
      intro hnone
      exact absurd (Option.isNone_iff_eq_none.2 hnone) hh
  mem_line a := by
    rw [line_join h, phase?_join hp, List.mem_append, h.mem_line]
    by_cases ha : a = id
    · subst ha
      simp
    · simp [ha]
  inside {a q} ha hq := by
    rw [phase?_join hp] at ha
    by_cases haid : a = id
    · rw [if_pos haid] at ha
      rw [← Option.some.inj ha, isInside_queued ho] at hq
      exact absurd hq Bool.false_ne_true
    · rw [if_neg haid] at ha
      have hh := h.inside ha hq
      rw [Controller.join, if_neg (by simp [hh])]
      exact hh

theorem wait (h : c.Lined) (hh : c.holder = some id) (hp : c.phase? id = some p)
    (ho : p.isOpen = false) {q : Phase} (hq : q.isInside = true) : (c.setPhase id q).Lined where
  nodup := h.nodup
  free := h.free
  mem_line a := by
    show a ∈ c.line ↔ _
    rw [h.mem_line, phase?_setPhase q hp]
    by_cases ha : a = id
    · subst ha
      simp [hp, ho, Phase.isOpen_of_isInside hq]
    · simp [ha]
  inside {a r} ha hr := by
    rw [phase?_setPhase q hp] at ha
    by_cases haid : a = id
    · rw [haid]
      exact hh
    · rw [if_neg haid] at ha
      exact h.inside ha hr

theorem leave (h : c.Lined) (hh : c.holder = some id) : ((c.dropCall id).releaseSession).Lined where
  nodup := by
    rw [line_leave h]
    exact h.nodup.sublist (List.tail_sublist _)
  free := by
    intro hnone
    have hnil : c.queue = [] := List.head?_eq_none_iff.1 hnone
    show c.queue.tail = []
    rw [hnil, List.tail_nil]
  mem_line a := by
    have hnodup := h.nodup
    have hmem := h.mem_line a
    rw [line_eq_cons hh, List.nodup_cons] at hnodup
    rw [line_eq_cons hh, List.mem_cons] at hmem
    rw [line_leave h, line_eq_cons hh, List.tail_cons, phase?_releaseSession, phase?_dropCall]
    by_cases ha : a = id
    · subst ha
      simp [hnodup.1]
    · simp only [ha, false_or] at hmem
      simpa [ha] using hmem
  inside {a q} ha hq := by
    rw [phase?_releaseSession, phase?_dropCall] at ha
    by_cases haid : a = id
    · simp [haid] at ha
    · rw [if_neg haid] at ha
      exact absurd (h.eq_holder hh ha hq) haid

end Lined

end Controller

end ClusterWatch
