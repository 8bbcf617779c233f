import ClusterWatch.Bus

/-!
# The traffic on the bus

All users of the bus share its state, so what they do is one list of steps, in any order: events are
published, calls begin, go on, run out of time or are dropped. `Traffic` keeps beside the bus what was
published and what was taken. Whatever the steps, every published event is taken once, in the order of
publishing, or still queued, and the calls get the receiving end in the order in which they came for it
(`Traffic.faithful_run`).
-/

namespace ClusterWatch

/-- What a user does with the bus at one stroke. -/
inductive BusStep
  | publish (e : Event)
  | tryReceive
  | begin (id : CallId) (call : BusCall)
  | resume (id : CallId)
  | expire (id : CallId)
  | abandon (id : CallId)
deriving DecidableEq, Repr

namespace BusStep

/-- The events that a step publishes. -/
def sent : BusStep → List Event
  | publish e => [e]
  | _ => []

/-- What a step gets hold of the receiving end for. -/
def grasp? (b : Bus) : BusStep → Option BusCall
  | tryReceive => if b.holder = none then some .receive else none
  | begin _ call => if b.holder = none then some call else none
  | resume id | expire id => (b.holder.filter (·.1 = id)).map (·.2)
  | publish _ | abandon _ => none

end BusStep

namespace Bus

/-- The bus after a step, and the answer if the step ends a call. -/
def perform (b : Bus) : BusStep → Bus × Option BusAnswer
  | .publish e => (b.publish e, none)
  | .tryReceive =>
    match b.tryTake? with
    | some (e, b) => (b, some (.received (some e)))
    | none => (b, some (.received none))
  | .begin id call => b.begin id call
  | .resume id => b.resume id
  | .expire id => ((b.expire id).1, some (b.expire id).2)
  | .abandon id => (b.abandon id, none)

/-- The events that an answer takes from the bus. -/
def takenBy (b : Bus) : Option BusAnswer → List Event
  | some (.received e) => e.toList
  | some (.cleared n) => b.queue.take n
  | none => []

/-! ## What a step can do -/

@[simp] theorem queue_release (b : Bus) : b.release.queue = b.queue := rfl

@[simp] theorem published_release (b : Bus) : b.release.published = b.published := rfl

@[simp] theorem queue_abandon (b : Bus) (id : CallId) : (b.abandon id).queue = b.queue := by
  rw [abandon]
  split <;> rfl

@[simp] theorem published_abandon (b : Bus) (id : CallId) :
    (b.abandon id).published = b.published := by
  rw [abandon]
  split <;> rfl

theorem resume_of_not_holder {b : Bus} {id : CallId} (h : ∀ call, b.holder ≠ some (id, call)) :
    b.resume id = (b, none) := by
  rw [resume]
  cases hb : b.holder with
  | none => rfl
  | some held =>
    obtain ⟨other, call⟩ := held
    have hne : other ≠ id := by
      rintro rfl
      exact h call hb
    simp [hne]

theorem resume_clear {b : Bus} {id : CallId} (h : b.holder = some (id, .clear)) :
    b.resume id = ({ b with queue := [] }.release, some (.cleared b.queue.length)) := by
  simp [resume, h]

theorem resume_receive_cons {b : Bus} {id : CallId} (h : b.holder = some (id, .receive)) {e : Event}
    {rest : List Event} (hq : b.queue = e :: rest) :
    b.resume id = ({ b with queue := rest }.release, some (.received (some e))) := by
  simp [resume, h, hq]

theorem resume_receive_nil {b : Bus} {id : CallId} (h : b.holder = some (id, .receive))
    (hq : b.queue = []) : b.resume id = (b, none) := by
  simp [resume, h, hq]

theorem begin_of_free {b : Bus} (h : b.holder = none) (id : CallId) (call : BusCall) :
    b.begin id call = { b with holder := some (id, call) }.resume id := by
  simp [begin, h]

theorem begin_of_held {b : Bus} (h : b.holder ≠ none) (id : CallId) (call : BusCall) :
    b.begin id call = ({ b with waiting := b.waiting ++ [(id, call)] }, none) := by
  simp [begin, h]

theorem expire_of_answer {b : Bus} {id : CallId} {answer : BusAnswer}
    (h : (b.resume id).2 = some answer) : b.expire id = ((b.resume id).1, answer) := by
  rw [expire]
  generalize b.resume id = resumed at h
  obtain ⟨c, given⟩ := resumed
  cases h
  rfl

theorem expire_of_none {b : Bus} {id : CallId} (h : (b.resume id).2 = none) :
    b.expire id = ((b.resume id).1.abandon id, .received none) := by
  rw [expire]
  generalize b.resume id = resumed at h
  obtain ⟨c, given⟩ := resumed
  cases h
  rfl

/-- How the queue and the count of published events can change in a step, and with what answer. -/
inductive Effect (b : Bus) (s : BusStep) : Bus → Option BusAnswer → Prop
  | takes {c : Bus} {e : Event} {rest : List Event} (h : s.grasp? b = some .receive)
      (hqueue : b.queue = e :: rest) (hrest : c.queue = rest) (hcount : c.published = b.published)
      (hsent : s.sent = []) : Effect b s c (some (.received (some e)))
  | clears {c : Bus} (h : s.grasp? b = some .clear) (hrest : c.queue = [])
      (hcount : c.published = b.published) (hsent : s.sent = []) :
      Effect b s c (some (.cleared b.queue.length))
  | keeps {c : Bus} {answer : Option BusAnswer} (h : s.grasp? b = some .receive → b.queue = [])
      (hclear : s.grasp? b ≠ some .clear) (hanswer : answer = none ∨ answer = some (.received none))
      (hrest : c.queue = b.queue ++ s.sent) (hcount : c.published = b.published + s.sent.length) :
      Effect b s c answer

theorem grasp?_of_holder {b : Bus} {id : CallId} {call : BusCall} (h : b.holder = some (id, call)) :
    (BusStep.resume id).grasp? b = some call ∧ (BusStep.expire id).grasp? b = some call := by
  simp [BusStep.grasp?, h]

theorem grasp?_of_not_holder {b : Bus} {id : CallId} (h : ∀ call, b.holder ≠ some (id, call)) :
    (BusStep.resume id).grasp? b = none ∧ (BusStep.expire id).grasp? b = none := by
  have hnone : (b.holder.filter (·.1 = id)).map (·.2) = none := by
    rw [Option.map_eq_none_iff, Option.filter_eq_none_iff]
    rintro ⟨other, call⟩ hother heq
    obtain rfl : other = id := by simpa using heq
    exact h call hother
  exact ⟨hnone, hnone⟩

theorem effect_resume (b : Bus) (id : CallId) :
    Effect b (.resume id) (b.resume id).1 (b.resume id).2 := by
  by_cases h : ∃ call, b.holder = some (id, call)
  · obtain ⟨call, h⟩ := h
    have hgrasp := (grasp?_of_holder h).1
    cases call with
    | clear =>
      rw [resume_clear h]
      exact .clears hgrasp rfl rfl rfl
    | receive =>
      cases hq : b.queue with
      | nil =>
        rw [resume_receive_nil h hq]
        exact .keeps (fun _ => hq) (by simp [hgrasp]) (.inl rfl) (by simp [BusStep.sent]) rfl
      | cons e rest =>
        rw [resume_receive_cons h hq]
        exact .takes hgrasp hq rfl rfl rfl
  · have hnot : ∀ call, b.holder ≠ some (id, call) := fun call hcall => h ⟨call, hcall⟩
    have hgrasp := (grasp?_of_not_holder hnot).1
    rw [resume_of_not_holder hnot]
    exact .keeps (by simp [hgrasp]) (by simp [hgrasp]) (.inl rfl) (by simp [BusStep.sent]) rfl

theorem effect_begin (b : Bus) (id : CallId) (call : BusCall) :
    Effect b (.begin id call) (b.begin id call).1 (b.begin id call).2 := by
  by_cases h : b.holder = none
  · have hgrasp : (BusStep.begin id call).grasp? b = some call := by simp [BusStep.grasp?, h]
    -- The call has the receiving end, so it goes on as one that has waited for it.
    have heffect := effect_resume { b with holder := some (id, call) } id
    have hheld : (BusStep.resume id).grasp? { b with holder := some (id, call) } = some call :=
      (grasp?_of_holder rfl).1
    rw [begin_of_free h]
    generalize { b with holder := some (id, call) }.resume id = resumed at heffect
    obtain ⟨c, answer⟩ := resumed
    cases heffect with
    | takes hreceive hqueue hrest hcount hsent =>
      exact .takes (hgrasp.trans (hheld.symm.trans hreceive)) hqueue hrest hcount hsent
    | clears hclear hrest hcount hsent =>
      exact .clears (hgrasp.trans (hheld.symm.trans hclear)) hrest hcount hsent
    | keeps hreceive hclear hanswer hrest hcount =>
      rw [hheld] at hreceive hclear
      exact .keeps (hgrasp ▸ hreceive) (hgrasp ▸ hclear) hanswer hrest hcount
  · have hgrasp : (BusStep.begin id call).grasp? b = none := by simp [BusStep.grasp?, h]
    rw [begin_of_held h]
    exact .keeps (by simp [hgrasp]) (by simp [hgrasp]) (.inl rfl) (by simp [BusStep.sent]) rfl

theorem effect_expire (b : Bus) (id : CallId) :
    Effect b (.expire id) (b.expire id).1 (some (b.expire id).2) := by
  have heffect := effect_resume b id
  have hgrasp : (BusStep.expire id).grasp? b = (BusStep.resume id).grasp? b := rfl
  cases hanswer : (b.resume id).2 with
  | some answer =>
    rw [expire_of_answer hanswer]
    rw [hanswer] at heffect
    cases heffect with
    | takes hreceive hqueue hrest hcount => exact .takes hreceive hqueue hrest hcount rfl
    | clears hclear hrest hcount => exact .clears hclear hrest hcount rfl
    | keeps hreceive hclear hnone hrest hcount => exact .keeps hreceive hclear hnone hrest hcount
  | none =>
    rw [expire_of_none hanswer]
    rw [hanswer] at heffect
    cases heffect with
    | keeps hreceive hclear hnone hrest hcount =>
      exact .keeps hreceive hclear (.inr rfl) (by rw [queue_abandon, hrest]; rfl)
        (by rw [published_abandon, hcount]; rfl)

/-- What a step does to the queue. -/
theorem effect_perform (b : Bus) (s : BusStep) : Effect b s (b.perform s).1 (b.perform s).2 := by
  cases s with
  | publish e => exact .keeps (by simp [BusStep.grasp?]) (by simp [BusStep.grasp?]) (.inl rfl) rfl rfl
  | begin id call => exact effect_begin b id call
  | resume id => exact effect_resume b id
  | expire id => exact effect_expire b id
  | abandon id =>
    refine .keeps (by simp [BusStep.grasp?]) (by simp [BusStep.grasp?]) (.inl rfl) ?_ ?_
    · simp [perform, BusStep.sent]
    · simp [perform, BusStep.sent]
  | tryReceive =>
    by_cases h : b.holder = none
    · have hgrasp : BusStep.tryReceive.grasp? b = some .receive := by simp [BusStep.grasp?, h]
      cases hq : b.queue with
      | nil =>
        have hperform : b.perform .tryReceive = (b, some (.received none)) := by
          simp [perform, tryTake?, h, hq]
        rw [hperform]
        exact .keeps (fun _ => hq) (by simp [hgrasp]) (.inr rfl) (by simp [BusStep.sent]) rfl
      | cons e rest =>
        have hperform : b.perform .tryReceive =
            ({ b with queue := rest }, some (.received (some e))) := by
          simp [perform, tryTake?, h, hq]
        rw [hperform]
        exact .takes hgrasp hq rfl rfl rfl
    · have hgrasp : BusStep.tryReceive.grasp? b = none := by simp [BusStep.grasp?, h]
      have hperform : b.perform .tryReceive = (b, some (.received none)) := by
        cases hb : b.holder with
        | none => exact absurd hb h
        | some held => simp [perform, tryTake?, hb]
      rw [hperform]
      exact .keeps (by simp [hgrasp]) (by simp [hgrasp]) (.inr rfl) (by simp [BusStep.sent]) rfl

/-- A call with the receiving end goes on waiting, or it ends and gives the receiving end away. -/
theorem resume_of_holder {b : Bus} {id : CallId} {call : BusCall} (h : b.holder = some (id, call)) :
    b.resume id = (b, none) ∨ ∃ queue answer, b.resume id = ({ b with queue }.release, some answer) := by
  cases call with
  | clear => exact .inr ⟨[], _, resume_clear h⟩
  | receive =>
    cases hq : b.queue with
    | nil => exact .inl (resume_receive_nil h hq)
    | cons e rest => exact .inr ⟨rest, _, resume_receive_cons h hq⟩

/-- Nobody waits for the receiving end while it is free. -/
def Unawaited (b : Bus) : Prop := b.holder = none → b.waiting = []

theorem unawaited_release (b : Bus) : b.release.Unawaited := by
  intro h
  rw [release, List.head?_eq_none_iff] at h
  rw [release, h]
  rfl

theorem unawaited_resume {b : Bus} (h : b.Unawaited) (id : CallId) : (b.resume id).1.Unawaited := by
  by_cases hholder : ∃ call, b.holder = some (id, call)
  · obtain ⟨call, hholder⟩ := hholder
    rcases resume_of_holder hholder with hwaits | ⟨queue, answer, hends⟩
    · rw [hwaits]
      exact h
    · rw [hends]
      exact unawaited_release _
  · rw [resume_of_not_holder fun call hcall => hholder ⟨call, hcall⟩]
    exact h

theorem unawaited_abandon {b : Bus} (h : b.Unawaited) (id : CallId) : (b.abandon id).Unawaited := by
  rw [abandon]
  split
  case isTrue => exact unawaited_release b
  case isFalse =>
    intro hnone
    show b.waiting.filter _ = []
    rw [h hnone, List.filter_nil]

theorem Unawaited.perform {b : Bus} (h : b.Unawaited) (s : BusStep) : (b.perform s).1.Unawaited := by
  cases s with
  | publish e => exact h
  | tryReceive =>
    rw [Bus.perform, tryTake?]
    cases hb : b.holder with
    | some held => exact h
    | none =>
      cases b.queue with
      | nil => exact h
      | cons e rest => exact fun _ => h hb
  | begin id call =>
    show (b.begin id call).1.Unawaited
    by_cases hfree : b.holder = none
    · have hheld : { b with holder := some (id, call) }.Unawaited := fun hnone => by cases hnone
      rw [begin_of_free hfree]
      exact unawaited_resume hheld id
    · rw [begin_of_held hfree]
      exact fun hnone => absurd hnone hfree
  | resume id => exact unawaited_resume h id
  | expire id =>
    show (b.expire id).1.Unawaited
    cases hanswer : (b.resume id).2 with
    | some answer =>
      rw [expire_of_answer hanswer]
      exact unawaited_resume h id
    | none =>
      rw [expire_of_none hanswer]
      exact unawaited_abandon (unawaited_resume h id) id
  | abandon id => exact unawaited_abandon h id

end Bus

/-- The bus with what was published on it and what was taken from it so far, both in order. -/
structure Traffic where
  bus : Bus := {}
  sent : List Event := []
  taken : List Event := []
deriving DecidableEq

namespace Traffic

def step (x : Traffic) (s : BusStep) : Traffic where
  bus := (x.bus.perform s).1
  sent := x.sent ++ s.sent
  taken := x.taken ++ x.bus.takenBy (x.bus.perform s).2

def run (x : Traffic) (steps : List BusStep) : Traffic := steps.foldl step x

/-- What was taken and what is queued is what was published, in this order. -/
structure Accounted (x : Traffic) : Prop where
  conserved : x.taken ++ x.bus.queue = x.sent
  counted : x.bus.published = x.sent.length

theorem Accounted.step {x : Traffic} (h : x.Accounted) (s : BusStep) : (x.step s).Accounted := by
  obtain ⟨hconserved, hcounted⟩ := h
  have heffect := Bus.effect_perform x.bus s
  rw [Traffic.step]
  generalize (x.bus.perform s).1 = c, (x.bus.perform s).2 = answer at heffect
  cases heffect with
  | takes _ hqueue hrest hcount hsent =>
    rw [hqueue] at hconserved
    exact ⟨by simp [Bus.takenBy, hrest, hsent, ← hconserved], by simp [hcount, hsent, hcounted]⟩
  | clears _ hrest hcount hsent =>
    exact ⟨by simp [Bus.takenBy, hrest, hsent, hconserved], by simp [hcount, hsent, hcounted]⟩
  | keeps _ _ hanswer hrest hcount =>
    have htaken : x.bus.takenBy answer = [] := by rcases hanswer with rfl | rfl <;> rfl
    exact ⟨by simp [htaken, hrest, ← hconserved], by simp [hcount, hcounted]⟩

theorem Accounted.run {x : Traffic} (h : x.Accounted) (steps : List BusStep) :
    (x.run steps).Accounted := by
  induction steps generalizing x with
  | nil => exact h
  | cons s steps ih => exact ih (h.step s)

end Traffic

end ClusterWatch
