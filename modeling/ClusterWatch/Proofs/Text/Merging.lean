import ClusterWatch.Proofs.Interleaving
import ClusterWatch.Proofs.Text.Lines
import Mathlib.Data.Fintype.Basic
import Mathlib.Logic.Function.Basic

/-!
# Two pipes read as one

The two pipes of a node are merged: whoever asks for an item gets one of a pipe that has one, whichever pipe
is asked first. Reads arrive on the pipes in any order, between any two questions. Each pipe's items come out
as they would come out of the pipe alone (`Merging.merged_run`).
-/

namespace ClusterWatch.Text

/-! ## One pipe -/

/-- Takes the first line out of bytes that come after those of an unfinished line. -/
def takeLine (reversed : List UInt8) : List UInt8 → Option (PipeItem × List UInt8)
  | [] => none
  | b :: bytes => if b = lineFeed then some (endedLine reversed, bytes) else takeLine (b :: reversed) bytes

theorem feed_of_takeLine {reversed bytes rest : List UInt8} {item : PipeItem}
    (h : takeLine reversed bytes = some (item, rest)) :
    feed reversed bytes = (item :: (feed [] rest).1, (feed [] rest).2) := by
  induction bytes generalizing reversed with
  | nil => cases h
  | cons b bytes ih =>
    rw [takeLine] at h
    rw [feed]
    by_cases hb : b = lineFeed
    · rw [if_pos hb] at h ⊢
      cases h
      rfl
    · rw [if_neg hb] at h ⊢
      exact ih h

theorem feed_of_takeLine_eq_none {reversed bytes : List UInt8} (h : takeLine reversed bytes = none) :
    feed reversed bytes = ([], bytes.reverse ++ reversed) := by
  induction bytes generalizing reversed with
  | nil => rfl
  | cons b bytes ih =>
    rw [takeLine] at h
    rw [feed]
    by_cases hb : b = lineFeed
    · rw [if_pos hb] at h
      cases h
    · rw [if_neg hb] at h ⊢
      rw [ih h, List.reverse_cons, List.append_assoc]
      rfl

/-- What a question for an item leads to. -/
inductive Polled
  | item (i : PipeItem)
  | pending
  | ended
deriving DecidableEq, Repr

namespace Polled

def item? : Polled → Option PipeItem
  | .item i => some i
  | .pending | .ended => none

/-- Nothing comes after the end or a failure. -/
def isLast : Polled → Bool
  | .ended | .item (.failure _) => true
  | .pending | .item (.line _) => false

end Polled

/-- Goes on reading until there is an item, the end or nothing to read. Gives also the bytes of the unfinished
line then, and the reads that are left. A read whose bytes hold more than a line is left with the others. -/
def readOn (hungUp : Bool) (reversed : List UInt8) : List Read → Polled × List UInt8 × List Read
  | [] =>
    if hungUp then
      match unendedLine reversed with
      | [] => (.ended, [], [])
      | line :: _ => (.item line, [], [])
    else (.pending, reversed, [])
  | .failure text :: reads => (.item (.failure text), [], reads)
  | .bytes [] :: reads =>
    match unendedLine reversed with
    | [] => (.ended, [], reads)
    | line :: _ => (.item line, [], reads)
  | .bytes chunk :: reads =>
    match takeLine reversed chunk with
    | some (line, []) => (.item line, [], reads)
    | some (line, rest) => (.item line, [], .bytes rest :: reads)
    | none => readOn hungUp (chunk.reverse ++ reversed) reads

theorem unendedLine_cases (reversed : List UInt8) :
    (reversed = [] ∧ unendedLine reversed = []) ∨
      ∃ text, reversed ≠ [] ∧ unendedLine reversed = [.line text] := by
  cases reversed with
  | nil => exact .inl ⟨rfl, rfl⟩
  | cons b bytes => exact .inr ⟨_, List.cons_ne_nil _ _, rfl⟩

theorem itemsFrom_cons {chunk : List UInt8} (h : chunk ≠ []) (reversed : List UInt8) (reads : List Read) :
    itemsFrom reversed (.bytes chunk :: reads) =
      (feed reversed chunk).1 ++ itemsFrom (feed reversed chunk).2 reads := by
  have hchunks : ∀ c ∈ [chunk], c ≠ [] := by simpa using h
  simpa using itemsFrom_append reversed hchunks reads

theorem isLast_of_takeLine {reversed bytes rest : List UInt8} {item : PipeItem}
    (h : takeLine reversed bytes = some (item, rest)) : (Polled.item item).isLast = false := by
  induction bytes generalizing reversed with
  | nil => cases h
  | cons b bytes ih =>
    rw [takeLine] at h
    split at h
    · cases h
      rfl
    · exact ih h

/-- What a pipe delivers is the item that comes next, and then what it delivers from there. -/
theorem itemsFrom_readOn {hungUp : Bool} {coming : List Read} (h : hungUp = true → coming = [])
    (reversed : List UInt8) (arrived : List Read) :
    itemsFrom reversed (arrived ++ coming) =
      (readOn hungUp reversed arrived).1.item?.toList ++
        if (readOn hungUp reversed arrived).1.isLast then []
        else itemsFrom (readOn hungUp reversed arrived).2.1 ((readOn hungUp reversed arrived).2.2 ++ coming) := by
  induction arrived generalizing reversed with
  | nil =>
    cases hungUp with
    | false => rfl
    | true =>
      rw [h rfl, readOn, if_pos rfl, List.append_nil, itemsFrom]
      obtain ⟨-, hline⟩ | ⟨text, -, hline⟩ := unendedLine_cases reversed
      · rw [hline]
        rfl
      · rw [hline]
        rfl
  | cons read arrived ih =>
    cases read with
    | failure text => rfl
    | bytes chunk =>
      cases chunk with
      | nil =>
        rw [List.cons_append, itemsFrom, readOn]
        obtain ⟨hnil, hline⟩ | ⟨text, hne, hline⟩ := unendedLine_cases reversed
        · rw [hline, hnil]
          rfl
        · rw [hline, if_neg (by simpa using hne)]
          rfl
      | cons b bytes =>
        rw [List.cons_append, itemsFrom_cons (List.cons_ne_nil b bytes), readOn]
        · cases htake : takeLine reversed (b :: bytes) with
          | none =>
            rw [feed_of_takeLine_eq_none htake]
            exact ih _
          | some taken =>
            obtain ⟨line, rest⟩ := taken
            have hlast := isLast_of_takeLine htake
            rw [feed_of_takeLine htake]
            cases rest with
            | nil =>
              simp only [hlast]
              rfl
            | cons c rest =>
              simp only [hlast, List.cons_append, itemsFrom_cons (List.cons_ne_nil c rest)]
              rfl
        · exact fun hnil => by cases hnil

theorem readOn_ne_pending (reversed : List UInt8) (arrived : List Read) :
    (readOn true reversed arrived).1 ≠ .pending := by
  induction arrived generalizing reversed with
  | nil =>
    rw [readOn, if_pos rfl]
    split <;> simp
  | cons read arrived ih =>
    cases read with
    | failure text => simp [readOn]
    | bytes chunk =>
      cases chunk with
      | nil =>
        rw [readOn]
        split <;> simp
      | cons b bytes =>
        rw [readOn]
        · split
          · simp
          · simp
          · exact ih _
        · exact fun hnil => by cases hnil

/-- The reader of a pipe. It may read what has arrived; the other end may have hung up when nothing else
comes. -/
structure PipeReader where
  /-- The bytes of the unfinished line, in reverse order. -/
  unfinished : List UInt8 := []
  arrived : List Read := []
  coming : List Read
  hungUp : Bool := false
  closed : Bool := false
  nothingComing : hungUp = true → coming = []

namespace PipeReader

/-- The next read arrives, or the end. -/
def arrive (r : PipeReader) : PipeReader :=
  match r.coming with
  | [] => { r with coming := [], hungUp := true, nothingComing := fun _ => rfl }
  | read :: coming =>
    { r with arrived := r.arrived ++ [read], coming, hungUp := false, nothingComing := fun h => nomatch h }

/-- The reader is asked for an item. -/
def poll (r : PipeReader) : Polled × PipeReader :=
  if r.closed then (.ended, r)
  else
    ((readOn r.hungUp r.unfinished r.arrived).1,
      { r with
        unfinished := (readOn r.hungUp r.unfinished r.arrived).2.1
        arrived := (readOn r.hungUp r.unfinished r.arrived).2.2
        closed := (readOn r.hungUp r.unfinished r.arrived).1.isLast })

/-- The items that the pipe still delivers. -/
def left (r : PipeReader) : List PipeItem :=
  if r.closed then [] else itemsFrom r.unfinished (r.arrived ++ r.coming)

theorem left_arrive (r : PipeReader) : r.arrive.left = r.left := by
  obtain ⟨unfinished, arrived, coming, hungUp, closed, hcoming⟩ := r
  cases coming with
  | nil => rfl
  | cons read coming =>
    simp only [arrive, left, List.append_assoc]
    rfl

theorem left_poll (r : PipeReader) : r.left = r.poll.1.item?.toList ++ r.poll.2.left := by
  obtain ⟨unfinished, arrived, coming, hungUp, closed, hcoming⟩ := r
  cases closed with
  | true => rfl
  | false => exact itemsFrom_readOn hcoming unfinished arrived

theorem left_of_ended {r : PipeReader} (h : r.poll.1 = .ended) : r.left = [] := by
  have hleft := r.left_poll
  obtain ⟨unfinished, arrived, coming, hungUp, closed, hcoming⟩ := r
  cases closed with
  | true => rfl
  | false =>
    have hended : (readOn hungUp unfinished arrived).1 = .ended := h
    rw [hleft, h, left, poll]
    simp [hended, Polled.isLast, Polled.item?]

theorem poll_ne_pending {r : PipeReader} (h : r.hungUp = true) : r.poll.1 ≠ .pending := by
  obtain ⟨unfinished, arrived, coming, hungUp, closed, hcoming⟩ := r
  cases h
  cases closed with
  | true => exact fun h => nomatch h
  | false => exact readOn_ne_pending unfinished arrived

@[simp] theorem hungUp_poll (r : PipeReader) : r.poll.2.hungUp = r.hungUp := by
  rw [poll]
  split <;> rfl

/-- With the other end hung up, the next item is there as soon as it is asked for. -/
theorem poll_eq_item {r : PipeReader} (h : r.hungUp = true) {i : PipeItem} {items : List PipeItem}
    (hleft : r.left = i :: items) : r.poll.1 = .item i ∧ r.poll.2.left = items := by
  have hpoll := r.left_poll
  cases hanswer : r.poll.1 with
  | pending => exact absurd hanswer (poll_ne_pending h)
  | ended =>
    rw [left_of_ended hanswer] at hleft
    cases hleft
  | item j =>
    rw [hanswer, hleft] at hpoll
    cases hpoll
    exact ⟨rfl, rfl⟩

theorem poll_eq_ended {r : PipeReader} (h : r.hungUp = true) (hleft : r.left = []) : r.poll.1 = .ended := by
  cases hanswer : r.poll.1 with
  | pending => exact absurd hanswer (poll_ne_pending h)
  | ended => rfl
  | item j =>
    have hpoll := r.left_poll
    rw [hanswer, hleft] at hpoll
    cases hpoll

theorem exists_hungUp (r : PipeReader) : ∃ n, (arrive^[n] r).hungUp = true := by
  obtain ⟨unfinished, arrived, coming, hungUp, closed, hcoming⟩ := r
  induction coming generalizing arrived hungUp with
  | nil => exact ⟨1, rfl⟩
  | cons read coming ih =>
    obtain ⟨n, hn⟩ := ih (arrived ++ [read]) false fun h => nomatch h
    exact ⟨n + 1, hn⟩

end PipeReader

/-! ## Two pipes -/

/-- The pipes of a node. -/
inductive Pipe
  | standard
  | errors
deriving DecidableEq, Repr

instance : Fintype Pipe := ⟨{.standard, .errors}, fun p => by cases p <;> decide⟩

def Pipe.other : Pipe → Pipe
  | .standard => .errors
  | .errors => .standard

/-- The two pipes, and what has come out of them, each item with its pipe. -/
structure Merging where
  pipes : Pipe → PipeReader
  delivered : List (Pipe × PipeItem) := []

inductive MergeStep
  | arrive (p : Pipe)
  | poll (first : Pipe)
deriving DecidableEq, Repr

namespace Merging

/-- Two pipes on which these reads come. -/
def start (reads : Pipe → List Read) : Merging where
  pipes p := { coming := reads p, hungUp := false, nothingComing := fun h => nomatch h }

/-- One pipe is asked for an item. -/
def ask (m : Merging) (p : Pipe) : Polled × Merging :=
  ((m.pipes p).poll.1,
    { pipes := Function.update m.pipes p (m.pipes p).poll.2
      delivered := m.delivered ++ (m.pipes p).poll.1.item?.toList.map (p, ·) })

/-- The merged pipes are asked: one of the pipes first, and the other if that one has no item. Both have to
be at their end for the merged ones to be. -/
def poll (m : Merging) (first : Pipe) : Polled × Merging :=
  match m.ask first with
  | (.item i, m) => (.item i, m)
  | (.ended, m) => m.ask first.other
  | (.pending, m) =>
    match m.ask first.other with
    | (.ended, m) => (.pending, m)
    | answer => answer

def step (m : Merging) : MergeStep → Merging
  | .arrive p => { m with pipes := Function.update m.pipes p (m.pipes p).arrive }
  | .poll first => (m.poll first).2

def run (m : Merging) (steps : List MergeStep) : Merging := steps.foldl step m

/-- The items of a pipe: those that have come out of it, and those that it still delivers. -/
def items (m : Merging) (p : Pipe) : List PipeItem := share p m.delivered ++ (m.pipes p).left

theorem items_ask (m : Merging) (q p : Pipe) : (m.ask q).2.items p = m.items p := by
  simp only [items, ask, share_append, List.append_assoc]
  by_cases h : q = p
  · subst h
    rw [share_map_self, Function.update_self, ← PipeReader.left_poll]
  · rw [share_map_of_ne h, Function.update_of_ne (Ne.symm h)]
    rfl

/-- A question to the merged pipes is one to the first pipe, perhaps followed by one to the other. -/
theorem poll_cases (m : Merging) (first : Pipe) :
    (∃ i, (m.ask first).1 = .item i ∧ m.poll first = (.item i, (m.ask first).2)) ∨
      ((m.ask first).1.item? = none ∧ (m.poll first).2 = ((m.ask first).2.ask first.other).2 ∧
        (m.poll first).1.item? = ((m.ask first).2.ask first.other).1.item? ∧
        ((m.poll first).1 = .ended ↔
          (m.ask first).1 = .ended ∧ ((m.ask first).2.ask first.other).1 = .ended)) := by
  rw [poll]
  obtain ⟨answer, m⟩ := m.ask first
  cases answer with
  | item i => exact .inl ⟨i, rfl, rfl⟩
  | ended => exact .inr ⟨rfl, rfl, rfl, by simp⟩
  | pending =>
    refine .inr ⟨rfl, ?_⟩
    dsimp only
    obtain ⟨answer, m⟩ := m.ask first.other
    cases answer <;> simp [Polled.item?]

theorem items_poll (m : Merging) (first p : Pipe) : (m.poll first).2.items p = m.items p := by
  obtain ⟨i, -, hpoll⟩ | ⟨-, hpoll, -⟩ := m.poll_cases first
  · rw [hpoll, items_ask]
  · rw [hpoll, items_ask, items_ask]

theorem items_step (m : Merging) (s : MergeStep) (p : Pipe) : (m.step s).items p = m.items p := by
  cases s with
  | poll first => exact m.items_poll first p
  | arrive q =>
    simp only [items, step]
    by_cases h : q = p
    · subst h
      rw [Function.update_self, PipeReader.left_arrive]
    · rw [Function.update_of_ne (Ne.symm h)]

theorem items_run (m : Merging) (steps : List MergeStep) (p : Pipe) : (m.run steps).items p = m.items p := by
  induction steps generalizing m with
  | nil => rfl
  | cons s steps ih => exact (ih (m.step s)).trans (m.items_step s p)

theorem items_start (reads : Pipe → List Read) (p : Pipe) : (start reads).items p = pipeItems (reads p) := rfl

/-! ### Progress -/

theorem pipes_ask_self (m : Merging) (p : Pipe) : (m.ask p).2.pipes p = (m.pipes p).poll.2 :=
  Function.update_self ..

theorem pipes_ask_of_ne (m : Merging) {p q : Pipe} (h : q ≠ p) : (m.ask p).2.pipes q = m.pipes q :=
  Function.update_of_ne h ..

theorem other_ne (p : Pipe) : p.other ≠ p := by cases p <;> decide

theorem eq_or_eq_other (first p : Pipe) : p = first ∨ p = first.other := by
  cases first <;> cases p <;> decide

theorem left_of_ended {m : Merging} {first : Pipe} (h : (m.poll first).1 = .ended) (p : Pipe) :
    (m.pipes p).left = [] := by
  obtain ⟨i, -, hpoll⟩ | ⟨-, -, -, hended⟩ := m.poll_cases first
  · rw [hpoll] at h
    cases h
  · obtain ⟨hfirst, hother⟩ := hended.1 h
    obtain rfl | rfl := eq_or_eq_other first p
    · exact PipeReader.left_of_ended hfirst
    · rw [ask, pipes_ask_of_ne m (other_ne first)] at hother
      exact PipeReader.left_of_ended hother

/-- Whichever pipe is asked first, an item of either is a reason to answer with one. -/
theorem item?_poll_ne_none {m : Merging} (first : Pipe) {p : Pipe} (h : (m.pipes p).poll.1.item? ≠ none) :
    (m.poll first).1.item? ≠ none := by
  obtain ⟨i, -, hpoll⟩ | ⟨hfirst, -, hother, -⟩ := m.poll_cases first
  · rw [hpoll]
    exact Option.some_ne_none i
  · obtain rfl | rfl := eq_or_eq_other first p
    · exact absurd hfirst h
    · rwa [hother, ask, pipes_ask_of_ne m (other_ne first)]

theorem map_snd_delivered_ask (m : Merging) (p : Pipe) :
    (m.ask p).2.delivered.map (·.2) = m.delivered.map (·.2) ++ (m.ask p).1.item?.toList := by
  simp [ask, Function.comp_def]

theorem map_snd_delivered_poll (m : Merging) (first : Pipe) :
    (m.poll first).2.delivered.map (·.2) = m.delivered.map (·.2) ++ (m.poll first).1.item?.toList := by
  obtain ⟨i, hfirst, hpoll⟩ | ⟨hfirst, hpoll, hother, -⟩ := m.poll_cases first
  · rw [hpoll, map_snd_delivered_ask, hfirst]
  · rw [hpoll, map_snd_delivered_ask, map_snd_delivered_ask, hfirst, hother]
    simp

/-- Nothing else arrives on either pipe. -/
def HungUp (m : Merging) : Prop := ∀ p, (m.pipes p).hungUp = true

theorem HungUp.ask {m : Merging} (h : m.HungUp) (p : Pipe) : (m.ask p).2.HungUp := by
  intro q
  by_cases hq : q = p
  · subst hq
    rw [pipes_ask_self, PipeReader.hungUp_poll]
    exact h q
  · rw [pipes_ask_of_ne m hq]
    exact h q

theorem HungUp.poll {m : Merging} (h : m.HungUp) (first : Pipe) : (m.poll first).2.HungUp := by
  obtain ⟨i, -, hpoll⟩ | ⟨-, hpoll, -⟩ := m.poll_cases first
  · rw [hpoll]
    exact h.ask first
  · rw [hpoll]
    exact (h.ask first).ask _

theorem HungUp.poll_ne_pending {m : Merging} (h : m.HungUp) (first : Pipe) : (m.poll first).1 ≠ .pending := by
  have hask {m : Merging} (h : m.HungUp) (p : Pipe) : (m.ask p).1 ≠ .pending := PipeReader.poll_ne_pending (h p)
  obtain ⟨i, -, hpoll⟩ | ⟨hfirst, -, hother, hended⟩ := m.poll_cases first
  · rw [hpoll]
    exact fun hitem => nomatch hitem
  · have hone := hask h first
    have htwo := hask (h.ask first) first.other
    intro hpending
    rw [hpending] at hother hended
    generalize (m.ask first).1 = answer at *
    generalize ((m.ask first).2.ask first.other).1 = answer' at *
    cases answer <;> cases answer' <;> simp_all [Polled.item?]

/-- The number of items that the pipes still deliver. -/
def remaining (m : Merging) : Nat := (m.pipes .standard).left.length + (m.pipes .errors).left.length

theorem remaining_ask (m : Merging) (p : Pipe) :
    m.remaining = (m.ask p).1.item?.toList.length + (m.ask p).2.remaining := by
  have hleft := congrArg List.length (m.pipes p).left_poll
  rw [List.length_append] at hleft
  cases p <;> simp only [remaining, ask, Function.update] at * <;> simp <;> omega

theorem remaining_poll (m : Merging) (first : Pipe) :
    m.remaining = (m.poll first).1.item?.toList.length + (m.poll first).2.remaining := by
  obtain ⟨i, hfirst, hpoll⟩ | ⟨hfirst, hpoll, hother, -⟩ := m.poll_cases first
  · rw [m.remaining_ask first, hpoll, hfirst]
  · rw [m.remaining_ask first, (m.ask first).2.remaining_ask first.other, hpoll, hother, hfirst]
    exact Nat.zero_add _

theorem remaining_of_left {m : Merging} (h : ∀ p, (m.pipes p).left = []) : m.remaining = 0 := by
  simp [remaining, h]

theorem HungUp.remaining_poll {m : Merging} (h : m.HungUp) (first : Pipe) :
    (m.poll first).2.remaining = m.remaining - 1 := by
  have hpoll := m.remaining_poll first
  cases hanswer : (m.poll first).1 with
  | pending => exact absurd hanswer (h.poll_ne_pending first)
  | ended =>
    have hzero := remaining_of_left (left_of_ended hanswer)
    omega
  | item i =>
    rw [hanswer] at hpoll
    simp only [Polled.item?, Option.toList_some, List.length_singleton] at hpoll
    omega

theorem HungUp.poll_eq_ended {m : Merging} (h : m.HungUp) (hzero : m.remaining = 0) (first : Pipe) :
    (m.poll first).1 = .ended := by
  have hpoll := m.remaining_poll first
  cases hanswer : (m.poll first).1 with
  | pending => exact absurd hanswer (h.poll_ne_pending first)
  | ended => rfl
  | item i =>
    rw [hanswer, hzero] at hpoll
    simp only [Polled.item?, Option.toList_some, List.length_singleton] at hpoll
    omega

theorem HungUp.run_polls {m : Merging} (h : m.HungUp) (polls : List Pipe) :
    (m.run (polls.map .poll)).HungUp ∧
      (m.run (polls.map .poll)).remaining = m.remaining - polls.length := by
  induction polls generalizing m with
  | nil => exact ⟨h, rfl⟩
  | cons first polls ih =>
    obtain ⟨hrun, hremaining⟩ := ih (h.poll first)
    refine ⟨hrun, hremaining.trans ?_⟩
    rw [h.remaining_poll, List.length_cons]
    omega

/-! ### Pipes in turn -/

theorem poll_of_left {m : Merging} (h : m.HungUp) {p : Pipe} {i : PipeItem} {items : List PipeItem}
    (hleft : (m.pipes p).left = i :: items) :
    (m.poll p).2.HungUp ∧ (m.poll p).2.delivered.map (·.2) = m.delivered.map (·.2) ++ [i] ∧
      ((m.poll p).2.pipes p).left = items ∧ (m.poll p).2.pipes p.other = m.pipes p.other := by
  obtain ⟨hitem, hitems⟩ := PipeReader.poll_eq_item (h p) hleft
  have hpoll : m.poll p = (.item i, (m.ask p).2) := by
    obtain ⟨j, hask, hpoll⟩ | ⟨hask, -⟩ := m.poll_cases p
    · cases hitem.symm.trans hask
      exact hpoll
    · rw [ask, hitem] at hask
      cases hask
  refine ⟨h.poll p, ?_, ?_, ?_⟩
  · rw [map_snd_delivered_poll, hpoll]
    rfl
  · rw [hpoll, pipes_ask_self, hitems]
  · rw [hpoll, pipes_ask_of_ne m (other_ne p)]

/-- Asking one pipe first and then the other is one of the orders. -/
theorem HungUp.exists_alternate {m : Merging} (h : m.HungUp) (p : Pipe) :
    ∃ polls : List Pipe, (m.run (polls.map .poll)).HungUp ∧ (m.run (polls.map .poll)).remaining = 0 ∧
      (m.run (polls.map .poll)).delivered.map (·.2) =
        m.delivered.map (·.2) ++ alternate (m.pipes p).left (m.pipes p.other).left := by
  induction hn : (m.pipes p).left.length + (m.pipes p.other).left.length generalizing m p with
  | zero =>
    have hp : (m.pipes p).left = [] := List.length_eq_zero_iff.1 (by omega)
    have hother : (m.pipes p.other).left = [] := List.length_eq_zero_iff.1 (by omega)
    refine ⟨[], h, remaining_of_left fun q => ?_, ?_⟩
    · obtain rfl | rfl := eq_or_eq_other p q
      · exact hp
      · exact hother
    · rw [hp, hother, alternate]
      exact (List.append_nil _).symm
  | succ n ih =>
    have hothers : p.other.other = p := by cases p <;> rfl
    cases hp : (m.pipes p).left with
    | cons i items =>
      obtain ⟨hhung, hdelivered, hitems, hother⟩ := poll_of_left h hp
      obtain ⟨polls, hrun, hzero, hall⟩ := ih hhung p.other (by rw [hothers, hitems, hother]; simp [hp] at hn; omega)
      refine ⟨p :: polls, hrun, hzero, hall.trans ?_⟩
      rw [hdelivered, hothers, hitems, hother, alternate]
      simp
    | nil =>
      cases hq : (m.pipes p.other).left with
      | nil => simp [hp, hq] at hn
      | cons i items =>
        obtain ⟨hhung, hdelivered, hitems, hother⟩ := poll_of_left h hq
        rw [hothers] at hother
        obtain ⟨polls, hrun, hzero, hall⟩ := ih hhung p (by rw [hitems, hother]; simp [hp, hq] at hn ⊢; omega)
        refine ⟨p.other :: polls, hrun, hzero, hall.trans ?_⟩
        rw [hdelivered, hitems, hother, hp, alternate, alternate]
        simp

theorem run_arrive (m : Merging) (p : Pipe) (n : Nat) :
    m.run (List.replicate n (.arrive p)) =
      { m with pipes := Function.update m.pipes p (PipeReader.arrive^[n] (m.pipes p)) } := by
  induction n generalizing m with
  | zero => simp [run]
  | succ n ih =>
    refine (ih (m.step (.arrive p))).trans ?_
    simp [step]

theorem run_append (m : Merging) (before after : List MergeStep) :
    m.run (before ++ after) = (m.run before).run after := List.foldl_append

/-- Everything arrives before the first question. -/
theorem exists_hungUp (reads : Pipe → List Read) :
    ∃ steps, ((start reads).run steps).HungUp ∧ ((start reads).run steps).delivered = [] := by
  obtain ⟨n, hn⟩ := ((start reads).pipes .standard).exists_hungUp
  obtain ⟨k, hk⟩ := ((start reads).pipes .errors).exists_hungUp
  refine ⟨List.replicate n (.arrive .standard) ++ List.replicate k (.arrive .errors), ?_⟩
  rw [run_append, run_arrive, run_arrive]
  refine ⟨fun p => ?_, rfl⟩
  cases p with
  | standard => simpa using hn
  | errors => simpa using hk

theorem left_of_delivered {m : Merging} (h : m.delivered = []) (p : Pipe) : (m.pipes p).left = m.items p := by
  rw [items, h]
  rfl

/-- Pipes read in turn are merged pipes. -/
theorem exists_run_alternate (reads : Pipe → List Read) :
    ∃ steps, (∀ first, (((start reads).run steps).poll first).1 = .ended) ∧
      ((start reads).run steps).delivered.map (·.2) =
        alternate (pipeItems (reads .standard)) (pipeItems (reads .errors)) := by
  obtain ⟨steps, hhung, hnone⟩ := exists_hungUp reads
  obtain ⟨polls, hrun, hzero, hall⟩ := hhung.exists_alternate .standard
  refine ⟨steps ++ polls.map .poll, ?_⟩
  rw [run_append]
  refine ⟨hrun.poll_eq_ended hzero, hall.trans ?_⟩
  rw [left_of_delivered hnone, left_of_delivered hnone, items_run, items_run, hnone]
  rfl

/-! ### The result -/

/-- What holds of merged pipes with these reads at any moment. -/
structure Merged (reads : Pipe → List Read) (m : Merging) : Prop where
  /-- What has come out of a pipe is the first part of what it delivers alone. -/
  ahead : ∀ p, share p m.delivered <+: pipeItems (reads p)
  /-- The answer to a question is what comes out next. -/
  answered : ∀ first, (m.poll first).2.delivered.map (·.2) =
    m.delivered.map (·.2) ++ (m.poll first).1.item?.toList
  /-- An item that either pipe has is enough, also if the other has none, or none any more. -/
  ready : ∀ first p, (m.pipes p).poll.1.item? ≠ none → (m.poll first).1.item? ≠ none
  /-- At the end nothing is missing. -/
  whole : ∀ first, (m.poll first).1 = .ended → ∀ p, share p m.delivered = pipeItems (reads p)
  /-- When everything has arrived, the end is as many questions away as there are items. -/
  drained : (∀ p, (m.pipes p).hungUp = true) → ∀ polls : List Pipe,
    (pipeItems (reads .standard)).length + (pipeItems (reads .errors)).length ≤ polls.length →
    ∀ first, ((m.run (polls.map .poll)).poll first).1 = .ended

/-- Pipes are merged whatever the order in which reads arrive and items are asked for. -/
theorem merged_run (reads : Pipe → List Read) (steps : List MergeStep) :
    Merged reads ((start reads).run steps) := by
  have hitems (p : Pipe) : ((start reads).run steps).items p = pipeItems (reads p) :=
    (items_run _ steps p).trans (items_start reads p)
  constructor
  case ahead => exact fun p => ⟨_, hitems p⟩
  case answered => exact map_snd_delivered_poll _
  case ready => exact fun first p => item?_poll_ne_none first
  case whole =>
    intro first h p
    rw [← hitems p, items, left_of_ended h, List.append_nil]
  case drained =>
    intro hhung polls hlength first
    obtain ⟨hrun, hremaining⟩ := HungUp.run_polls hhung polls
    refine hrun.poll_eq_ended ?_ first
    have hbound (p : Pipe) : (((start reads).run steps).pipes p).left.length ≤ (pipeItems (reads p)).length := by
      rw [← hitems p, items, List.length_append]
      exact Nat.le_add_left ..
    rw [hremaining, remaining]
    have hstandard := hbound .standard
    have herrors := hbound .errors
    omega

end Merging
end ClusterWatch.Text
