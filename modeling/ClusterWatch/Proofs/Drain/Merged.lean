import ClusterWatch.Drain
import ClusterWatch.Proofs.Drain.Reference
import ClusterWatch.Proofs.Line.FirstMatch
import ClusterWatch.Proofs.Text.Merging

/-!
# A drain over merged pipes

The drain of a node reads its two pipes as one. While the session runs it tells the events of the lines up to
the first failure of either pipe, then one error, and it reads both pipes to their end
(`Drain.run_of_merged`).
-/

namespace ClusterWatch
open Line Text

/-! ## Failures -/

def Text.PipeItem.isLine : PipeItem → Bool
  | .line _ => true
  | .failure _ => false

/-- The error of the node as which a failure is reported. -/
def Arrival.notice? (node : NodeId) (a : Arrival) : Option Event :=
  match a.item with
  | .line _ => none
  | .failure text => some { node, payload := .error text, observedAt := a.time }

/-- What the lines before the first failure tell. -/
def toldBefore (arrivals : List Arrival) : List Event :=
  (arrivals.takeWhile (·.item.isLine)).filterMap Arrival.event?

/-- The first failure of any pipe, as it is reported. -/
def firstNotice? (node : NodeId) (arrivals : List Arrival) : Option Event :=
  arrivals.findSome? (·.notice? node)

/-- No line tells an error. -/
theorem kind_ne_error_of_classify {line : List Char} {r : Report} (h : classify line = some r) :
    r.payload.kind ≠ .error := by
  obtain ⟨rule, hrule, happly⟩ := List.exists_of_findSome?_eq_some h
  obtain ⟨runs, -, hsays⟩ := (Rule.apply_eq_some_iff hrule).1 happly
  cases hsays <;> exact fun hkind => nomatch hkind

theorem kind_ne_error_of_event? {a : Arrival} {e : Event} (h : a.event? = some e) : e.payload.kind ≠ .error := by
  obtain ⟨item, running, time⟩ := a
  cases item with
  | failure text => cases h
  | line text =>
    obtain ⟨r, hclassify, rfl⟩ := Option.map_eq_some_iff.1 h
    exact kind_ne_error_of_classify hclassify

theorem isHeard_eq {a : Arrival} (h : a.running = true) : a.isHeard = a.item.isLine := by
  obtain ⟨item, running, time⟩ := a
  cases item with
  | line text => exact h
  | failure text => rfl

/-- What a drain does with items while the session runs. -/
structure Drain.Reports (node : NodeId) (f : Feed) (arrivals : List Arrival) (d : Drain) (f' : Feed) : Prop where
  /-- The lines before the first failure are told, and then that failure, if there is one. -/
  published : f'.bus.queue = f.bus.queue ++ toldBefore arrivals ++ (firstNotice? node arrivals).toList
  /-- The only error that is told is that of the first failure. -/
  errors : (toldBefore arrivals ++ (firstNotice? node arrivals).toList).filter (·.payload.kind = .error) =
    (firstNotice? node arrivals).toList
  observed : f'.tracker = (toldBefore arrivals).foldl (fun t e => t.observe e.toReport) f.tracker
  outcome : d.outcome = if (firstNotice? node arrivals).isSome then .failed else .endOfStream
  /-- Every item is read: the lines before the first failure, the failure, and all that comes after it. -/
  read : d.lines + (firstNotice? node arrivals).toList.length + d.discarded = arrivals.length
  counted : d.events = (toldBefore arrivals).length + (firstNotice? node arrivals).toList.length

namespace Drain

theorem filter_kind_error (node : NodeId) (arrivals : List Arrival) :
    (toldBefore arrivals ++ (firstNotice? node arrivals).toList).filter (·.payload.kind = .error) =
      (firstNotice? node arrivals).toList := by
  have htold : (toldBefore arrivals).filter (·.payload.kind = .error) = [] := by
    rw [List.filter_eq_nil_iff]
    intro e he
    obtain ⟨a, -, hevent⟩ := List.mem_filterMap.1 he
    simpa using kind_ne_error_of_event? hevent
  have hnotice : ∀ e ∈ (firstNotice? node arrivals).toList, decide (e.payload.kind = .error) = true := by
    intro e he
    obtain ⟨a, -, hnotice⟩ := List.exists_of_findSome?_eq_some (Option.mem_toList.1 he)
    obtain ⟨item, running, time⟩ := a
    cases item with
    | line text => cases hnotice
    | failure text =>
      cases hnotice
      rfl
  rw [List.filter_append, htold, List.filter_eq_self.2 hnotice]
  rfl

theorem span_isHeard {arrivals : List Arrival} (h : ∀ a ∈ arrivals, a.running = true) :
    arrivals.takeWhile Arrival.isHeard = arrivals.takeWhile (·.item.isLine) ∧
      arrivals.dropWhile Arrival.isHeard = arrivals.dropWhile (·.item.isLine) := by
  induction arrivals with
  | nil => exact ⟨rfl, rfl⟩
  | cons a arrivals ih =>
    obtain ⟨ha, harrivals⟩ := List.forall_mem_cons.1 h
    obtain ⟨htake, hdrop⟩ := ih harrivals
    simp only [List.takeWhile_cons, List.dropWhile_cons, isHeard_eq ha, htake, hdrop, and_self]

theorem firstNotice?_eq (node : NodeId) (arrivals : List Arrival) :
    firstNotice? node arrivals = (arrivals.dropWhile (·.item.isLine)).head?.bind (·.notice? node) := by
  induction arrivals with
  | nil => rfl
  | cons a arrivals ih =>
    obtain ⟨item, running, time⟩ := a
    cases item with
    | line text => exact ih
    | failure text => rfl

/-- A drain reports what arrives while the session runs. -/
theorem reports_run (node : NodeId) (f : Feed) {arrivals : List Arrival}
    (h : ∀ a ∈ arrivals, a.running = true) :
    Reports node f arrivals (run { node } f arrivals).1 (run { node } f arrivals).2 := by
  have hsplit : arrivals.takeWhile (·.item.isLine) ++ arrivals.dropWhile (·.item.isLine) = arrivals :=
    List.takeWhile_append_dropWhile
  have hlength := congrArg List.length hsplit
  have hstop := List.head?_dropWhile_not (fun a : Arrival => a.item.isLine) arrivals
  have hfirst := firstNotice?_eq node arrivals
  have herrors := filter_kind_error node arrivals
  obtain ⟨htake, hdrop⟩ := span_isHeard h
  rw [List.length_append] at hlength
  rw [run_eq_reference, reference, htake, hdrop]
  cases hrest : arrivals.dropWhile (·.item.isLine) with
  | nil =>
    rw [hrest] at hfirst hlength
    refine ⟨?_, herrors, rfl, ?_, ?_, ?_⟩
    · rw [hfirst]
      simp [Feed.pass, foldl_publish, toldBefore]
    · rw [hfirst]
      rfl
    · rw [hfirst]
      simpa using hlength
    · rw [hfirst]
      rfl
  | cons stopper rest =>
    rw [hrest] at hfirst hstop hlength
    have hrunning : stopper.running = true :=
      h stopper (hsplit ▸ List.mem_append_right _ (hrest ▸ List.mem_cons_self))
    obtain ⟨item, running, time⟩ := stopper
    cases hrunning
    cases item with
    | line text => simp [PipeItem.isLine] at hstop
    | failure text =>
      refine ⟨?_, herrors, rfl, ?_, ?_, ?_⟩
      · rw [hfirst]
        simp [Arrival.notice?, Feed.pass, foldl_publish, toldBefore, Bus.publish]
      · rw [hfirst]
        rfl
      · rw [hfirst, ← hlength]
        simp only [Arrival.notice?, List.head?_cons, Option.bind_some, Option.toList_some,
          List.length_cons, List.length_nil]
        omega
      · rw [hfirst]
        rfl

/-- A drain over the merged pipes of a node reports what they deliver, in whatever order reads arrive and items
are asked for. When the merged pipes end, it has read all that both pipes deliver. To read the pipes in turn is
one of the orders. -/
theorem run_of_merged (reads : Pipe → List Read) (steps : List MergeStep) {arrivals : List Arrival}
    (hitems : arrivals.map (·.item) = ((Merging.start reads).run steps).delivered.map (·.2))
    (hrunning : ∀ a ∈ arrivals, a.running = true) (node : NodeId) (f : Feed) :
    Merging.Merged reads ((Merging.start reads).run steps) ∧
      Reports node f arrivals (run { node } f arrivals).1 (run { node } f arrivals).2 ∧
      (∀ first, (((Merging.start reads).run steps).poll first).1 = .ended →
        (run { node } f arrivals).1.lines + (firstNotice? node arrivals).toList.length +
          (run { node } f arrivals).1.discarded = ∑ p, (pipeItems (reads p)).length) ∧
      ∃ turns, (∀ first, (((Merging.start reads).run turns).poll first).1 = .ended) ∧
        ((Merging.start reads).run turns).delivered.map (·.2) =
          alternate (pipeItems (reads .standard)) (pipeItems (reads .errors)) := by
  have hmerged := Merging.merged_run reads steps
  have hreports := reports_run node f hrunning
  refine ⟨hmerged, hreports, fun first hended => hreports.read.trans ?_, Merging.exists_run_alternate reads⟩
  have hlength := congrArg List.length hitems
  rw [List.length_map, List.length_map, length_eq_sum_share] at hlength
  rw [hlength]
  simp only [hmerged.whole first hended]

/-- Both pipes of a node fail, and one of them in the middle of a line. -/
def brokenReads : Pipe → List Read
  | .standard => [.bytes ("[Node 0] Final live cells: 7\n".toList.flatMap String.utf8EncodeChar), .failure "broken"]
  | .errors => [.bytes [0x6f], .failure "lost"]

def brokenSteps : List MergeStep :=
  [.arrive .errors, .arrive .standard, .poll .errors, .arrive .errors, .poll .standard, .arrive .standard,
    .poll .errors]

/-- One of the two failures is told. -/
theorem run_of_merged_broken :
    let arrivals : List Arrival :=
      [⟨.line "[Node 0] Final live cells: 7".toList, true, ⟨0, 0⟩⟩, ⟨.failure "lost", true, ⟨1, 0⟩⟩,
        ⟨.failure "broken", true, ⟨2, 0⟩⟩]
    arrivals.map (·.item) = ((Merging.start brokenReads).run brokenSteps).delivered.map (·.2) ∧
      (∀ a ∈ arrivals, a.running = true) ∧
      (((Merging.start brokenReads).run brokenSteps).poll .standard).1 = .ended ∧
      (run { node := 0 } {} arrivals).2.bus.queue =
        [⟨⟨0, .complete (some 7)⟩, ⟨0, 0⟩⟩, ⟨⟨0, .error "lost"⟩, ⟨1, 0⟩⟩] ∧
      (run { node := 0 } {} arrivals).1.lines + 1 + (run { node := 0 } {} arrivals).1.discarded = 3 := by
  intro arrivals
  have hitems : arrivals.map (·.item) = ((Merging.start brokenReads).run brokenSteps).delivered.map (·.2) := by
    have hline := decodeLossy_encode "[Node 0] Final live cells: 7".toList
    exact congrArg (fun text => [PipeItem.line text, .failure "lost", .failure "broken"]) hline.symm
  have hrunning : ∀ a ∈ arrivals, a.running = true := by decide
  have hended : (((Merging.start brokenReads).run brokenSteps).poll .standard).1 = .ended := by decide
  obtain ⟨-, hreports, hread, -⟩ := run_of_merged brokenReads brokenSteps hitems hrunning 0 {}
  refine ⟨hitems, hrunning, hended, hreports.published.trans (by decide), (hread .standard hended).trans (by decide)⟩

end Drain

/-! ## The output of a node -/

theorem exists_entries_alternate (p : Pipe) (first second : List PipeItem) :
    ∃ entries : List (Pipe × PipeItem), entries.map (·.2) = alternate first second ∧
      share p entries = first ∧ share p.other entries = second := by
  fun_induction alternate first second generalizing p with
  | case1 second =>
    refine ⟨second.map (p.other, ·), ?_, share_map_of_ne (Merging.other_ne p) second, share_map_self _ _⟩
    rw [List.map_map]
    exact List.map_id _
  | case2 item rest second ih =>
    obtain ⟨entries, hitems, hother, hown⟩ := ih p.other
    have hothers : p.other.other = p := by cases p <;> rfl
    rw [hothers] at hown
    refine ⟨(p, item) :: entries, by rw [List.map_cons, hitems], ?_, ?_⟩
    · rw [share_cons_self, hown]
    · rw [share_cons_of_ne (Merging.other_ne p).symm, hother]

namespace NodeOutput

def unfinished (o : NodeOutput) : Pipe → List UInt8
  | .standard => o.standard
  | .errors => o.errors

/-- All items that come of portions of bytes, of which the last comes with the end of the pipes. -/
def deliver (o : NodeOutput) (last : Pipe → List UInt8) : List (Pipe → List UInt8) → List PipeItem
  | [] => (o.receive (last .standard) (last .errors) true).1
  | bytes :: portions =>
    (o.receive (bytes .standard) (bytes .errors) false).1 ++
      deliver (o.receive (bytes .standard) (bytes .errors) false).2 last portions

theorem itemsFrom_singleton (reversed bytes : List UInt8) :
    itemsFrom reversed [.bytes bytes] = (feed reversed bytes).1 ++ unendedLine (feed reversed bytes).2 := by
  cases bytes with
  | nil => cases reversed <;> rfl
  | cons b bytes => exact itemsFrom_cons (List.cons_ne_nil b bytes) reversed []

/-- The items of a node are those of its two pipes, each pipe's in its order. -/
theorem exists_entries_deliver (o : NodeOutput) (last : Pipe → List UInt8) (portions : List (Pipe → List UInt8)) :
    ∃ entries : List (Pipe × PipeItem), entries.map (·.2) = o.deliver last portions ∧
      ∀ p, share p entries = itemsFrom (o.unfinished p) [.bytes (portions.flatMap (· p) ++ last p)] := by
  simp only [itemsFrom_singleton]
  induction portions generalizing o with
  | nil =>
    obtain ⟨entries, hitems, hstandard, herrors⟩ := exists_entries_alternate .standard
      ((feed o.standard (last .standard)).1 ++ unendedLine (feed o.standard (last .standard)).2)
      ((feed o.errors (last .errors)).1 ++ unendedLine (feed o.errors (last .errors)).2)
    refine ⟨entries, hitems, fun p => ?_⟩
    cases p with
    | standard => exact hstandard
    | errors => exact herrors
  | cons bytes portions ih =>
    obtain ⟨later, hlater, hshares⟩ := ih (o.receive (bytes .standard) (bytes .errors) false).2
    obtain ⟨entries, hitems, hstandard, herrors⟩ := exists_entries_alternate .standard
      (feed o.standard (bytes .standard)).1 (feed o.errors (bytes .errors)).1
    have hopen (p : Pipe) : (o.receive (bytes .standard) (bytes .errors) false).2.unfinished p =
        (feed (o.unfinished p) (bytes p)).2 := by
      cases p <;> rfl
    have hnow (p : Pipe) : share p entries = (feed (o.unfinished p) (bytes p)).1 := by
      cases p with
      | standard => exact hstandard
      | errors => exact herrors
    refine ⟨entries ++ later, ?_, fun p => ?_⟩
    · rw [List.map_append, hlater, hitems]
      rfl
    · rw [share_append, hnow, hshares, hopen, List.flatMap_cons, List.append_assoc (bytes p),
        feed_append _ (bytes p), List.append_assoc]

end NodeOutput

end ClusterWatch
