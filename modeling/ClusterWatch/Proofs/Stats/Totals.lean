import ClusterWatch.Proofs.Line.Context
import ClusterWatch.Proofs.Stats.History
import Mathlib.Algebra.BigOperators.Group.Finset.Basic

/-!
# Totals over the nodes

A total adds up one figure of every node, node by node, in 64 bits. It is the exact sum over the nodes that have
reported something if that sum fits, and an error if it does not, whatever the order of the nodes
(`foldlM_addChecked`). With both totals the summary is whole, and without one of them it ends before it
(`ClusterStats.totals_exact`). Nothing keeps the sums below the bound: every figure is any word that a line tells,
so the lines of two nodes are enough to miss it.
-/

namespace ClusterWatch
open Line

/-! ## Sums of words -/

/-- Adds two words, if the sum is a word. -/
def addChecked (a b : UInt64) : Except TotalError UInt64 :=
  if a.toNat + b.toNat < UInt64.size then .ok (a + b) else .error .overflow

/-- The word that a number is. -/
def fitted (n : Nat) : Except TotalError UInt64 :=
  if n < UInt64.size then .ok (.ofNat n) else .error .overflow

theorem fitted_of_lt {n : Nat} (h : n < UInt64.size) : fitted n = .ok (.ofNat n) := if_pos h

theorem fitted_of_le {n : Nat} (h : UInt64.size ≤ n) : fitted n = .error .overflow := if_neg (Nat.not_lt.2 h)

theorem fitted_toNat (a : UInt64) : fitted a.toNat = .ok a := by
  rw [fitted_of_lt a.toNat_lt, UInt64.ofNat_toNat]

/-- Words added one after the other miss the bound exactly if their sum does. -/
theorem foldlM_addChecked (a : UInt64) (terms : List UInt64) :
    terms.foldlM addChecked a = fitted (a.toNat + (terms.map UInt64.toNat).sum) := by
  induction terms generalizing a with
  | nil => exact (fitted_toNat a).symm
  | cons b terms ih =>
    rw [List.foldlM_cons, List.map_cons, List.sum_cons, ← Nat.add_assoc]
    rcases Nat.lt_or_ge (a.toNat + b.toNat) UInt64.size with hlt | hge
    · have hsum : (a + b).toNat = a.toNat + b.toNat := by
        rw [UInt64.toNat_add]
        exact Nat.mod_eq_of_lt hlt
      rw [addChecked, if_pos hlt, ← hsum]
      exact ih (a + b)
    · rw [addChecked, if_neg (Nat.not_lt.2 hge), fitted_of_le (Nat.le_add_right_of_le hge)]
      rfl

theorem checkedSum_eq (terms : List UInt64) : checkedSum terms = fitted (terms.map UInt64.toNat).sum := by
  rw [checkedSum, List.sum_eq_foldr, List.foldr_map]
  rfl

/-! ## Sums over nodes -/

theorem NodeMap.sum_values {α : Type} (m : NodeMap α) (other : α) {nodes : Finset NodeId}
    (hnodes : ∀ k, k ∈ nodes ↔ (m.get? k).isSome = true) (f : α → Nat) :
    (m.values.map f).sum = ∑ k ∈ nodes, f ((m.get? k).getD other) := by
  have hnodup : (m.toList.map (·.1)).Nodup :=
    List.pairwise_map.2 (m.sorted.imp fun hlt heq => Nat.ne_of_lt hlt (congrArg UInt32.toNat heq))
  have hkeys : (m.toList.map (·.1)).toFinset = nodes := by
    ext k
    rw [List.mem_toFinset, List.mem_map, hnodes, Option.isSome_iff_exists]
    constructor
    · rintro ⟨⟨k, a⟩, ha, rfl⟩
      exact ⟨a, mem_toList_iff.1 ha⟩
    · rintro ⟨a, ha⟩
      exact ⟨(k, a), mem_toList_iff.2 ha, rfl⟩
  rw [← hkeys, List.sum_toFinset _ hnodup, values, List.map_map, List.map_map]
  congr 1
  apply List.map_congr_left
  rintro ⟨k, a⟩ ha
  simp only [Function.comp_apply]
  rw [mem_toList_iff.1 ha, Option.getD_some]

/-- The page faults that count for the total: those of the latest report of them. -/
def latestFaults (ps : List Payload) : UInt64 := ((latest Payload.faults? ps).getD (0, 0, 0)).1

/-- The live cells that count for the total: the final ones, or those of the latest generation. -/
def latestCells (ps : List Payload) : UInt64 :=
  (latest Payload.finalCells? ps).getD ((latest Payload.generation? ps).getD (0, 0)).2

/-- The sum of a figure over the nodes that have reported something. -/
def sumOver (figure : List Payload → UInt64) (reports : List Report) : Nat :=
  ∑ k ∈ (reports.map (·.node)).toFinset, (figure (payloadsOf k reports)).toNat

theorem NodeStats.Tells.pageFaults_eq {n : NodeStats} {ps : List Payload} (h : n.Tells ps) :
    n.pageFaults = latestFaults ps := congrArg Prod.fst h.faults

theorem NodeStats.Tells.cellsForTotal_eq {n : NodeStats} {ps : List Payload} (h : n.Tells ps) :
    n.cellsForTotal = latestCells ps := by
  have hcells : n.liveCells = ((latest Payload.generation? ps).getD (0, 0)).2 := congrArg Prod.snd h.generation
  rw [NodeStats.cellsForTotal, h.finalCells, hcells, latestCells]

namespace ClusterStats

/-- A figure that is told by the payloads of a node adds up to the sum of what they tell. -/
theorem sum_figures {f : NodeStats → UInt64} {figure : List Payload → UInt64}
    (h : ∀ n ps, n.Tells ps → f n = figure ps) (reports : List Report) :
    (((reports.foldl apply empty).nodes.values.map f).map UInt64.toNat).sum = sumOver figure reports := by
  have hnodes (k : NodeId) : k ∈ (reports.map (·.node)).toFinset ↔
      ((reports.foldl apply empty).node? k).isSome = true := by
    rw [isSome_node?_foldl, List.mem_toFinset, List.mem_map]
  rw [List.map_map, NodeMap.sum_values _ {} hnodes, sumOver]
  refine Finset.sum_congr rfl fun k _ => ?_
  exact congrArg UInt64.toNat (h _ _ (tells_getD reports k))

/-! ## The totals and the summary -/

/-- All lines of the summary, with these totals. -/
def wholeSummary (nodes : UInt32) (t : Tracker) (s : ClusterStats) (faults cells : Nat) : List (List Span) :=
  summaryHead t s ++
    [plainLine s!"  Total page faults:               {faults}",
      plainLine s!"  Total live cells:                {cells}",
      plainLine s!"  Completed nodes:                 {s.completedNodes}/{nodes.toNat}", plainLine ""]

/-- The summary shows exact totals, or ends before the first that is an error. -/
theorem summary_of_fitted (nodes : UInt32) (t : Tracker) {s : ClusterStats} {faults cells : Nat}
    (hfaults : s.totalPageFaults = fitted faults) (hcells : s.totalLiveCells = fitted cells) :
    (faults < UInt64.size ∧ cells < UInt64.size ∧
        summary nodes t s = (wholeSummary nodes t s faults cells, none)) ∨
      (UInt64.size ≤ faults ∨ UInt64.size ≤ cells) ∧ (summary nodes t s).2 = some .overflow ∧
        ∃ missing, missing ≠ [] ∧ (summary nodes t s).1 ++ missing = wholeSummary nodes t s faults cells := by
  rcases Nat.lt_or_ge faults UInt64.size with hf | hf
  · rcases Nat.lt_or_ge cells UInt64.size with hc | hc
    · refine .inl ⟨hf, hc, ?_⟩
      simp only [summary, hfaults, hcells, fitted_of_lt hf, fitted_of_lt hc, UInt64.toNat_ofNat_of_lt' hf,
        UInt64.toNat_ofNat_of_lt' hc, wholeSummary, List.append_assoc, List.singleton_append]
    · refine .inr ⟨.inr hc, ?_⟩
      simp only [summary, hfaults, hcells, fitted_of_lt hf, fitted_of_le hc, UInt64.toNat_ofNat_of_lt' hf]
      exact ⟨trivial, _, List.cons_ne_nil _ _, List.append_assoc ..⟩
  · refine .inr ⟨.inl hf, ?_⟩
    simp only [summary, hfaults, fitted_of_le hf]
    exact ⟨trivial, _, List.cons_ne_nil _ _, rfl⟩

/-- Whatever was reported, a total is the exact sum of what the nodes have told, just as if it were added up node
by node, if the sum fits into 64 bits; it is an error if not. With both totals the summary is whole and shows the
exact sums, and else its last lines are missing. -/
theorem totals_exact (reports : List Report) :
    let s := reports.foldl apply empty
    let faults := sumOver latestFaults reports
    let cells := sumOver latestCells reports
    (s.totalPageFaults = fitted faults ∧
        (s.nodes.values.map (·.pageFaults)).foldlM addChecked 0 = fitted faults) ∧
      (s.totalLiveCells = fitted cells ∧
        (s.nodes.values.map (·.cellsForTotal)).foldlM addChecked 0 = fitted cells) ∧
      ∀ (v : View) (nodes : UInt32) (t : Tracker),
        let whole := (wholeSummary nodes t s faults cells).map (Span.displayAll v.colors)
        (faults < UInt64.size ∧ cells < UInt64.size → v.summary nodes t s = (whole, none)) ∧
          (UInt64.size ≤ faults ∨ UInt64.size ≤ cells → (v.summary nodes t s).2 = some .overflow ∧
            ∃ missing, missing ≠ [] ∧ (v.summary nodes t s).1 ++ missing = whole) := by
  intro s faults cells
  have hfaults : ((s.nodes.values.map (·.pageFaults)).map UInt64.toNat).sum = faults :=
    sum_figures (fun _ _ => NodeStats.Tells.pageFaults_eq) reports
  have hcells : ((s.nodes.values.map (·.cellsForTotal)).map UInt64.toNat).sum = cells :=
    sum_figures (fun _ _ => NodeStats.Tells.cellsForTotal_eq) reports
  have htotalFaults : s.totalPageFaults = fitted faults := by
    rw [totalPageFaults, checkedSum_eq, hfaults]
  have htotalCells : s.totalLiveCells = fitted cells := by
    rw [totalLiveCells, checkedSum_eq, hcells]
  refine ⟨⟨htotalFaults, ?_⟩, ⟨htotalCells, ?_⟩, fun v nodes t => ?_⟩
  · rw [foldlM_addChecked, hfaults, UInt64.toNat_zero, Nat.zero_add]
  · rw [foldlM_addChecked, hcells, UInt64.toNat_zero, Nat.zero_add]
  · intro whole
    obtain ⟨hf, hc, hsummary⟩ | ⟨hmissed, herror, missing, hne, hmissing⟩ :=
      summary_of_fitted nodes t htotalFaults htotalCells
    · exact ⟨fun _ => by rw [View.summary, hsummary], fun h => absurd h (by omega)⟩
    · refine ⟨fun h => absurd hmissed (by omega), fun _ => ⟨herror, missing.map (Span.displayAll v.colors), ?_, ?_⟩⟩
      · simpa using hne
      · rw [View.summary, ← List.map_append, hmissing]

/-- Two nodes tell page faults that are words each and not together: the total is an error, and the summary ends
before it. -/
theorem two_lines_overflow :
    let lines := ["[Node 0] Page faults: 18446744073709551615 (R: 0, W: 0)", "[Node 1] Page faults: 1 (R: 0, W: 0)"]
    let reports := lines.filterMap fun line => classify line.toList
    let s := reports.foldl apply empty
    reports = [⟨0, .pageFaults 18446744073709551615 0 0⟩, ⟨1, .pageFaults 1 0 0⟩] ∧
      sumOver latestFaults reports = 18446744073709551616 ∧ s.totalPageFaults = .error .overflow ∧
      (View.summary {} 2 .empty s).2 = some .overflow ∧
      (View.summary {} 2 .empty s).1.getLast? = some "  Generation reached by all nodes: 0".toList := by
  intro lines reports s
  have hreports : reports = [⟨0, .pageFaults 18446744073709551615 0 0⟩, ⟨1, .pageFaults 1 0 0⟩] := by decide
  have hs : s = [⟨0, .pageFaults 18446744073709551615 0 0⟩, ⟨1, .pageFaults 1 0 0⟩].foldl apply empty :=
    congrArg (List.foldl apply empty) hreports
  refine ⟨hreports, ?_, ?_, ?_, ?_⟩
  · rw [hreports]
    decide
  · rw [hs]
    decide
  · rw [hs]
    decide
  · rw [hs]
    decide

end ClusterStats

end ClusterWatch
