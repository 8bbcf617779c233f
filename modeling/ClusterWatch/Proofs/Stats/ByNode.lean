import ClusterWatch.Display.View
import ClusterWatch.Proofs.Tracker.ByNode

/-!
# The summary does not depend on the order between nodes

The figures of a node come from the reports of this node, in their order. So reports that agree node by node
lead to the same figures and the same tracker, in whatever order the nodes take turns, and with them to the same
totals and the same summary (`SameByNode.summary_eq`).
-/

namespace ClusterWatch

/-- Every node has the same reports in both lists, in the same order. -/
def SameByNode (reports reports' : List Report) : Prop :=
  ∀ k, reports.filter (·.node = k) = reports'.filter (·.node = k)

namespace ClusterStats

theorem node?_apply (s : ClusterStats) (r : Report) (k : NodeId) :
    (s.apply r).node? k =
      if r.node = k then some (((s.node? k).getD {}).apply r.payload) else s.node? k := by
  refine (NodeMap.get?_alter ..).trans ?_
  by_cases h : r.node = k
  · subst h
    rw [if_pos rfl, if_pos rfl]
    rfl
  · rw [if_neg (Ne.symm h), if_neg h, node?]

/-- The figures of a node after its reports, made from those before. -/
def nodeAfter (before : Option NodeStats) (reports : List Report) : Option NodeStats :=
  reports.foldl (fun n r => some ((n.getD {}).apply r.payload)) before

/-- Only the reports of a node decide its figures. -/
theorem node?_foldl_apply (s : ClusterStats) (reports : List Report) (k : NodeId) :
    (reports.foldl apply s).node? k = nodeAfter (s.node? k) (reports.filter (·.node = k)) := by
  induction reports generalizing s with
  | nil => rfl
  | cons r reports ih =>
    rw [List.foldl_cons, ih, node?_apply]
    by_cases h : r.node = k
    · rw [if_pos h, List.filter_cons_of_pos (by simpa using h)]
      rfl
    · rw [if_neg h, List.filter_cons_of_neg (by simpa using h)]

end ClusterStats

namespace SameByNode
variable {reports reports' : List Report}

theorem foldl_apply_eq (h : SameByNode reports reports') (s : ClusterStats) :
    reports.foldl .apply s = reports'.foldl .apply s := by
  have hnodes : (reports.foldl .apply s).nodes = (reports'.foldl .apply s).nodes := by
    apply NodeMap.ext_get?
    intro k
    have hleft := s.node?_foldl_apply reports k
    rw [h k] at hleft
    exact hleft.trans (s.node?_foldl_apply reports' k).symm
  cases hs : reports.foldl .apply s
  cases hs' : reports'.foldl .apply s
  simpa [hs, hs'] using hnodes

theorem foldl_observe_eq (h : SameByNode reports reports') (t : Tracker) :
    reports.foldl .observe t = reports'.foldl .observe t := by
  apply Tracker.foldl_observe_eq
  intro k
  have hconcerns (rs : List Report) :
      rs.filter (Tracker.concerns k) = (rs.filter (·.node = k)).filter (·.isTracked) := by
    rw [List.filter_filter]
    rfl
  rw [hconcerns, hconcerns, h k]

/-- Reports that agree node by node lead to the same figures with the same totals, to the same tracker, and to
the same summary, however it is shown; it also ends early for the same reason, if it does. -/
theorem summary_eq (h : SameByNode reports reports') (s : ClusterStats) (t : Tracker) :
    let figures := reports.foldl .apply s
    let figures' := reports'.foldl .apply s
    let tracked := reports.foldl .observe t
    let tracked' := reports'.foldl .observe t
    figures = figures' ∧
      (figures.totalKbSent = figures'.totalKbSent ∧ figures.totalKbReceived = figures'.totalKbReceived ∧
        figures.totalPageFaults = figures'.totalPageFaults ∧
        figures.totalLiveCells = figures'.totalLiveCells ∧
        figures.completedNodes = figures'.completedNodes) ∧
      tracked = tracked' ∧
      (tracked.snapshot = tracked'.snapshot ∧ tracked.partitions = tracked'.partitions ∧
        tracked.minimumGeneration = tracked'.minimumGeneration) ∧
      ∀ (v : View) (nodes : UInt32), v.summary nodes tracked figures = v.summary nodes tracked' figures' := by
  intro figures figures' tracked tracked'
  have hfigures : figures = figures' := h.foldl_apply_eq s
  have htracked : tracked = tracked' := h.foldl_observe_eq t
  rw [hfigures, htracked]
  exact ⟨rfl, ⟨rfl, rfl, rfl, rfl, rfl⟩, rfl, ⟨rfl, rfl, rfl⟩, fun _ _ => rfl⟩

/-- Two nodes that take turns in different ways, with rows told twice and with page faults that do not fit. -/
theorem summary_eq_turns :
    let reports : List Report :=
      [⟨0, .init 0 50⟩, ⟨1, .pageFaults 1 1 0⟩, ⟨0, .generation 3 7⟩, ⟨0, .init 9 9⟩,
        ⟨1, .complete (some 5)⟩, ⟨0, .pageFaults 0xffffffffffffffff 0 0⟩, ⟨1, .complete none⟩]
    let reports' : List Report :=
      [⟨1, .pageFaults 1 1 0⟩, ⟨1, .complete (some 5)⟩, ⟨1, .complete none⟩, ⟨0, .init 0 50⟩,
        ⟨0, .generation 3 7⟩, ⟨0, .init 9 9⟩, ⟨0, .pageFaults 0xffffffffffffffff 0 0⟩]
    let figures := reports.foldl ClusterStats.apply .empty
    let figures' := reports'.foldl ClusterStats.apply .empty
    let tracked := reports.foldl Tracker.observe .empty
    let tracked' := reports'.foldl Tracker.observe .empty
    SameByNode reports reports' ∧ figures.totalPageFaults = .error .overflow ∧ figures = figures' ∧
      tracked = tracked' ∧ View.summary {} 2 tracked figures = View.summary {} 2 tracked' figures' := by
  intro reports reports' figures figures' tracked tracked'
  have hsame : SameByNode reports reports' := by
    intro k
    by_cases h0 : (0 : NodeId) = k
    · subst h0
      rfl
    · by_cases h1 : (1 : NodeId) = k
      · subst h1
        rfl
      · simp [reports, reports', h0, h1]
  obtain ⟨hfigures, -, htracked, -, hsummary⟩ := summary_eq hsame .empty .empty
  exact ⟨hsame, by decide, hfigures, htracked, hsummary {} 2⟩

end SameByNode

end ClusterWatch
