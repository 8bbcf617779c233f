import ClusterWatch.Tracker
import Mathlib.Data.List.Sort

/-!
# The tracker knows each node by itself

What the tracker knows of a node comes from the reports of this node that it keeps something of, in their order.
So two sequences of reports lead to the same tracker if they agree node by node
(`Tracker.foldl_observe_eq`), in whatever order the nodes take turns.
-/

namespace ClusterWatch

theorem NodeMap.ext_get? {α : Type} {m m' : NodeMap α} (h : ∀ node, m.get? node = m'.get? node) : m = m' := by
  have hmem : ∀ entry : NodeId × α, entry ∈ m.toList ↔ entry ∈ m'.toList := by
    rintro ⟨node, a⟩
    rw [mem_toList_iff, mem_toList_iff, h]
  have hirrefl : Std.Irrefl fun a b : NodeId × α => a.1.toNat < b.1.toNat := ⟨fun _ => Nat.lt_irrefl _⟩
  have hantisymm : Std.Antisymm fun a b : NodeId × α => a.1.toNat < b.1.toNat :=
    ⟨fun _ _ hab hba => absurd hab (Nat.lt_asymm hba)⟩
  have hlist : m.toList = m'.toList := m.sorted.eq_of_mem_iff m'.sorted hmem
  cases m
  cases m'
  cases hlist
  rfl

/-- The tracker keeps something of generations and of rows. -/
def Report.isTracked (r : Report) : Bool :=
  match r.payload with
  | .generation .. | .init .. => true
  | _ => false

namespace Tracker

theorem observe_of_not_isTracked (t : Tracker) {r : Report} (h : r.isTracked = false) : t.observe r = t := by
  obtain ⟨node, payload⟩ := r
  cases payload with
  | generation | init => cases h
  | pageFaults | network | barrier | complete | error => rfl

theorem node?_observe_of_ne (t : Tracker) {r : Report} {k : NodeId} (h : r.node ≠ k) :
    (t.observe r).node? k = t.node? k := by
  obtain ⟨node, payload⟩ := r
  cases payload with
  | generation | init =>
    refine (NodeMap.get?_alter ..).trans (if_neg ?_)
    exact Ne.symm h
  | pageFaults | network | barrier | complete | error => rfl

/-- What is known of a node after a report comes from what was known of it. -/
theorem node?_observe_congr {t t' : Tracker} {k : NodeId} (h : t.node? k = t'.node? k) (r : Report) :
    (t.observe r).node? k = (t'.observe r).node? k := by
  by_cases hnode : r.node = k
  · obtain ⟨node, payload⟩ := r
    obtain rfl : node = k := hnode
    have hget : t.nodes.get? node = t'.nodes.get? node := h
    cases payload with
    | generation | init =>
      refine (NodeMap.get?_alter ..).trans (Eq.trans ?_ (NodeMap.get?_alter ..).symm)
      rw [if_pos rfl, if_pos rfl, hget]
    | pageFaults | network | barrier | complete | error => exact h
  · rw [node?_observe_of_ne t hnode, node?_observe_of_ne t' hnode, h]

/-- The reports of a node that the tracker keeps something of. -/
def concerns (k : NodeId) (r : Report) : Bool := r.isTracked && r.node = k

theorem concerns_eq_true {k : NodeId} {r : Report} :
    concerns k r = true ↔ r.isTracked = true ∧ r.node = k := by
  rw [concerns, Bool.and_eq_true, decide_eq_true_eq]

/-- Only the reports that concern a node decide what is known of it. -/
theorem node?_foldl_observe (k : NodeId) (reports : List Report) {t t' : Tracker}
    (h : t.node? k = t'.node? k) :
    (reports.foldl observe t).node? k = ((reports.filter (concerns k)).foldl observe t').node? k := by
  induction reports generalizing t t' with
  | nil => exact h
  | cons r reports ih =>
    by_cases hr : concerns k r = true
    · rw [List.filter_cons_of_pos hr]
      exact ih (node?_observe_congr h r)
    · have hsame : (t.observe r).node? k = t.node? k := by
        rw [concerns_eq_true, not_and] at hr
        by_cases htracked : r.isTracked = true
        · exact node?_observe_of_ne t (hr htracked)
        · rw [observe_of_not_isTracked t (by simpa using htracked)]
      rw [List.filter_cons_of_neg hr]
      exact ih (hsame.trans h)

/-- Reports that agree node by node lead to the same tracker. -/
theorem foldl_observe_eq {reports reports' : List Report}
    (h : ∀ k, reports.filter (concerns k) = reports'.filter (concerns k)) (t : Tracker) :
    reports.foldl observe t = reports'.foldl observe t := by
  have hnode (k) : (reports.foldl observe t).node? k = (reports'.foldl observe t).node? k := by
    rw [node?_foldl_observe k reports rfl, h k, ← node?_foldl_observe k reports' rfl]
  have hnodes := NodeMap.ext_get? hnode
  cases h : reports.foldl observe t
  cases h' : reports'.foldl observe t
  rw [h, h'] at hnodes
  cases hnodes
  rfl

end Tracker

end ClusterWatch
