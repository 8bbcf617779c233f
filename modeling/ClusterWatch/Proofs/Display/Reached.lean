import ClusterWatch.Display.View
import ClusterWatch.Line.Rules
import ClusterWatch.Proofs.Stats.History

/-!
# The generation that all nodes have reached

The summary shows the least of the last generations under the name of all nodes. It is the least over the nodes
that have reported one; a node that has reported none does not count, although it has reached nothing. So what the
summary shows is reached by all nodes of the cluster if each of them has reported a generation, and else only if
it is zero (`Tracker.reached_by_all_iff`). A node that is silent is enough to miss it (`silent_node_not_counted`).
-/

namespace ClusterWatch

/-- The last generation that a node has reported. -/
def lastReported? (k : NodeId) (reports : List Report) : Option UInt64 :=
  (latest Payload.generation? (payloadsOf k reports)).map (·.1)

/-- The generation that a node has reached: none is zero. -/
def reached (k : NodeId) (reports : List Report) : UInt64 := (lastReported? k reports).getD 0

theorem mem_summary_of_mem_head {nodes : UInt32} {t : Tracker} {s : ClusterStats} {line : List Span}
    (h : line ∈ summaryHead t s) : line ∈ (summary nodes t s).1 := by
  rw [summary]
  cases s.totalPageFaults with
  | error => exact h
  | ok faults =>
    have hhead : line ∈ summaryHead t s ++ [plainLine s!"  Total page faults:               {faults.toNat}"] :=
      List.mem_append_left _ h
    dsimp only
    cases s.totalLiveCells with
    | error => exact hhead
    | ok cells => exact List.mem_append_left _ hhead

/-- The line of the summary about the generation that all nodes have reached. -/
theorem generation_line_mem_summary (nodes : UInt32) (t : Tracker) (s : ClusterStats) :
    plainLine s!"  Generation reached by all nodes: {t.minimumGeneration.toNat}" ∈ (summary nodes t s).1 :=
  mem_summary_of_mem_head (List.mem_append_right _ (List.mem_cons_of_mem _ List.mem_cons_self))

namespace Tracker
variable {t : Tracker} {k : NodeId} {g : UInt64}

theorem exists_mem_snapshot (h : (t.node? k).bind (·.lastGeneration) = some g) :
    ∃ e ∈ t.snapshot, e.1 = k ∧ e.2.lastGeneration = some g := by
  obtain ⟨s, hs, hg⟩ := Option.bind_eq_some_iff.1 h
  exact ⟨(k, s), NodeMap.mem_toList_iff.2 hs, rfl, hg⟩

theorem minimumGeneration_le (h : (t.node? k).bind (·.lastGeneration) = some g) :
    t.minimumGeneration.toNat ≤ g.toNat := by
  obtain ⟨e, he, -, hg⟩ := exists_mem_snapshot h
  exact (minimumGeneration_spec he hg).2

theorem exists_minimumGeneration (h : (t.node? k).bind (·.lastGeneration) = some g) :
    ∃ k, (t.node? k).bind (·.lastGeneration) = some t.minimumGeneration := by
  obtain ⟨e, he, -, hg⟩ := exists_mem_snapshot h
  obtain ⟨⟨k, s⟩, hs, hleast⟩ := (minimumGeneration_spec he hg).1
  exact ⟨k, Option.bind_eq_some_iff.2 ⟨s, NodeMap.mem_toList_iff.1 hs, hleast⟩⟩

/-- Without a generation the least one is zero. -/
theorem minimumGeneration_of_none (h : ∀ k, (t.node? k).bind (·.lastGeneration) = none) :
    t.minimumGeneration = 0 := by
  refine minimumGeneration_eq_zero fun e he => ?_
  have hnode : t.node? e.1 = some e.2 := NodeMap.mem_toList_iff.1 he
  have hnone := h e.1
  rwa [hnode] at hnone

/-- What the summary shows for all nodes is the least of the generations that nodes have reported last, since the
last reset. It is reached by all nodes of the cluster exactly if all of them have reported a generation, or if none
at all has, or if some node is at zero. -/
theorem reached_by_all_iff (calls : List Call) (reports : List Report) (nodes : UInt32) :
    let t := after (calls ++ .reset :: reports.map .observe)
    let shown := t.minimumGeneration
    (∀ s, plainLine s!"  Generation reached by all nodes: {shown.toNat}" ∈ (summary nodes t s).1) ∧
      (∀ k g, lastReported? k reports = some g → shown.toNat ≤ g.toNat) ∧
      ((∃ k, lastReported? k reports = some shown) ∨ shown = 0 ∧ ∀ k, lastReported? k reports = none) ∧
      ((∀ k, k.toNat < nodes.toNat → shown.toNat ≤ (reached k reports).toNat) ↔
        (∀ k, k.toNat < nodes.toNat → (lastReported? k reports).isSome = true) ∨
          (∀ k, lastReported? k reports = none) ∨ ∃ k, lastReported? k reports = some 0) := by
  intro t shown
  have hlast (k) : (t.node? k).bind (·.lastGeneration) = lastReported? k reports :=
    lastGeneration_reports calls reports k
  have hle (k g) (hg : lastReported? k reports = some g) : shown.toNat ≤ g.toNat :=
    minimumGeneration_le ((hlast k).trans hg)
  have hleast : (∃ k, lastReported? k reports = some shown) ∨ shown = 0 ∧ ∀ k, lastReported? k reports = none := by
    by_cases hsome : ∃ k g, lastReported? k reports = some g
    · obtain ⟨k, g, hg⟩ := hsome
      obtain ⟨least, hfound⟩ := exists_minimumGeneration ((hlast k).trans hg)
      exact .inl ⟨least, (hlast least).symm.trans hfound⟩
    · have hnone (k) : lastReported? k reports = none :=
        Option.eq_none_iff_forall_ne_some.2 fun g hg => hsome ⟨k, g, hg⟩
      exact .inr ⟨minimumGeneration_of_none fun k => (hlast k).trans (hnone k), hnone⟩
  refine ⟨generation_line_mem_summary nodes t, hle, hleast, fun hall => ?_, ?_⟩
  · rcases hleast with ⟨least, hfound⟩ | ⟨-, hnone⟩
    · by_cases hzero : shown = 0
      · exact .inr (.inr ⟨least, hzero ▸ hfound⟩)
      · refine .inl fun k hk => Option.isSome_iff_ne_none.2 fun hnone => hzero ?_
        -- A node without a report would have reached zero only.
        have hreached : (reached k reports).toNat = 0 := by
          rw [reached, hnone]
          rfl
        exact UInt64.toNat_inj.1 (Nat.le_zero.1 (hreached ▸ hall k hk))
    · exact .inr (.inl hnone)
  · rintro (hall | hnone | ⟨zero, hzero⟩) k hk
    · obtain ⟨g, hg⟩ := Option.isSome_iff_exists.1 (hall k hk)
      have hreached : reached k reports = g := by rw [reached, hg, Option.getD_some]
      exact hreached ▸ hle k g hg
    · obtain ⟨least, hfound⟩ | ⟨hshown, -⟩ := hleast
      · exact absurd hfound (by rw [hnone]; exact Option.some_ne_none _ ∘ Eq.symm)
      · rw [hshown]
        exact Nat.zero_le _
    · exact (hle zero 0 hzero).trans (Nat.zero_le _)

/-- One node of two has reported a generation and the other one nothing: the summary tells that all nodes have
reached it. -/
theorem silent_node_not_counted :
    let reports := ["[Node 0] Generation 5: 10 live cells"].filterMap fun line => Line.classify line.toList
    let t := after (.reset :: reports.map .observe)
    reports = [⟨0, .generation 5 10⟩] ∧ lastReported? 1 reports = none ∧
      "  Generation reached by all nodes: 5".toList ∈ (View.summary {} 2 t (reports.foldl .apply .empty)).1 ∧
      ¬ ∀ k : NodeId, k.toNat < 2 → t.minimumGeneration.toNat ≤ (reached k reports).toNat := by
  intro reports t
  have hreports : reports = [⟨0, .generation 5 10⟩] := by decide
  have ht : t = after [.reset, .observe ⟨0, .generation 5 10⟩] :=
    congrArg (fun rs : List Report => after (.reset :: rs.map .observe)) hreports
  refine ⟨hreports, ?_, ?_, fun hall => ?_⟩
  · rw [hreports]
    decide
  · rw [ht, hreports]
    decide
  · have hone := hall 1 (by decide)
    rw [ht, hreports] at hone
    exact absurd hone (by decide)

end Tracker

end ClusterWatch
