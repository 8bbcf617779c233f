import ClusterWatch.Proofs.Stats.ByNode
import ClusterWatch.Proofs.Tracker.History

/-!
# What the figures tell of the reports

The figures of a node follow three rules. Of the generations, page faults, amounts, final numbers of live cells
and errors the latest one counts, barriers are counted, and a completion stays (`NodeStats.Tells`). Every report
keeps these rules (`NodeStats.Tells.apply`), so they hold after all reports (`ClusterStats.tells_reports`), and
the generation of a node is the one that the tracker knows.
-/

namespace ClusterWatch
open Decimal

/-! ## What payloads carry -/

namespace Payload

/-- A generation and its live cells. -/
def generation? : Payload → Option (UInt64 × UInt64)
  | .generation number liveCells => some (number, liveCells)
  | _ => none

/-- All page faults, those of reading and those of writing. -/
def faults? : Payload → Option (UInt64 × UInt64 × UInt64)
  | .pageFaults total read write => some (total, read, write)
  | _ => none

/-- The kilobytes sent and received. -/
def traffic? : Payload → Option (Binary64 × Binary64)
  | .network kbSent kbReceived => some (kbSent, kbReceived)
  | _ => none

/-- The final number of live cells, if a completion tells it. -/
def finalCells? : Payload → Option UInt64
  | .complete finalLiveCells => finalLiveCells
  | _ => none

/-- The message of an error. -/
def failure? : Payload → Option String
  | .error message => some message
  | _ => none

end Payload

/-- The payloads of a node, in the order of its reports. -/
def payloadsOf (k : NodeId) (reports : List Report) : List Payload :=
  (reports.filter (·.node = k)).map (·.payload)

/-- What the latest payload carries that carries something. -/
def latest {α : Type} (carried : Payload → Option α) (ps : List Payload) : Option α :=
  (ps.filterMap carried).getLast?

@[simp] theorem latest_nil {α : Type} (carried : Payload → Option α) : latest carried [] = none := rfl

theorem latest_concat {α : Type} (carried : Payload → Option α) (ps : List Payload) (p : Payload) :
    latest carried (ps ++ [p]) = (carried p).or (latest carried ps) := by
  rw [latest, List.filterMap_append]
  cases h : carried p with
  | none => simp [h, latest]
  | some a => simp [h]

/-! ## The figures of one node -/

/-- The figures of a node are those that its payloads have told. -/
structure NodeStats.Tells (n : NodeStats) (ps : List Payload) : Prop where
  generation : (n.generation, n.liveCells) = (latest Payload.generation? ps).getD (0, 0)
  faults : (n.pageFaults, n.readFaults, n.writeFaults) = (latest Payload.faults? ps).getD (0, 0, 0)
  traffic : (n.kbSent, n.kbReceived) = (latest Payload.traffic? ps).getD (.zero false, .zero false)
  barriers : n.barriersPassed = .ofNat (ps.countP (·.kind = .barrier))
  completed : n.completed = true ↔ ∃ p ∈ ps, p.kind = .complete
  /-- A completion that does not tell the number leaves the one that was told before. -/
  finalCells : n.finalLiveCells = latest Payload.finalCells? ps
  lastError : n.lastError = latest Payload.failure? ps

namespace NodeStats

theorem tells_nil : ({} : NodeStats).Tells [] where
  generation := rfl
  faults := rfl
  traffic := rfl
  barriers := rfl
  completed := by simp
  finalCells := rfl
  lastError := rfl

/-- One more payload keeps the rules. -/
theorem Tells.apply {n : NodeStats} {ps : List Payload} (h : n.Tells ps) (p : Payload) :
    (n.apply p).Tells (ps ++ [p]) where
  generation := by
    rw [latest_concat]
    cases p with
    | generation => rfl
    | pageFaults | network | barrier | init | complete | error => exact h.generation
  faults := by
    rw [latest_concat]
    cases p with
    | pageFaults => rfl
    | generation | network | barrier | init | complete | error => exact h.faults
  traffic := by
    rw [latest_concat]
    cases p with
    | network => rfl
    | generation | pageFaults | barrier | init | complete | error => exact h.traffic
  barriers := by
    rw [List.countP_append]
    cases p with
    | barrier =>
      rw [NodeStats.apply, h.barriers]
      exact (UInt64.ofNat_add ..).symm
    | generation | pageFaults | network | init | complete | error => exact h.barriers
  completed := by
    cases p with
    | complete => simp [NodeStats.apply, Payload.kind]
    | generation | pageFaults | network | barrier | init | error =>
      simpa [NodeStats.apply, Payload.kind] using h.completed
  finalCells := by
    rw [latest_concat]
    cases p with
    | complete final => rw [NodeStats.apply, h.finalCells]; rfl
    | generation | pageFaults | network | barrier | init | error => exact h.finalCells
  lastError := by
    rw [latest_concat]
    cases p with
    | error => rfl
    | generation | pageFaults | network | barrier | init | complete => exact h.lastError

end NodeStats

namespace ClusterStats

theorem nodeAfter_concat (before : Option NodeStats) (reports : List Report) (r : Report) :
    nodeAfter before (reports ++ [r]) = some (((nodeAfter before reports).getD {}).apply r.payload) := by
  rw [nodeAfter, List.foldl_append]
  rfl

/-- What a node has reported, its figures tell. A node without reports has figures of zero. -/
theorem tells_nodeAfter (reports : List Report) :
    ((nodeAfter none reports).getD {}).Tells (reports.map (·.payload)) := by
  induction reports using List.reverseRecOn with
  | nil => exact NodeStats.tells_nil
  | append_singleton reports r ih =>
    rw [nodeAfter_concat, List.map_append, Option.getD_some]
    exact ih.apply r.payload

theorem isSome_nodeAfter {reports : List Report} :
    (nodeAfter none reports).isSome = true ↔ reports ≠ [] := by
  cases reports using List.reverseRecOn with
  | nil => simp [nodeAfter]
  | append_singleton reports r => simp [nodeAfter_concat]

/-! ## The figures of all nodes -/

/-- The figures are those of the nodes that have reported something, in the order of the nodes, and of each what
its payloads have told. -/
structure Tells (s : ClusterStats) (reports : List Report) : Prop where
  present : ∀ k, (s.node? k).isSome = true ↔ ∃ r ∈ reports, r.node = k
  sorted : s.nodes.toList.Pairwise fun a b => a.1.toNat < b.1.toNat
  mem_nodes : ∀ k n, (k, n) ∈ s.nodes.toList ↔ s.node? k = some n
  told : ∀ k n, s.node? k = some n → n.Tells (payloadsOf k reports)
  counted : ∀ k n, s.node? k = some n →
    n.barriersPassed.toNat = (payloadsOf k reports).countP (·.kind = .barrier)

theorem node?_foldl_empty (reports : List Report) (k : NodeId) :
    (reports.foldl apply empty).node? k = nodeAfter none (reports.filter (·.node = k)) :=
  node?_foldl_apply empty reports k

theorem tells_getD (reports : List Report) (k : NodeId) :
    (((reports.foldl apply empty).node? k).getD {}).Tells (payloadsOf k reports) := by
  rw [node?_foldl_empty]
  exact tells_nodeAfter _

theorem isSome_node?_foldl {reports : List Report} {k : NodeId} :
    ((reports.foldl apply empty).node? k).isSome = true ↔ ∃ r ∈ reports, r.node = k := by
  rw [node?_foldl_empty, isSome_nodeAfter, ← List.length_pos_iff_ne_nil, List.length_pos_iff_exists_mem]
  simp

theorem countP_payloadsOf_le (k : NodeId) (reports : List Report) (counts : Payload → Bool) :
    (payloadsOf k reports).countP counts ≤ reports.length :=
  calc (payloadsOf k reports).countP counts
      ≤ (payloadsOf k reports).length := List.countP_le_length
    _ = (reports.filter (·.node = k)).length := List.length_map _
    _ ≤ reports.length := List.length_filter_le ..

end ClusterStats

namespace Tracker

/-- Reports after a reset are all that counts. -/
theorem sinceReset_reports (calls : List Call) (reports : List Report) :
    sinceReset (calls ++ .reset :: reports.map .observe) = reports.map .observe := by
  induction reports using List.reverseRecOn with
  | nil => simp [sinceReset_concat]
  | append_singleton reports r ih =>
    have hconcat : calls ++ .reset :: (reports ++ [r]).map .observe =
        (calls ++ .reset :: reports.map .observe) ++ [.observe r] := by simp
    rw [hconcat, sinceReset_concat, if_neg (by simp), ih, List.map_append, List.map_singleton]

theorem generation?_observe (k : NodeId) (r : Report) :
    (Call.observe r).generation? k = if r.node = k then r.payload.generation?.map (·.1) else none := by
  obtain ⟨node, payload⟩ := r
  cases payload with
  | generation => rfl
  | pageFaults | network | barrier | init | complete | error => exact (ite_self none).symm

/-- The generations that reports write down are those of the payloads. -/
theorem generations_reports (calls : List Call) (reports : List Report) (k : NodeId) :
    generations k (calls ++ .reset :: reports.map .observe) =
      ((payloadsOf k reports).filterMap Payload.generation?).map (·.1) := by
  rw [generations, sinceReset_reports]
  induction reports with
  | nil => rfl
  | cons r reports ih =>
    rw [List.map_cons, List.filterMap_cons, generation?_observe, ih]
    by_cases hk : r.node = k
    · cases hr : r.payload.generation? <;> simp [payloadsOf, hk, hr]
    · simp [payloadsOf, hk]

theorem lastGeneration_reports (calls : List Call) (reports : List Report) (k : NodeId) :
    ((after (calls ++ .reset :: reports.map .observe)).node? k).bind (·.lastGeneration) =
      (latest Payload.generation? (payloadsOf k reports)).map (·.1) := by
  rw [node?_after, latest, ← List.getLast?_map, ← generations_reports calls, known]
  split
  case isTrue h => simp [h.1]
  case isFalse => rfl

end Tracker

namespace ClusterStats

/-- After reports, fewer than can be counted, the figures tell what they have told. The tracker, reset before
the same reports whatever calls there were, knows the same generation of every node. -/
theorem tells_reports (calls : List Tracker.Call) (reports : List Report) (h : reports.length < UInt64.size) :
    let figures := reports.foldl apply empty
    let tracked := Tracker.after (calls ++ .reset :: reports.map .observe)
    figures.Tells reports ∧ ∀ k,
      ((figures.node? k).map (·.generation)).getD 0 =
        ((tracked.node? k).bind (·.lastGeneration)).getD 0 := by
  intro figures tracked
  have htold (k n) (hn : figures.node? k = some n) : n.Tells (payloadsOf k reports) := by
    have := tells_getD reports k
    rwa [hn] at this
  refine ⟨?_, fun k => ?_⟩
  · constructor
    case present => exact fun k => isSome_node?_foldl
    case sorted => exact figures.nodes.sorted
    case mem_nodes => exact fun k n => NodeMap.mem_toList_iff
    case told => exact htold
    case counted =>
      intro k n hn
      rw [(htold k n hn).barriers]
      exact UInt64.toNat_ofNat_of_lt' (Nat.lt_of_le_of_lt (countP_payloadsOf_le ..) h)
  · have hgeneration := congrArg Prod.fst (tells_getD reports k).generation
    calc ((figures.node? k).map (·.generation)).getD 0
        = ((figures.node? k).getD {}).generation := by cases figures.node? k <;> rfl
      _ = ((latest Payload.generation? (payloadsOf k reports)).getD (0, 0)).1 := hgeneration
      _ = ((latest Payload.generation? (payloadsOf k reports)).map (·.1)).getD 0 := by
        cases latest Payload.generation? (payloadsOf k reports) <;> rfl
      _ = ((tracked.node? k).bind (·.lastGeneration)).getD 0 := by rw [Tracker.lastGeneration_reports]

/-- A completion without a number comes after one with it, and the tracker knew another generation before. -/
theorem tells_reports_completed :
    let calls : List Tracker.Call := [.recordGeneration 1 40, .recordPartition 1 ⟨0, 9⟩]
    let reports : List Report :=
      [⟨1, .generation 4 120⟩, ⟨0, .barrier "BARRIER_A" .passed⟩, ⟨1, .complete (some 31)⟩, ⟨1, .init 0 50⟩,
        ⟨0, .barrier "BARRIER_B" .passed⟩, ⟨1, .complete none⟩, ⟨1, .pageFaults 3 2 1⟩]
    let figures := reports.foldl apply empty
    let tracked := Tracker.after (calls ++ .reset :: reports.map .observe)
    reports.length < UInt64.size ∧ figures.Tells reports ∧
      figures.nodes.toList =
        [(0, { barriersPassed := 2 }),
          (1, { generation := 4, liveCells := 120, pageFaults := 3, readFaults := 2, writeFaults := 1
                completed := true, finalLiveCells := some 31 })] ∧
      ((tracked.node? 1).bind (·.lastGeneration)).getD 0 = 4 := by
  intro calls reports figures tracked
  have hlength : reports.length < UInt64.size := by decide
  obtain ⟨htells, hgeneration⟩ := tells_reports calls reports hlength
  exact ⟨hlength, htells, by decide, (hgeneration 1).symm⟩

end ClusterStats

end ClusterWatch
