import ClusterWatch.Proofs.Tracker.ByNode
import Mathlib.Data.List.DropRight

/-!
# What the tracker tells of its calls

Calls write generations and rows down, for one node each, and a reset forgets all of them. `Tells` says what a
tracker answers after some calls: for every node the latest generation and the first rows that were written
since the last reset, and nothing else. It holds after all calls, however they follow one another
(`tells_after`).
-/

namespace ClusterWatch.Tracker

/-- A call that may change the tracker. -/
inductive Call
  | observe (r : Report)
  | recordGeneration (node : NodeId) (generation : UInt64)
  | recordPartition (node : NodeId) (p : Partition)
  | reset
deriving DecidableEq, Repr

/-- The tracker after a call, and the answer of the call if it has one. -/
def call (t : Tracker) : Call → Tracker × Option Bool
  | .observe r => (t.observe r, none)
  | .recordGeneration node generation => (t.recordGeneration node generation, none)
  | .recordPartition node p => (t.recordPartition node p, some (t.acceptsPartition node))
  | .reset => (.empty, none)

/-- The tracker after calls on one that knows nothing. -/
def after (calls : List Call) : Tracker := calls.foldl (fun t c => (t.call c).1) .empty

theorem after_concat (calls : List Call) (c : Call) : after (calls ++ [c]) = ((after calls).call c).1 := by
  simp [after, List.foldl_append]

/-! ## What calls write down -/

/-- The generation that a call writes down for a node. -/
def Call.generation? (k : NodeId) : Call → Option UInt64
  | .observe ⟨node, .generation generation _⟩ => if node = k then some generation else none
  | .recordGeneration node generation => if node = k then some generation else none
  | _ => none

/-- The rows that a call writes down for a node. -/
def Call.partition? (k : NodeId) : Call → Option Partition
  | .observe ⟨node, .init startRow endRow⟩ => if node = k then some ⟨startRow, endRow⟩ else none
  | .recordPartition node p => if node = k then some p else none
  | _ => none

/-- The calls after the last reset. -/
def sinceReset (calls : List Call) : List Call := calls.rtakeWhile (· ≠ .reset)

/-- The generations that are written down for a node since the last reset, the latest at the end. -/
def generations (k : NodeId) (calls : List Call) : List UInt64 :=
  (sinceReset calls).filterMap (·.generation? k)

/-- The rows that are written down for a node since the last reset, the first ones in front. -/
def rowsTold (k : NodeId) (calls : List Call) : List Partition :=
  (sinceReset calls).filterMap (·.partition? k)

theorem sinceReset_concat (calls : List Call) (c : Call) :
    sinceReset (calls ++ [c]) = if c = .reset then [] else sinceReset calls ++ [c] := by
  rw [sinceReset, List.rtakeWhile_concat]
  by_cases h : c = .reset <;> simp [h, sinceReset]

theorem generations_concat (k : NodeId) (calls : List Call) {c : Call} (h : c ≠ .reset) :
    generations k (calls ++ [c]) = generations k calls ++ (c.generation? k).toList := by
  rw [generations, sinceReset_concat, if_neg h, List.filterMap_append, generations]
  cases hc : c.generation? k <;> simp [hc]

theorem rowsTold_concat (k : NodeId) (calls : List Call) {c : Call} (h : c ≠ .reset) :
    rowsTold k (calls ++ [c]) = rowsTold k calls ++ (c.partition? k).toList := by
  rw [rowsTold, sinceReset_concat, if_neg h, List.filterMap_append, rowsTold]
  cases hc : c.partition? k <;> simp [hc]

/-! ## What is known of a node -/

/-- What is known of a node after one more generation. -/
def withGeneration (s : Option NodeState) (g : UInt64) : NodeState := { s.getD {} with lastGeneration := some g }

/-- What is known of a node after it has told its rows, perhaps once more. -/
def withRows (s : Option NodeState) (p : Partition) : NodeState :=
  { s.getD {} with isInitialized := true, partition := (s.getD {}).partition.or (some p) }

/-- What is known of a node of which these generations and rows are written down. -/
def known (generations : List UInt64) (rows : List Partition) : Option NodeState :=
  if generations = [] ∧ rows = [] then none
  else some { lastGeneration := generations.getLast?, isInitialized := !rows.isEmpty, partition := rows.head? }

theorem known_concat_generation (generations : List UInt64) (rows : List Partition) (g : UInt64) :
    known (generations ++ [g]) rows = some (withGeneration (known generations rows) g) := by
  by_cases h : generations = [] ∧ rows = []
  · obtain ⟨rfl, rfl⟩ := h
    rfl
  · simp [known, withGeneration, h]

theorem known_concat_rows (generations : List UInt64) (rows : List Partition) (p : Partition) :
    known generations (rows ++ [p]) = some (withRows (known generations rows) p) := by
  by_cases h : generations = [] ∧ rows = []
  · obtain ⟨rfl, rfl⟩ := h
    rfl
  · simp [known, withRows, h]

theorem node?_recordGeneration (t : Tracker) (node k : NodeId) (g : UInt64) :
    (t.recordGeneration node g).node? k =
      if node = k then some (withGeneration (t.node? k) g) else t.node? k := by
  refine (NodeMap.get?_alter ..).trans ?_
  by_cases hk : node = k
  · subst hk
    rw [if_pos rfl, if_pos rfl]
    rfl
  · rw [if_neg (Ne.symm hk), if_neg hk, node?]

theorem node?_recordPartition (t : Tracker) (node k : NodeId) (p : Partition) :
    (t.recordPartition node p).node? k =
      if node = k then some (withRows (t.node? k) p) else t.node? k := by
  refine (NodeMap.get?_alter ..).trans ?_
  by_cases hk : node = k
  · subst hk
    rw [if_pos rfl, if_pos rfl]
    rfl
  · rw [if_neg (Ne.symm hk), if_neg hk, node?]

/-- What a call makes of what is known of a node. -/
theorem node?_call (t : Tracker) (k : NodeId) {c : Call} (h : c ≠ .reset) :
    (t.call c).1.node? k =
      match c.generation? k, c.partition? k with
      | some g, _ => some (withGeneration (t.node? k) g)
      | none, some p => some (withRows (t.node? k) p)
      | none, none => t.node? k := by
  cases c with
  | observe r =>
    obtain ⟨node, payload⟩ := r
    cases payload with
    | generation g cells =>
      refine (node?_recordGeneration t node k g).trans ?_
      by_cases hk : node = k <;> simp [Call.generation?, Call.partition?, hk]
    | init startRow endRow =>
      refine (node?_recordPartition t node k ⟨startRow, endRow⟩).trans ?_
      by_cases hk : node = k <;> simp [Call.generation?, Call.partition?, hk]
    | pageFaults | network | barrier | complete | error => rfl
  | recordGeneration node g =>
    refine (node?_recordGeneration t node k g).trans ?_
    by_cases hk : node = k <;> simp [Call.generation?, Call.partition?, hk]
  | recordPartition node p =>
    refine (node?_recordPartition t node k p).trans ?_
    by_cases hk : node = k <;> simp [Call.generation?, Call.partition?, hk]
  | reset => exact absurd rfl h

/-- No call writes down both. -/
theorem Call.partition?_of_generation? {c : Call} {k : NodeId} {g : UInt64} (h : c.generation? k = some g) :
    c.partition? k = none := by
  cases c with
  | observe r =>
    obtain ⟨node, payload⟩ := r
    cases payload with
    | generation | pageFaults | network | barrier | complete | error => rfl
    | init => cases h
  | recordGeneration | reset => rfl
  | recordPartition => cases h

/-- After any calls a node is known by what they have written down for it. -/
theorem node?_after (calls : List Call) (k : NodeId) :
    (after calls).node? k = known (generations k calls) (rowsTold k calls) := by
  induction calls using List.reverseRecOn with
  | nil => rfl
  | append_singleton calls c ih =>
    rw [after_concat]
    by_cases hc : c = .reset
    · subst hc
      simp [generations, rowsTold, sinceReset_concat, call, known, node?, empty]
    · rw [node?_call _ k hc, generations_concat k calls hc, rowsTold_concat k calls hc, ih]
      cases hg : c.generation? k with
      | some g =>
        rw [Call.partition?_of_generation? hg]
        simp [known_concat_generation]
      | none =>
        cases hp : c.partition? k with
        | some p => simp [known_concat_rows]
        | none => simp

/-- The calls before the last reset leave nothing behind. -/
theorem after_sinceReset (calls : List Call) : after (sinceReset calls) = after calls := by
  have hsame : sinceReset (sinceReset calls) = sinceReset calls := List.rtakeWhile_idempotent _ _
  have hnodes : (after (sinceReset calls)).nodes = (after calls).nodes := by
    apply NodeMap.ext_get?
    intro k
    have hleft := node?_after (sinceReset calls) k
    have hright := node?_after calls k
    simp only [generations, rowsTold, hsame] at hleft hright
    exact hleft.trans hright.symm
  cases h : after (sinceReset calls)
  cases h' : after calls
  simpa [h, h'] using hnodes

/-! ## The least generation -/

theorem minimumGeneration_eq_zero {t : Tracker} (h : ∀ e ∈ t.snapshot, e.2.lastGeneration = none) :
    t.minimumGeneration = 0 := by
  have hnone : t.snapshot.filterMap (·.2.lastGeneration) = [] := List.filterMap_eq_nil_iff.2 h
  rw [minimumGeneration, hnone]
  rfl

/-- With a generation somewhere, the least one is one of them and above none of them. -/
theorem minimumGeneration_spec {t : Tracker} {e : NodeId × NodeState} (he : e ∈ t.snapshot) {g : UInt64}
    (hg : e.2.lastGeneration = some g) :
    (∃ e ∈ t.snapshot, e.2.lastGeneration = some t.minimumGeneration) ∧
      t.minimumGeneration.toNat ≤ g.toNat := by
  have hmem : g ∈ t.snapshot.filterMap (·.2.lastGeneration) := List.mem_filterMap.2 ⟨e, he, hg⟩
  cases hmin : (t.snapshot.filterMap (·.2.lastGeneration)).min? with
  | none =>
    rw [List.min?_eq_none_iff.1 hmin] at hmem
    cases hmem
  | some least =>
    have hleast : t.minimumGeneration = least := by rw [minimumGeneration, hmin, Option.getD_some]
    obtain ⟨hin, hbelow⟩ := List.min?_eq_some_iff.1 hmin
    rw [hleast]
    exact ⟨List.mem_filterMap.1 hin, UInt64.le_iff_toNat_le.1 (hbelow g hmem)⟩

/-! ## What the tracker tells -/

/-- What a tracker answers is what some calls have written down since the last reset among them. -/
structure Tells (t : Tracker) (calls : List Call) : Prop where
  tracked : ∀ k, (t.node? k).isSome = true ↔ generations k calls ≠ [] ∨ rowsTold k calls ≠ []
  /-- The latest generation counts. -/
  lastGeneration : ∀ k, (t.node? k).bind (·.lastGeneration) = (generations k calls).getLast?
  isInitialized : ∀ k, t.isInitialized k = true ↔ rowsTold k calls ≠ []
  partition_isSome : ∀ k s, t.node? k = some s → (s.isInitialized = true ↔ s.partition.isSome = true)
  /-- The first rows count. -/
  partition : ∀ k, t.partition? k = (rowsTold k calls).head?
  /-- Rows are accepted if they are the first of their node. -/
  answer : ∀ k p, (t.call (.recordPartition k p)).2 = some (decide (rowsTold k calls = []))
  snapshot_sorted : t.snapshot.Pairwise fun a b => a.1.toNat < b.1.toNat
  mem_snapshot : ∀ k s, (k, s) ∈ t.snapshot ↔ t.node? k = some s
  /-- The partitions are those entries of the snapshot that have one. -/
  partitions : t.partitions.map (fun e => (e.1, some e.2)) =
    (t.snapshot.filter (·.2.partition.isSome)).map fun e => (e.1, e.2.partition)
  minimum_eq_zero : (∀ e ∈ t.snapshot, e.2.lastGeneration = none) → t.minimumGeneration = 0
  /-- With a generation somewhere, the least one is one of them and above none of them. -/
  minimum_least : ∀ e ∈ t.snapshot, ∀ g, e.2.lastGeneration = some g →
    (∃ e ∈ t.snapshot, e.2.lastGeneration = some t.minimumGeneration) ∧
      t.minimumGeneration.toNat ≤ g.toNat

theorem partition?_after (calls : List Call) (k : NodeId) :
    (after calls).partition? k = (rowsTold k calls).head? := by
  have hnode := node?_after calls k
  rw [node?] at hnode
  rw [partition?, hnode, known]
  split
  case isTrue h => simp [h.2]
  case isFalse => rfl

theorem map_partitions (t : Tracker) :
    t.partitions.map (fun e => (e.1, some e.2)) =
      (t.snapshot.filter (·.2.partition.isSome)).map fun e => (e.1, e.2.partition) := by
  rw [partitions]
  induction t.snapshot with
  | nil => rfl
  | cons e entries ih =>
    obtain ⟨k, s⟩ := e
    cases h : s.partition <;> simp [h, ih]

/-- Whatever calls there were, the tracker tells what they have written down since the last reset, and all
before is as if it had never been. -/
theorem tells_after (calls : List Call) :
    (after calls).Tells calls ∧ after calls = after (sinceReset calls) := by
  refine ⟨?_, (after_sinceReset calls).symm⟩
  constructor
  case tracked =>
    intro k
    rw [node?_after, known]
    split
    case isTrue h => simp [h.1, h.2]
    case isFalse h => exact ⟨fun _ => not_and_or.1 h, fun _ => rfl⟩
  case lastGeneration =>
    intro k
    rw [node?_after, known]
    split
    case isTrue h => simp [h.1]
    case isFalse => rfl
  case isInitialized =>
    intro k
    have hnode := node?_after calls k
    rw [node?] at hnode
    rw [Tracker.isInitialized, hnode, known]
    split
    case isTrue h => simp [h.2]
    case isFalse => simp
  case partition_isSome =>
    intro k s hs
    rw [node?_after, known] at hs
    split at hs
    case isTrue => cases hs
    case isFalse =>
      cases hs
      cases rowsTold k calls <;> simp
  case partition => exact partition?_after calls
  case answer =>
    intro k p
    rw [call, acceptsPartition, partition?_after]
    cases rowsTold k calls <;> rfl
  case snapshot_sorted => exact (after calls).nodes.sorted
  case mem_snapshot => exact fun k s => NodeMap.mem_toList_iff
  case partitions => exact map_partitions _
  case minimum_eq_zero => exact minimumGeneration_eq_zero
  case minimum_least => exact fun e he g hg => minimumGeneration_spec he hg

/-- A reset opens the rows of a node again. -/
example : (after [.recordPartition 0 ⟨0, 4⟩, .reset, .observe ⟨0, .init 5 9⟩, .recordPartition 0 ⟨0, 1⟩]).snapshot =
    [(0, ⟨none, true, some ⟨5, 9⟩⟩)] := by decide

end ClusterWatch.Tracker
