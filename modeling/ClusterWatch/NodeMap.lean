import ClusterWatch.Event.Basic

/-! # Maps from nodes

A `NodeMap` keeps one value a node, in increasing order of the nodes. `get?_alter` says what `alter`
does to the value of each node, and `mem_toList_iff` that the entries are the nodes with a value.
-/
namespace ClusterWatch

/-- Values of some nodes, in strictly increasing order of the nodes. -/
structure NodeMap (α : Type) where
  toList : List (NodeId × α)
  sorted : toList.Pairwise fun a b => a.1.toNat < b.1.toNat := by exact List.Pairwise.nil

namespace NodeMap
variable {α β : Type}

def lookup (node : NodeId) : List (NodeId × α) → Option α
  | [] => none
  | (k, a) :: entries => if k = node then some a else lookup node entries

/-- The entries with the value of a node replaced, or with a new entry at the place of the node. -/
def alterEntries (node : NodeId) (f : Option α → α) : List (NodeId × α) → List (NodeId × α)
  | [] => [(node, f none)]
  | (k, a) :: entries =>
    if k = node then (k, f (some a)) :: entries
    else if node.toNat < k.toNat then (node, f none) :: (k, a) :: entries
    else (k, a) :: alterEntries node f entries

theorem mem_alterEntries {node : NodeId} {f : Option α → α} {entries : List (NodeId × α)}
    {e : NodeId × α} (h : e ∈ alterEntries node f entries) :
    e.1 = node ∨ ∃ a, (e.1, a) ∈ entries := by
  induction entries with
  | nil =>
    simp only [alterEntries, List.mem_singleton] at h
    exact .inl (by rw [h])
  | cons head entries ih =>
    obtain ⟨k, a⟩ := head
    simp only [alterEntries] at h
    split at h
    case isTrue hk =>
      rcases List.mem_cons.1 h with rfl | h
      · exact .inl hk
      · exact .inr ⟨e.2, List.mem_cons_of_mem _ h⟩
    case isFalse =>
      split at h
      · rcases List.mem_cons.1 h with rfl | h
        · exact .inl rfl
        · exact .inr ⟨e.2, h⟩
      · rcases List.mem_cons.1 h with rfl | h
        · exact .inr ⟨a, List.mem_cons_self⟩
        · rcases ih h with h | ⟨b, h⟩
          · exact .inl h
          · exact .inr ⟨b, List.mem_cons_of_mem _ h⟩

theorem sorted_alterEntries (node : NodeId) (f : Option α → α) {entries : List (NodeId × α)}
    (h : entries.Pairwise fun a b => a.1.toNat < b.1.toNat) :
    (alterEntries node f entries).Pairwise fun a b => a.1.toNat < b.1.toNat := by
  induction entries with
  | nil => simp [alterEntries]
  | cons head entries ih =>
    obtain ⟨k, a⟩ := head
    obtain ⟨hk, hs⟩ := List.pairwise_cons.1 h
    simp only [alterEntries]
    split
    case isTrue => exact List.pairwise_cons.2 ⟨hk, hs⟩
    case isFalse hne =>
      split
      case isTrue hlt =>
        refine List.pairwise_cons.2 ⟨fun e he => ?_, h⟩
        rcases List.mem_cons.1 he with rfl | he
        · exact hlt
        · exact Nat.lt_trans hlt (hk e he)
      case isFalse hge =>
        refine List.pairwise_cons.2 ⟨fun e he => ?_, ih hs⟩
        rcases mem_alterEntries he with he | ⟨b, he⟩
        · have hne' : k.toNat ≠ node.toNat := fun h => hne (UInt32.toNat_inj.1 h)
          show k.toNat < e.1.toNat
          rw [he]
          omega
        · exact hk (e.1, b) he

def empty : NodeMap α where
  toList := []

instance : EmptyCollection (NodeMap α) := ⟨empty⟩
instance : Inhabited (NodeMap α) := ⟨empty⟩

instance [DecidableEq α] : DecidableEq (NodeMap α) := fun m n =>
  if h : m.toList = n.toList then .isTrue (by cases m; cases n; cases h; rfl)
  else .isFalse fun hmn => h (by rw [hmn])

def get? (m : NodeMap α) (node : NodeId) : Option α := lookup node m.toList

/-- The map with a new value for a node, made from the old value if there is one. -/
def alter (m : NodeMap α) (node : NodeId) (f : Option α → α) : NodeMap α where
  toList := alterEntries node f m.toList
  sorted := sorted_alterEntries node f m.sorted

def values (m : NodeMap α) : List α := m.toList.map (·.2)

theorem lookup_alterEntries (node other : NodeId) (f : Option α → α) {entries : List (NodeId × α)}
    (h : entries.Pairwise fun a b => a.1.toNat < b.1.toNat) :
    lookup other (alterEntries node f entries) =
      if other = node then some (f (lookup node entries)) else lookup other entries := by
  induction entries with
  | nil =>
    by_cases hn : other = node
    · simp [alterEntries, lookup, hn]
    · simp [alterEntries, lookup, hn, Ne.symm hn]
  | cons head entries ih =>
    obtain ⟨k, a⟩ := head
    obtain ⟨hk, hs⟩ := List.pairwise_cons.1 h
    by_cases hkn : k = node
    · subst hkn
      by_cases ho : other = k
      · simp [alterEntries, lookup, ho]
      · simp [alterEntries, lookup, ho, Ne.symm ho]
    · by_cases hlt : node.toNat < k.toNat
      · have hnone : lookup node entries = none := by
          have habove : ∀ e ∈ entries, e.1 ≠ node := by
            intro e he hen
            have hke : k.toNat < e.1.toNat := hk e he
            rw [hen] at hke
            omega
          clear ih h hk hs
          induction entries with
          | nil => rfl
          | cons e entries ih =>
            have := habove e List.mem_cons_self
            simp [lookup, this, ih fun e he => habove e (List.mem_cons_of_mem _ he)]
        by_cases ho : other = node
        · subst ho
          simp [alterEntries, lookup, hkn, hlt, hnone]
        · simp [alterEntries, lookup, hkn, hlt, ho, Ne.symm ho]
      · by_cases ho : other = node
        · subst ho
          simp [alterEntries, lookup, hkn, hlt, ih hs]
        · simp only [alterEntries, if_neg hkn, if_neg hlt, lookup, ih hs, if_neg ho]

@[simp] theorem get?_empty (node : NodeId) : (∅ : NodeMap α).get? node = none := rfl

theorem get?_alter (m : NodeMap α) (node other : NodeId) (f : Option α → α) :
    (m.alter node f).get? other =
      if other = node then some (f (m.get? node)) else m.get? other :=
  lookup_alterEntries node other f m.sorted

theorem lookup_eq_some_of_mem {node : NodeId} {a : α} {entries : List (NodeId × α)}
    (h : entries.Pairwise fun a b => a.1.toNat < b.1.toNat) (hm : (node, a) ∈ entries) :
    lookup node entries = some a := by
  induction entries with
  | nil => cases hm
  | cons head entries ih =>
    obtain ⟨k, b⟩ := head
    obtain ⟨hk, hs⟩ := List.pairwise_cons.1 h
    rcases List.mem_cons.1 hm with heq | hm
    · simp only [Prod.mk.injEq] at heq
      simp [lookup, heq.1, heq.2]
    · have hne : k ≠ node := fun heq => by
        have := hk _ hm
        rw [heq] at this
        exact Nat.lt_irrefl _ this
      simp [lookup, hne, ih hs hm]

theorem mem_of_lookup_eq_some {node : NodeId} {a : α} {entries : List (NodeId × α)}
    (h : lookup node entries = some a) : (node, a) ∈ entries := by
  induction entries with
  | nil => cases h
  | cons head entries ih =>
    obtain ⟨k, b⟩ := head
    by_cases hk : k = node
    · simp only [lookup, hk, if_true, Option.some.injEq] at h
      simp [hk, h]
    · simp only [lookup, hk, if_false] at h
      exact List.mem_cons_of_mem _ (ih h)

theorem mem_toList_iff {m : NodeMap α} {node : NodeId} {a : α} :
    (node, a) ∈ m.toList ↔ m.get? node = some a :=
  ⟨lookup_eq_some_of_mem m.sorted, mem_of_lookup_eq_some⟩

end NodeMap

end ClusterWatch
