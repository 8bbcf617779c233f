import Mathlib.Algebra.BigOperators.Group.Finset.Piecewise
import Mathlib.Data.Fintype.Defs
import Mathlib.Data.List.Basic

/-!
# Interleaved lists

Several parties each contribute to one list, and every entry tells its party. `share` is what one of them
contributed, in its order.
-/

namespace ClusterWatch
variable {ι α β : Type}

/-- What the entries become that stand for something, still with their parties. -/
def pick (f : α → Option β) (entries : List (ι × α)) : List (ι × β) :=
  entries.filterMap fun entry => (f entry.2).map (entry.1, ·)

theorem map_snd_pick (f : α → Option β) (entries : List (ι × α)) :
    (pick f entries).map (·.2) = (entries.map (·.2)).filterMap f := by
  induction entries with
  | nil => rfl
  | cons entry entries ih =>
    have hcons : pick f (entry :: entries) = ((f entry.2).map (entry.1, ·)).toList ++ pick f entries := by
      rw [pick, List.filterMap_cons]
      cases f entry.2 <;> rfl
    rw [hcons, List.map_append, ih, List.map_cons, List.filterMap_cons]
    cases f entry.2 <;> rfl

variable [DecidableEq ι]

/-- What a party contributed. -/
def share (i : ι) (entries : List (ι × α)) : List α :=
  entries.filterMap fun entry => if entry.1 = i then some entry.2 else none

theorem share_append (i : ι) (entries entries' : List (ι × α)) :
    share i (entries ++ entries') = share i entries ++ share i entries' := List.filterMap_append

theorem share_cons_self (i : ι) (a : α) (entries : List (ι × α)) :
    share i ((i, a) :: entries) = a :: share i entries := by
  rw [share, List.filterMap_cons, if_pos rfl]
  rfl

theorem share_cons_of_ne {i j : ι} (h : j ≠ i) (a : α) (entries : List (ι × α)) :
    share i ((j, a) :: entries) = share i entries := by
  rw [share, List.filterMap_cons, if_neg h]
  rfl

theorem share_map_self (i : ι) (contribution : List α) : share i (contribution.map (i, ·)) = contribution := by
  induction contribution with
  | nil => rfl
  | cons a contribution ih => rw [List.map_cons, share_cons_self, ih]

theorem share_map_of_ne {i j : ι} (h : j ≠ i) (contribution : List α) :
    share i (contribution.map (j, ·)) = [] := by
  induction contribution with
  | nil => rfl
  | cons a contribution ih => rw [List.map_cons, share_cons_of_ne h, ih]

theorem mem_share {i : ι} {a : α} {entries : List (ι × α)} : a ∈ share i entries ↔ (i, a) ∈ entries := by
  rw [share, List.mem_filterMap]
  constructor
  · rintro ⟨⟨j, b⟩, hmem, hentry⟩
    by_cases hj : j = i
    · rw [if_pos hj] at hentry
      cases hj
      cases hentry
      exact hmem
    · rw [if_neg hj] at hentry
      cases hentry
  · exact fun hmem => ⟨(i, a), hmem, if_pos rfl⟩

theorem share_pick (f : α → Option β) (i : ι) (entries : List (ι × α)) :
    share i (pick f entries) = (share i entries).filterMap f := by
  rw [share, pick, share, List.filterMap_filterMap, List.filterMap_filterMap]
  congr 1
  funext ⟨j, a⟩
  by_cases hj : j = i
  · cases h : f a <;> simp [hj, h]
  · cases h : f a <;> simp [hj]

theorem filter_map_snd {p : α → Bool} {i : ι} {entries : List (ι × α)}
    (h : ∀ entry ∈ entries, p entry.2 = true → entry.1 = i) :
    (entries.map (·.2)).filter p = (share i entries).filter p := by
  induction entries with
  | nil => rfl
  | cons entry entries ih =>
    obtain ⟨j, a⟩ := entry
    obtain ⟨hentry, hentries⟩ := List.forall_mem_cons.1 h
    have ih := ih hentries
    by_cases hj : j = i
    · rw [hj, share_cons_self, List.map_cons, List.filter_cons, List.filter_cons, ih]
    · have ha : ¬ p a = true := fun ha => hj (hentry ha)
      rw [share_cons_of_ne hj, List.map_cons, List.filter_cons_of_neg ha, ih]

/-- Where the entries of interest are all of one party, their order is that in the shares. -/
theorem filter_map_snd_eq {p : α → Bool} {entries entries' : List (ι × α)}
    (hshare : ∀ i, (share i entries).filter p = (share i entries').filter p)
    (hparty : ∀ x ∈ entries, ∀ y ∈ entries, p x.2 = true → p y.2 = true → x.1 = y.1) :
    (entries.map (·.2)).filter p = (entries'.map (·.2)).filter p := by
  have hmem : ∀ x ∈ entries', p x.2 = true → x ∈ entries := by
    rintro ⟨i, a⟩ hx ha
    have hfiltered : a ∈ (share i entries').filter p := List.mem_filter.2 ⟨mem_share.2 hx, ha⟩
    rw [← hshare i] at hfiltered
    exact mem_share.1 (List.mem_filter.1 hfiltered).1
  by_cases h : ∃ x ∈ entries, p x.2 = true
  · obtain ⟨⟨i, a⟩, hx, ha⟩ := h
    rw [filter_map_snd fun y hy hpy => hparty y hy (i, a) hx hpy ha,
      filter_map_snd fun y hy hpy => hparty y (hmem y hy hpy) (i, a) hx hpy ha, hshare]
  · have hnone {l : List (ι × α)} (hl : ∀ x ∈ l, p x.2 = true → x ∈ entries) :
        (l.map (·.2)).filter p = [] := by
      rw [List.filter_eq_nil_iff]
      intro a ha hpa
      obtain ⟨x, hx, rfl⟩ := List.mem_map.1 ha
      exact h ⟨x, hl x hx hpa, hpa⟩
    rw [hnone fun x hx _ => hx, hnone hmem]

theorem length_eq_sum_share [Fintype ι] (entries : List (ι × α)) :
    entries.length = ∑ i, (share i entries).length := by
  induction entries with
  | nil => exact (Finset.sum_const_zero).symm
  | cons entry entries ih =>
    obtain ⟨j, a⟩ := entry
    have hshare (i : ι) :
        (share i ((j, a) :: entries)).length = (share i entries).length + if j = i then 1 else 0 := by
      by_cases hj : j = i
      · rw [hj, share_cons_self, if_pos rfl, List.length_cons]
      · rw [share_cons_of_ne hj, if_neg hj, Nat.add_zero]
    simp only [hshare, List.length_cons]
    rw [Finset.sum_add_distrib, Finset.sum_ite_eq, if_pos (Finset.mem_univ j), ← ih]

end ClusterWatch
