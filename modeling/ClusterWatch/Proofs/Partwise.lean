import Mathlib.Data.List.Nodup

/-!
# Records that are filled part by part

A list of values under keys fills a record, one step a value. Each part of the record has a key of its own, which no
step but the one with that key looks at (`Partwise`). So if no key is there twice, a part ends up as what is read from
the value under its key, or as it was if there is none, whatever the order of the list and the other values
(`Partwise.get_eq`), and the list fails only for a value that its own part refuses (`Partwise.exists_refused`).
-/

namespace ClusterWatch

variable {α β σ κ ν ε : Type}

/-! ## Results and errors -/

theorem map_eq_ok_iff {r : Except ε α} {f : α → β} {b : β} : r.map f = .ok b ↔ ∃ a, r = .ok a ∧ f a = b := by
  cases r <;> simp [Except.map]

theorem map_eq_error_iff {r : Except ε α} {f : α → β} {e : ε} : r.map f = .error e ↔ r = .error e := by
  cases r <;> simp [Except.map]

theorem foldlM_cons_eq_ok_iff {step : σ → α → Except ε σ} {a : α} {as : List α} {s s' : σ} :
    (a :: as).foldlM step s = .ok s' ↔ ∃ next, step s a = .ok next ∧ as.foldlM step next = .ok s' := by
  rw [List.foldlM_cons]
  cases step s a <;> simp [bind, Except.bind]

theorem foldlM_cons_eq_error_iff {step : σ → α → Except ε σ} {a : α} {as : List α} {s : σ} {e : ε} :
    (a :: as).foldlM step s = .error e ↔
      step s a = .error e ∨ ∃ next, step s a = .ok next ∧ as.foldlM step next = .error e := by
  rw [List.foldlM_cons]
  cases step s a <;> simp [bind, Except.bind]

/-! ## Values under keys -/

/-- The value under a key. -/
def valueAt? [DecidableEq κ] (entries : List (κ × ν)) (k : κ) : Option ν := (entries.find? (·.1 = k)).map (·.2)

theorem mem_of_valueAt? [DecidableEq κ] {entries : List (κ × ν)} {k : κ} {v : ν} (h : valueAt? entries k = some v) :
    (k, v) ∈ entries := by
  obtain ⟨e, he, rfl⟩ := Option.map_eq_some_iff.1 h
  have hkey := List.find?_some he
  rw [decide_eq_true_eq] at hkey
  rw [← hkey]
  exact List.mem_of_find?_eq_some he

theorem valueAt?_eq_none_iff [DecidableEq κ] {entries : List (κ × ν)} {k : κ} :
    valueAt? entries k = none ↔ k ∉ entries.map (·.1) := by
  rw [valueAt?, Option.map_eq_none_iff, List.find?_eq_none, List.mem_map, not_exists]
  simp only [decide_eq_true_eq, not_and]

theorem valueAt?_cons_self [DecidableEq κ] (k : κ) (v : ν) (entries : List (κ × ν)) :
    valueAt? ((k, v) :: entries) k = some v := by
  rw [valueAt?, List.find?_cons_of_pos (by simp)]
  rfl

theorem valueAt?_cons_of_ne [DecidableEq κ] {k k' : κ} (h : k' ≠ k) (v : ν) (entries : List (κ × ν)) :
    valueAt? ((k', v) :: entries) k = valueAt? entries k := by
  rw [valueAt?, List.find?_cons_of_neg (by simpa using h), valueAt?]

theorem valueAt?_of_mem [DecidableEq κ] {entries : List (κ × ν)} (hnodup : (entries.map (·.1)).Nodup) {k : κ} {v : ν}
    (h : (k, v) ∈ entries) : valueAt? entries k = some v := by
  induction entries with
  | nil => cases h
  | cons e entries ih =>
    obtain ⟨hunlike, hnodup⟩ := List.nodup_cons.1 hnodup
    rcases List.mem_cons.1 h with rfl | h
    · exact valueAt?_cons_self k v entries
    · have hne : e.1 ≠ k := fun heq => hunlike (List.mem_map.2 ⟨(k, v), h, heq.symm⟩)
      rw [valueAt?_cons_of_ne hne, ih hnodup h]

/-! ## Records -/

/-- The parts of a record that the steps of a list fill. -/
structure Partwise (step : σ → κ × ν → Except ε σ) where
  Part : Type
  Value : Part → Type
  key : Part → κ
  get : σ → (p : Part) → Value p
  put : σ → (p : Part) → Value p → σ
  read? : (p : Part) → ν → Except ε (Value p)
  key_injective : ∀ {p q}, key p = key q → p = q
  get_put_self : ∀ s p x, get (put s p x) p = x
  get_put_of_ne : ∀ s {p q} x, p ≠ q → get (put s q x) p = get s p
  step_key : ∀ s p v, step s (key p, v) = (read? p v).map (put s p)
  step_other : ∀ s {k} v, (∀ p, k ≠ key p) → step s (k, v) = .ok s

namespace Partwise

variable {step : σ → κ × ν → Except ε σ} (P : Partwise step)

/-- A step with the key of a part puts there what is read, and a step with another key keeps the part. -/
theorem get_step {s s' : σ} {k : κ} {v : ν} (h : step s (k, v) = .ok s') (p : P.Part) :
    (k = P.key p → P.read? p v = .ok (P.get s' p)) ∧ (k ≠ P.key p → P.get s' p = P.get s p) := by
  by_cases hpart : ∃ q, k = P.key q
  · obtain ⟨q, rfl⟩ := hpart
    rw [P.step_key] at h
    obtain ⟨x, hread, rfl⟩ := map_eq_ok_iff.1 h
    refine ⟨fun hkey => ?_, fun hkey => ?_⟩
    · obtain rfl := P.key_injective hkey
      rw [P.get_put_self, hread]
    · exact P.get_put_of_ne s x fun heq => hkey (by rw [heq])
  · have hother : ∀ q, k ≠ P.key q := fun q hq => hpart ⟨q, hq⟩
    rw [P.step_other s v hother] at h
    cases h
    exact ⟨fun hkey => absurd hkey (hother p), fun _ => rfl⟩

/-- A step fails only for a value that the part with its key refuses. -/
theorem exists_refused_step {s : σ} {k : κ} {v : ν} {e : ε} (h : step s (k, v) = .error e) :
    ∃ p, k = P.key p ∧ P.read? p v = .error e := by
  by_cases hpart : ∃ q, k = P.key q
  · obtain ⟨q, rfl⟩ := hpart
    rw [P.step_key] at h
    exact ⟨q, rfl, map_eq_error_iff.1 h⟩
  · rw [P.step_other s v fun q hq => hpart ⟨q, hq⟩] at h
    cases h

/-- A part that has no value in the list is kept, and one that has is read from it. -/
theorem get_eq [DecidableEq κ] {entries : List (κ × ν)} (hnodup : (entries.map (·.1)).Nodup) {s s' : σ}
    (h : entries.foldlM step s = .ok s') (p : P.Part) :
    (valueAt? entries (P.key p) = none → P.get s' p = P.get s p) ∧
      ∀ v, valueAt? entries (P.key p) = some v → P.read? p v = .ok (P.get s' p) := by
  induction entries generalizing s with
  | nil =>
    cases h
    exact ⟨fun _ => rfl, fun v hv => by cases hv⟩
  | cons e entries ih =>
    obtain ⟨k, v⟩ := e
    obtain ⟨hunlike, hnodup⟩ := List.nodup_cons.1 hnodup
    obtain ⟨next, hstep, h⟩ := foldlM_cons_eq_ok_iff.1 h
    obtain ⟨hown, hother⟩ := P.get_step hstep p
    obtain ⟨hnone, hsome⟩ := ih hnodup h
    by_cases hkey : k = P.key p
    · -- No later value has the key.
      subst hkey
      rw [valueAt?_cons_self, hnone (valueAt?_eq_none_iff.2 hunlike)]
      refine ⟨fun hv => (by cases hv), fun v' hv => ?_⟩
      cases hv
      exact hown rfl
    · rw [valueAt?_cons_of_ne hkey, ← hother hkey]
      exact ⟨hnone, hsome⟩

/-- What stops the list is that a part refuses its value. -/
theorem exists_refused {entries : List (κ × ν)} {s : σ} {e : ε} (h : entries.foldlM step s = .error e) :
    ∃ p v, (P.key p, v) ∈ entries ∧ P.read? p v = .error e := by
  induction entries generalizing s with
  | nil => cases h
  | cons entry entries ih =>
    obtain ⟨k, v⟩ := entry
    rcases foldlM_cons_eq_error_iff.1 h with hfirst | ⟨next, -, hlater⟩
    · obtain ⟨p, rfl, hread⟩ := P.exists_refused_step hfirst
      exact ⟨p, v, List.mem_cons_self, hread⟩
    · obtain ⟨p, w, hw, hread⟩ := ih hlater
      exact ⟨p, w, List.mem_cons_of_mem _ hw, hread⟩

/-- A list goes through whose values are all taken by the parts that they are for. -/
theorem exists_filled [DecidableEq κ] {entries : List (κ × ν)} (hnodup : (entries.map (·.1)).Nodup)
    (h : ∀ p v, valueAt? entries (P.key p) = some v → ∃ x, P.read? p v = .ok x) (s : σ) :
    ∃ s', entries.foldlM step s = .ok s' := by
  cases hfold : entries.foldlM step s with
  | ok s' => exact ⟨s', rfl⟩
  | error e =>
    obtain ⟨p, v, hv, hread⟩ := P.exists_refused hfold
    obtain ⟨x, hx⟩ := h p v (valueAt?_of_mem hnodup hv)
    rw [hx] at hread
    cases hread

end Partwise

end ClusterWatch
