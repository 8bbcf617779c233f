import ClusterWatch.Proofs.Json.Reals
import ClusterWatch.Proofs.Json.Record
import ClusterWatch.Proofs.Line.FirstMatch

/-!
# Reading back what lines say

An event is read back from its JSON text, with its node, its kind and its time, if and only if the figures in it are
finite (`Event.ofText?_toJson_iff`). Only reports about traffic have figures that may not be finite: an amount in a
line can have any number of digits, and from half way beyond the largest double on it is infinite
(`SpellsAmount.isFinite_iff`). So every line of the nodes has an event that can be read back, except for lines about
traffic with such an amount (`View.readable_iff`).
-/

namespace ClusterWatch
open Decimal Time JsonValue Text

/-! ## Events -/

/-- The figures of a payload that are doubles. -/
def Payload.figures : Payload → List Binary64
  | .network kbSent kbReceived => [kbSent, kbReceived]
  | _ => []

theorem Payload.figures_of_kind_ne {p : Payload} (h : p.kind ≠ .network) : p.figures = [] := by
  cases p with
  | network => exact absurd rfl h
  | _ => rfl

/-- What is said about traffic is written as a payload that is read if the figures are finite. -/
theorem Payload.exists_writes_network (sent received : Binary64) :
    ∃ v, Writes (Payload.network sent received).toJson v ∧ v.depth = 1 ∧
      ((Payload.ofJson? v).isSome = true ↔ sent.isFinite = true ∧ received.isFinite = true) ∧
      ∀ p, Payload.ofJson? v = some p → p.kind = .network := by
  obtain ⟨a, hwrites, hdepth, hreal⟩ := exists_writes_real sent
  obtain ⟨b, hwrites', hdepth', hreal'⟩ := exists_writes_real received
  let v : JsonValue := .object (named ["type", "kb_sent", "kb_received"] [.string (some "network".toList), a, b])
  have hv : Writes (Payload.network sent received).toJson v :=
    writes_object (.cons ⟨rfl, writes_string _⟩ (.cons ⟨rfl, hwrites⟩ (.cons ⟨rfl, hwrites'⟩ .nil))) (by simp)
  have hread : Payload.ofJson? v = a.real?.bind fun x => b.real?.bind fun y => some (.network x y) :=
    @Payload.ofJson?_named .network [a, b] rfl v rfl hv.proper
  refine ⟨v, hv, ?_, ?_, ?_⟩
  · simp [v, named, depth, depthOfFields, hdepth, hdepth']
  · rw [hread, ← hreal, ← hreal']
    cases a.real? <;> cases b.real? <;> simp
  · intro p hp
    rw [hread] at hp
    obtain ⟨x, -, hp⟩ := Option.bind_eq_some_iff.1 hp
    obtain ⟨y, -, hp⟩ := Option.bind_eq_some_iff.1 hp
    cases hp
    rfl

/-- An event at a plain instant is one line of JSON. It is read back if its figures are finite, and what is read
has its node, its kind and its time. -/
theorem Event.ofText?_toJson_iff {e : Event} (h : e.observedAt.IsPlain) :
    ((Event.ofText? e.toJson).isSome = true ↔ ∀ x ∈ e.payload.figures, x.isFinite = true) ∧
      (∀ e', Event.ofText? e.toJson = some e' →
        e'.node = e.node ∧ e'.payload.kind = e.payload.kind ∧ e'.observedAt = e.observedAt) ∧
      '\n' ∉ e.toJson := by
  have hline {v : JsonValue} (hv : Writes e.toJson v) : '\n' ∉ e.toJson := fun hfeed =>
    absurd (hv.printable '\n' hfeed) (by decide)
  by_cases hkind : e.payload.kind = .network
  · obtain ⟨⟨node, payload⟩, t⟩ := e
    cases payload with
    | network sent received =>
      obtain ⟨v, hwrites, hdepth, hsome, hread⟩ := Payload.exists_writes_network sent received
      have hevent : Writes (Event.mk ⟨node, .network sent received⟩ t).toJson (.object
          (named ["node", "observed_at", "payload"] [.number (naturalText node.toNat), .string (some t.toChars), v])) :=
        writes_object (.cons ⟨rfl, writes_word32 _⟩ (.cons ⟨rfl, writes_string _⟩ (.cons ⟨rfl, hwrites⟩ .nil)))
          (by simp)
      have htext : Event.ofText? (Event.mk ⟨node, .network sent received⟩ t).toJson =
          (Payload.ofJson? v).map fun p => ⟨⟨node, p⟩, t⟩ := by
        rw [Event.ofText?, hevent.ofChars?, Option.bind_some, Event.ofJson?_named,
          Event.ofValues?_written node h (hdepth ▸ by decide)]
      rw [htext]
      refine ⟨?_, fun e' he' => ?_, hline hevent⟩
      · rw [Option.isSome_map, hsome]
        simp [Payload.figures]
      · obtain ⟨p, hp, rfl⟩ := Option.map_eq_some_iff.1 he'
        exact ⟨rfl, hread p hp, rfl⟩
    | _ => cases hkind
  · have htext := Event.ofText?_toJson ⟨hkind, h⟩
    rw [htext, Payload.figures_of_kind_ne hkind]
    refine ⟨by simp, fun e' he' => ?_, hline (Event.writes hkind)⟩
    cases he'
    exact ⟨rfl, rfl, rfl⟩

/-! ## Amounts -/

namespace Line

/-- The digits, with at most one point among them, spell an amount that is below the bound from which on amounts are
infinite. -/
def FitsAmount (cs : List Char) : Prop :=
  ∃ whole places, (∀ c ∈ whole ++ places, c.isDigit = true) ∧ whole ++ places ≠ [] ∧
    (cs = whole ++ '.' :: places ∨ cs = whole ∧ places = []) ∧
    numeral (whole ++ places) < Binary64.overflowBound * 10 ^ places.length

theorem SpellsAmount.isFinite_iff {cs : List Char} {x : Binary64} (h : SpellsAmount cs x) :
    x.isFinite = true ↔ FitsAmount cs := by
  have hpow (n : Nat) : 0 < 10 ^ n := Nat.pow_pos (by decide)
  constructor
  · intro hfinite
    obtain ⟨whole, places, hdigits, hne, hform, hrounds⟩ := h
    exact ⟨whole, places, hdigits, hne, hform, (hrounds.isFinite_iff (hpow _)).1 hfinite⟩
  · rintro ⟨whole, places, hdigits, hne, hform, hlt⟩
    -- The digits are split in one way only, so this is the amount that they spell.
    have hrounds := (rounds_joinPlaces whole places).2 rfl
    have hspells : SpellsAmount cs (joinPlaces false whole places 0) := ⟨whole, places, hdigits, hne, hform, hrounds⟩
    have heq := (figure?_of_spellsAmount h).symm.trans (figure?_of_spellsAmount hspells)
    rw [Option.some.inj heq]
    exact (hrounds.isFinite_iff (hpow _)).2 hlt

/-- The figures of what a rule says are finite if the amounts among its captures fit. -/
theorem Rule.Says.figures_iff {rule : Rule} {runs : List (List Char)} {r : Report} (h : rule.Says runs r) :
    (∀ x ∈ r.payload.figures, x.isFinite = true) ↔
      (r.payload.kind = .network → ∀ amount ∈ runs.tail, FitsAmount amount) := by
  cases h with
  | network hnode hsent hreceived =>
    simp [Payload.figures, Payload.kind, ← hsent.isFinite_iff, ← hreceived.isFinite_iff]
  | _ => simp [Payload.figures, Payload.kind]

theorem exists_says {line : List Char} {r : Report} (h : classify line = some r) :
    ∃ rule ∈ rules, ∃ runs, rule.pattern.OccursFirst (trim line) runs ∧ rule.Says runs r := by
  obtain ⟨rule, hrule, happly⟩ := List.exists_of_findSome?_eq_some h
  exact ⟨rule, hrule, (Rule.apply_eq_some_iff hrule).1 happly⟩

end Line

/-! ## Printed lines -/

/-- What is printed for a line of a node is one line of JSON, and what is read back from it has the node, the kind and
the time of the event; it is the event itself if this is not about traffic. It is read back always, except if the line
is about traffic and one of the two amounts in it is not below the bound. -/
theorem View.readable_iff {line : List Char} {r : Report} (h : Line.classify line = some r) {t : Instant}
    (ht : t.IsPlain) (colors : Bool) :
    let v : View := { json := true, colors }
    let text := v.event ⟨r, t⟩
    '\n' ∉ text ∧
      (∀ e, Event.ofText? text = some e → e.node = r.node ∧ e.payload.kind = r.payload.kind ∧ e.observedAt = t) ∧
      (r.payload.kind ≠ .network → Event.ofText? text = some ⟨r, t⟩) ∧
      ∃ rule ∈ Line.rules, ∃ runs, rule.pattern.OccursFirst (trim line) runs ∧ rule.Says runs r ∧
        ((Event.ofText? text).isSome = true ↔
          (r.payload.kind = .network → ∀ amount ∈ runs.tail, Line.FitsAmount amount)) := by
  intro v text
  obtain ⟨hsome, hsame, hline⟩ := @Event.ofText?_toJson_iff ⟨r, t⟩ ht
  obtain ⟨rule, hrule, runs, hoccurs, hruns⟩ := Line.exists_says h
  exact ⟨hline, hsame, fun hkind => Event.ofText?_toJson ⟨hkind, ht⟩, rule, hrule, runs, hoccurs, hruns,
    hsome.trans hruns.figures_iff⟩

/-- Two amounts, one of them of 309 digits next to the bound, in the first second of 1970. -/
theorem View.readable_iff_large :
    let line := "[Node 7] Network: 17976931348623158".toList ++ (List.replicate 292 '0' ++
      " KB sent, .5 KB received".toList)
    let r : Report := ⟨7, .network (.ofCode false (Binary64.infiniteCode - 1)) (.ofDecimal false 5 (-1))⟩
    let v : View := { json := true }
    Line.classify line = some r ∧ Instant.IsPlain ⟨0, 0⟩ ∧
      ∃ e, Event.ofText? (v.event ⟨r, ⟨0, 0⟩⟩) = some e ∧ e.node = 7 ∧ e.payload.kind = .network := by
  intro line r v
  have hline : Line.classify line = some r := by decide +kernel
  have ht : Instant.IsPlain ⟨0, 0⟩ := ⟨by decide, by decide⟩
  have hfinite : ∀ x ∈ r.payload.figures, x.isFinite = true := List.all_eq_true.1 (by decide +kernel)
  obtain ⟨-, hsame, -, rule, -, runs, -, hruns, hsome⟩ := View.readable_iff hline ht false
  obtain ⟨e, he⟩ := Option.isSome_iff_exists.1 (hsome.2 (hruns.figures_iff.1 hfinite))
  obtain ⟨hnode, hkind, -⟩ := hsame e he
  exact ⟨hline, ht, e, he, hnode, hkind⟩

/-- A line about traffic with an amount of 310 nines is understood and printed, and what is printed for it cannot be
read back. -/
theorem View.overflowing_line_unreadable :
    let line := "[Node 0] Network: ".toList ++ (List.replicate 310 '9' ++ " KB sent, 1 KB received".toList)
    let r : Report := ⟨0, .network (.infinity false) (.ofNat 1)⟩
    let v : View := { json := true }
    Line.classify line = some r ∧ Event.ofText? (v.event ⟨r, ⟨0, 0⟩⟩) = none := by
  intro line r v
  have hline : Line.classify line = some r := by decide +kernel
  have ht : Instant.IsPlain ⟨0, 0⟩ := ⟨by decide, by decide⟩
  have hinfinite : (Binary64.infinity false).isFinite ≠ true := by decide
  refine ⟨hline, Option.not_isSome_iff_eq_none.1 fun hsome => hinfinite ?_⟩
  exact (@Event.ofText?_toJson_iff ⟨r, ⟨0, 0⟩⟩ ht).1.1 hsome _ List.mem_cons_self

end ClusterWatch
