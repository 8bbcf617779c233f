import ClusterWatch.Display.View
import ClusterWatch.Proofs.Json.Values
import ClusterWatch.Proofs.Time.Stamp
import Mathlib.Data.List.Nodup

/-!
# JSON output as a record

An event that is written as JSON is read back as it was (`Event.ofText?_toJson`), unless it is about traffic,
whose figures are doubles. It is one line, so the printed lines are a record of the events
(`View.readBack_printed`).
-/

namespace ClusterWatch
open Time

namespace JsonValue

/-! ## Looking fields up -/

/-- A field is found by its name if no two fields have one name. -/
theorem only?_of_mem {fields : List (Option (List Char) × JsonValue)} (hnodup : (fields.map (·.1)).Nodup)
    {name : String} {v : JsonValue} (h : (some name.toList, v) ∈ fields) : only? fields name = some v := by
  have hvalues : valuesOf name fields = [v] := by
    induction fields with
    | nil => cases h
    | cons field fields ih =>
      obtain ⟨hfirst, hnodup⟩ := List.nodup_cons.1 hnodup
      rcases List.mem_cons.1 h with rfl | hmem
      · have hothers : ∀ f ∈ fields, ¬ f.1 = some name.toList := by
          intro f hf heq
          exact hfirst (List.mem_map.2 ⟨f, hf, heq⟩)
        simpa [valuesOf] using hothers
      · have hother : field.1 ≠ some name.toList := by
          intro heq
          exact hfirst (List.mem_map.2 ⟨_, hmem, heq.symm⟩)
        have hrest := ih hnodup hmem
        rw [valuesOf] at hrest ⊢
        rwa [List.filter_cons_of_neg (by simpa using hother)]
  rw [only?, hvalues]

/-- Fields with these names and values. -/
def named (names : List String) (values : List JsonValue) : List (Option (List Char) × JsonValue) :=
  List.zipWith (fun name v => (some name.toList, v)) names values

theorem map_fst_named {names : List String} {values : List JsonValue} (h : names.length = values.length) :
    (named names values).map (·.1) = names.map fun name => some name.toList := by
  induction names generalizing values with
  | nil => rfl
  | cons name names ih =>
    cases values with
    | nil => cases h
    | cons v values => exact congrArg _ (ih (Nat.succ.inj h))

theorem nodup_named {names : List String} {values : List JsonValue} (hlength : names.length = values.length)
    (h : names.Nodup) : ((named names values).map (·.1)).Nodup := by
  rw [map_fst_named hlength]
  exact List.Nodup.map (fun _ _ heq => String.toList_injective (Option.some.inj heq)) h

theorem mapM_only? {fields : List (Option (List Char) × JsonValue)} (hnodup : (fields.map (·.1)).Nodup)
    {names : List String} {values : List JsonValue} (hlength : names.length = values.length)
    (h : ∀ f ∈ named names values, f ∈ fields) : names.mapM (only? fields) = some values := by
  induction names generalizing values with
  | nil =>
    cases values with
    | nil => rfl
    | cons => cases hlength
  | cons name names ih =>
    cases values with
    | nil => cases hlength
    | cons v values =>
      have hfirst := only?_of_mem hnodup (h _ List.mem_cons_self)
      have hrest := ih (Nat.succ.inj hlength) fun f hf => h f (List.mem_cons_of_mem _ hf)
      rw [List.mapM_cons, hfirst, hrest]
      rfl

end JsonValue

open JsonValue

/-! ## Payloads -/

/-- The values of the fields of a payload that is no traffic. -/
def Payload.values : Payload → List JsonValue
  | .generation n liveCells => [.number (naturalText n.toNat), .number (naturalText liveCells.toNat)]
  | .pageFaults total read write =>
    [.number (naturalText total.toNat), .number (naturalText read.toNat), .number (naturalText write.toNat)]
  | .network _ _ => []
  | .barrier name action => [.string (some name.toList), .string (some action.name.toList)]
  | .init startRow endRow => [.number (naturalText startRow.toNat), .number (naturalText endRow.toNat)]
  | .complete none => [.null]
  | .complete (some n) => [.number (naturalText n.toNat)]
  | .error message => [.string (some message.toList)]

theorem Payload.length_values {p : Payload} (h : p.kind ≠ .network) :
    p.kind.fieldNames.length = p.values.length := by
  cases p with
  | network => exact absurd rfl h
  | complete cells => cases cells <;> rfl
  | _ => rfl

theorem writes_word64 (n : UInt64) : Writes (jsonNatural n.toNat) (.number (naturalText n.toNat)) :=
  writes_natural n.toNat_lt

theorem writes_word32 (n : UInt32) : Writes (jsonNatural n.toNat) (.number (naturalText n.toNat)) :=
  writes_natural (n.toNat_lt.trans (by decide))

theorem Payload.writes_fields {p : Payload} (h : p.kind ≠ .network) :
    List.Forall₂ WritesField p.jsonFields (named p.kind.fieldNames p.values) := by
  cases p with
  | generation => exact .cons ⟨rfl, writes_word64 _⟩ (.cons ⟨rfl, writes_word64 _⟩ .nil)
  | pageFaults =>
    exact .cons ⟨rfl, writes_word64 _⟩ (.cons ⟨rfl, writes_word64 _⟩ (.cons ⟨rfl, writes_word64 _⟩ .nil))
  | network => exact absurd rfl h
  | barrier => exact .cons ⟨rfl, writes_string _⟩ (.cons ⟨rfl, writes_string _⟩ .nil)
  | init => exact .cons ⟨rfl, writes_word32 _⟩ (.cons ⟨rfl, writes_word32 _⟩ .nil)
  | complete cells =>
    cases cells with
    | none => exact .cons ⟨rfl, writes_null⟩ .nil
    | some => exact .cons ⟨rfl, writes_word64 _⟩ .nil
  | error => exact .cons ⟨rfl, writes_string _⟩ .nil

theorem Payload.ofValues?_values {p : Payload} (h : p.kind ≠ .network) :
    Payload.ofValues? p.kind p.values = some p := by
  cases p with
  | generation => simp [kind, values, ofValues?, word64?_written]
  | pageFaults => simp [kind, values, ofValues?, word64?_written]
  | network => exact absurd rfl h
  | barrier name action =>
    simp [kind, values, ofValues?, text?, BarrierAction.ofJson?, choice?, BarrierAction.ofName?_name]
  | init => simp [kind, values, ofValues?, word32?_written]
  | complete cells =>
    cases cells with
    | none => rfl
    | some => simp [kind, values, ofValues?, word64?_written]
  | error => simp [kind, values, ofValues?, text?]

/-- The value that a payload is written as. -/
def Payload.value (p : Payload) : JsonValue :=
  .object (named ("type" :: p.kind.fieldNames) (.string (some p.kind.name.toList) :: p.values))

theorem Payload.writes {p : Payload} (h : p.kind ≠ .network) : Writes p.toJson p.value :=
  writes_object (.cons ⟨rfl, writes_string _⟩ (p.writes_fields h)) (by simp)

theorem Payload.depth_value (p : Payload) : p.value.depth = 1 := by
  cases p with
  | complete cells => cases cells <;> rfl
  | _ => rfl

/-- A payload is read from the object of its kind and the values of its fields. -/
theorem Payload.ofJson?_named {kind : EventKind} {values : List JsonValue}
    (hlength : kind.fieldNames.length = values.length) {v : JsonValue}
    (hv : v = .object (named ("type" :: kind.fieldNames) (.string (some kind.name.toList) :: values)))
    (hproper : v.isProper = true) : Payload.ofJson? v = Payload.ofValues? kind values := by
  have hnames : ∀ kind : EventKind, ("type" :: kind.fieldNames).Nodup := by
    rintro (_ | _ | _ | _ | _ | _ | _) <;> decide
  have hnodup := @nodup_named ("type" :: kind.fieldNames) (.string (some kind.name.toList) :: values)
    (by simpa using hlength) (hnames kind)
  have htype := only?_of_mem hnodup List.mem_cons_self
  have hvalues := mapM_only? hnodup hlength fun f hf => List.mem_cons_of_mem _ hf
  have hkind : EventKind.ofType? (.string (some kind.name.toList)) = some kind := by
    simp [EventKind.ofType?, text?, EventKind.ofName?_name]
  unfold Payload.ofJson?
  rw [hproper]
  simp only [hv, htype, hvalues, hkind, Bool.not_true, Option.bind_eq_bind, Option.bind_some, Bool.false_eq_true,
    if_false]

theorem Payload.ofJson?_value {p : Payload} (h : p.kind ≠ .network) : Payload.ofJson? p.value = some p :=
  (Payload.ofJson?_named (p.length_values h) rfl (p.writes h).proper).trans (p.ofValues?_values h)

/-! ## Events -/

/-- What is read back: no traffic, at an instant of the years 0 to 9999 that is no leap second. -/
structure Event.IsRecordable (e : Event) : Prop where
  kind : e.payload.kind ≠ .network
  time : e.observedAt.IsPlain

/-- The value that an event is written as. -/
def Event.value (e : Event) : JsonValue :=
  .object (named ["node", "observed_at", "payload"]
    [.number (naturalText e.node.toNat), .string (some e.observedAt.toChars), e.payload.value])

theorem Event.writes {e : Event} (h : e.payload.kind ≠ .network) : Writes e.toJson e.value :=
  writes_object (.cons ⟨rfl, writes_word32 _⟩ (.cons ⟨rfl, writes_string _⟩ (.cons ⟨rfl, Payload.writes h⟩ .nil)))
    (by simp)

/-- An event is read from the object of the values of its fields. -/
theorem Event.ofJson?_named (node observedAt payload : JsonValue) :
    Event.ofJson? (.object (named ["node", "observed_at", "payload"] [node, observedAt, payload])) =
      Event.ofValues? node observedAt payload := by
  have hnodup := @nodup_named ["node", "observed_at", "payload"] [node, observedAt, payload] rfl (by decide)
  have hnode := @only?_of_mem _ hnodup "node" _ List.mem_cons_self
  have htime := @only?_of_mem _ hnodup "observed_at" _ (List.mem_cons_of_mem _ List.mem_cons_self)
  have hpayload := @only?_of_mem _ hnodup "payload" _
    (List.mem_cons_of_mem _ (List.mem_cons_of_mem _ List.mem_cons_self))
  unfold Event.ofJson?
  simp only [hnode, htime, hpayload, Option.bind_eq_bind, Option.bind_some]
  exact if_pos rfl

/-- The node and the time of an event are read back, whatever its payload is written as. -/
theorem Event.ofValues?_written (node : NodeId) {t : Instant} (ht : t.IsPlain) {payload : JsonValue}
    (hdepth : payload.depth < depthLimit) :
    Event.ofValues? (.number (naturalText node.toNat)) (.string (some t.toChars)) payload =
      (Payload.ofJson? payload).map fun p => ⟨⟨node, p⟩, t⟩ := by
  simp only [Event.ofValues?, hdepth, if_true, word32?_written, text?, Instant.ofChars?_toChars ht,
    Option.bind_eq_bind, Option.bind_some, Option.pure_def]
  cases Payload.ofJson? payload <;> rfl

theorem Event.ofJson?_value {e : Event} (h : e.IsRecordable) : Event.ofJson? e.value = some e := by
  have hdepth : e.payload.value.depth < depthLimit := by
    rw [e.payload.depth_value]
    decide
  rw [Event.value, Event.ofJson?_named, Event.ofValues?_written e.node h.time hdepth, Payload.ofJson?_value h.kind]
  rfl

/-- A written event is read back. -/
theorem Event.ofText?_toJson {e : Event} (h : e.IsRecordable) : Event.ofText? e.toJson = some e := by
  rw [Event.ofText?, (Event.writes h.kind).ofChars?, Option.bind_some]
  exact Event.ofJson?_value h

/-! ## Lines -/

/-- What a view prints for events: each as one text with a line ending after it. -/
def View.printed (v : View) (events : List Event) : List Char := events.flatMap fun e => v.event e ++ ['\n']

theorem splitLines_printed {v : View} {events : List Event} (h : ∀ e ∈ events, '\n' ∉ v.event e) :
    splitLines (v.printed events) = events.map v.event ++ [[]] := by
  induction events with
  | nil => rfl
  | cons e events ih =>
    have hrest := ih fun e he => h e (List.mem_cons_of_mem _ he)
    have htext : v.printed (e :: events) = v.event e ++ '\n' :: v.printed events := by
      simp [View.printed]
    rw [splitLines] at hrest ⊢
    rw [htext, List.splitOn_append_cons_self_of_not_mem (h e List.mem_cons_self), hrest]
    rfl

/-- JSON output is a record of the events: it has one line for each of them in order, and the line is read back
as the event. -/
theorem View.readBack_printed (colors : Bool) {events : List Event} (h : ∀ e ∈ events, e.IsRecordable) :
    let v : View := { json := true, colors }
    ∃ lines, splitLines (v.printed events) = lines ++ [[]] ∧ lines.map Event.ofText? = events.map some := by
  intro v
  have hline : ∀ e ∈ events, '\n' ∉ v.event e := by
    intro e he hfeed
    exact absurd ((Event.writes (h e he).kind).printable '\n' hfeed) (by decide)
  refine ⟨events.map v.event, splitLines_printed hline, ?_⟩
  rw [List.map_map]
  exact List.map_congr_left fun e he => Event.ofText?_toJson (h e he)

/-- A message of characters that are escaped, in the last nanosecond of the year 9999, and then the largest
figures in the first second of the year 0. -/
theorem View.readBack_printed_extremes :
    let message := String.ofList ['"', '\\', '\n', '\x07', 'é', '😀']
    let events : List Event := [⟨⟨4294967295, .error message⟩, ⟨253402300799, 999999999⟩⟩,
      ⟨⟨0, .pageFaults 18446744073709551615 0 1⟩, ⟨-62167219200, 0⟩⟩, ⟨⟨3, .complete none⟩, ⟨0, 120000⟩⟩]
    let v : View := { json := true }
    (∀ e ∈ events, e.IsRecordable) ∧
      ∃ lines, splitLines (v.printed events) = lines ++ [[]] ∧ lines.map Event.ofText? = events.map some := by
  intro message events v
  have h : ∀ e ∈ events, e.IsRecordable := by
    intro e he
    simp only [events, List.mem_cons, List.not_mem_nil, or_false] at he
    rcases he with rfl | rfl | rfl
    all_goals exact ⟨by decide, ⟨by decide, by decide⟩⟩
  exact ⟨h, View.readBack_printed false h⟩

end ClusterWatch
