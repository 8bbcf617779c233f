import ClusterWatch.Config.Toml
import ClusterWatch.Proofs.Config.Grid
import ClusterWatch.Proofs.Toml.Keys

/-!
# What a document says about a configuration

Every field of a configuration has one key, and the timings have one for each pause in a table of their own. What a
value says for a field is told apart from its reader (`Config.Field.SaidBy`). A document whose values all fit is taken,
each field from the value under its key or from the defaults (`Config.exists_ofEntries?`); a value that does not fit
refuses the whole document (`Config.ofEntries?_refusal`).
-/

namespace ClusterWatch
open Text

/-! ## Readers of values -/

/-- The only errors are refusals of a configuration. -/
def RefusesOnly {α : Type} (r : Except ClusterError α) : Prop := ∀ e, r = .error e → ∃ why, e = .configParse why

namespace RefusesOnly
variable {α β : Type}

theorem ok (a : α) : RefusesOnly (.ok a) := fun _ h => by cases h

theorem refusal (why : Option String) : RefusesOnly (.error (.configParse why) : Except ClusterError α) :=
  fun _ h => by cases h; exact ⟨why, rfl⟩

theorem map {r : Except ClusterError α} (h : RefusesOnly r) (f : α → β) : RefusesOnly (r.map f) := by
  cases r with
  | ok a => exact ok (f a)
  | error e =>
    obtain ⟨why, rfl⟩ := h e rfl
    exact refusal why

theorem exists_of_ne_ok {r : Except ClusterError α} (h : RefusesOnly r) (hne : ∀ a, r ≠ .ok a) :
    ∃ why, r = .error (.configParse why) := by
  cases r with
  | ok a => exact absurd rfl (hne a)
  | error e =>
    obtain ⟨why, rfl⟩ := h e rfl
    exact ⟨why, rfl⟩

end RefusesOnly

/-- Numbers of so many bits are the natural numbers below a bound. -/
structure WordSize (ω : Type) where
  bound : Nat
  ofNat : Nat → ω
  toNat : ω → Nat
  toNat_ofNat : ∀ n < bound, toNat (ofNat n) = n
  ofNat_toNat : ∀ w, ofNat (toNat w) = w
  toNat_lt : ∀ w, toNat w < bound

namespace WordSize

def word16 : WordSize UInt16 where
  bound := UInt16.size
  ofNat := UInt16.ofNat
  toNat := UInt16.toNat
  toNat_ofNat _ h := UInt16.toNat_ofNat_of_lt' h
  ofNat_toNat _ := UInt16.ofNat_toNat
  toNat_lt := UInt16.toNat_lt

def word32 : WordSize UInt32 where
  bound := UInt32.size
  ofNat := UInt32.ofNat
  toNat := UInt32.toNat
  toNat_ofNat _ h := UInt32.toNat_ofNat_of_lt' h
  ofNat_toNat _ := UInt32.ofNat_toNat
  toNat_lt := UInt32.toNat_lt

def word64 : WordSize UInt64 where
  bound := UInt64.size
  ofNat := UInt64.ofNat
  toNat := UInt64.toNat
  toNat_ofNat _ h := UInt64.toNat_ofNat_of_lt' h
  ofNat_toNat _ := UInt64.ofNat_toNat
  toNat_lt := UInt64.toNat_lt

end WordSize

open WordSize

namespace TomlValue

theorem naturalBelow?_eq_ok_iff {bound : Nat} {v : TomlValue} {n : Nat} :
    v.naturalBelow? bound = .ok n ↔ v = .integer n ∧ n < bound := by
  cases v with
  | integer m =>
    rw [naturalBelow?]
    split
    case isTrue h =>
      rw [Except.ok.injEq, TomlValue.integer.injEq]
      omega
    case isFalse h =>
      refine ⟨fun heq => ?_, fun ⟨heq, hlt⟩ => ?_⟩
      · cases heq
      · rw [TomlValue.integer.injEq] at heq
        omega
  | _ => simp [naturalBelow?]

/-- A number of so many bits is what an integer below the bound says. -/
theorem map_naturalBelow?_eq_ok_iff {ω : Type} (W : WordSize ω) {v : TomlValue} {w : ω} :
    (v.naturalBelow? W.bound).map W.ofNat = .ok w ↔ v = .integer (W.toNat w) := by
  rw [map_eq_ok_iff]
  constructor
  · rintro ⟨n, hread, rfl⟩
    obtain ⟨rfl, hn⟩ := naturalBelow?_eq_ok_iff.1 hread
    rw [W.toNat_ofNat n hn]
  · exact fun h => ⟨W.toNat w, naturalBelow?_eq_ok_iff.2 ⟨h, W.toNat_lt w⟩, W.ofNat_toNat w⟩

theorem word64?_eq_ok_iff {v : TomlValue} {n : UInt64} : v.word64? = .ok n ↔ v = .integer n.toNat :=
  map_naturalBelow?_eq_ok_iff word64

theorem string?_eq_ok_iff {v : TomlValue} {x : String} : v.string? = .ok x ↔ v = .text x.toList := by
  cases v with
  | text cs =>
    show Except.ok (String.ofList cs) = _ ↔ _
    rw [Except.ok.injEq, TomlValue.text.injEq]
    exact ⟨fun h => h ▸ String.toList_ofList.symm, fun h => h ▸ String.ofList_toList⟩
  | _ => simp [string?, text?, Except.map]

theorem grid?_eq_ok_iff {v : TomlValue} {g : Grid} :
    v.grid? = .ok g ↔ ∃ cs, v = .text cs ∧ Grid.SpelledBy cs g.width.toNat g.height.toNat := by
  cases v with
  | text cs =>
    have hread : (TomlValue.text cs).grid? = .ok g ↔ Grid.read cs = .ok g := by
      show (Grid.read cs).mapError _ = _ ↔ _
      cases Grid.read cs <;> simp [Except.mapError]
    rw [hread, Grid.read_eq_ok_iff, Grid.parse?_eq_some_iff]
    exact ⟨fun h => ⟨cs, rfl, h⟩, fun ⟨cs', heq, h⟩ => by cases heq; exact h⟩
  | _ =>
    refine ⟨fun h => (by cases h), ?_⟩
    rintro ⟨cs, heq, -⟩
    cases heq

theorem refusesOnly_naturalBelow? (bound : Nat) (v : TomlValue) : RefusesOnly (v.naturalBelow? bound) := by
  cases v with
  | integer n =>
    rw [naturalBelow?]
    split
    · exact .ok _
    · exact .refusal none
  | _ => exact .refusal none

theorem refusesOnly_word64? (v : TomlValue) : RefusesOnly v.word64? := (v.refusesOnly_naturalBelow? _).map _

theorem refusesOnly_text? (v : TomlValue) : RefusesOnly v.text? := by
  cases v with
  | text cs => exact .ok cs
  | _ => exact .refusal none

theorem refusesOnly_grid? (v : TomlValue) : RefusesOnly v.grid? := by
  cases v with
  | text cs =>
    show RefusesOnly ((Grid.read cs).mapError _)
    cases Grid.read cs with
    | ok g => exact .ok g
    | error e => exact .refusal (some e.message)
  | _ => exact .refusal none

end TomlValue

/-! ## Timings -/

namespace Timings

/-- The pauses of launching and stopping. -/
inductive Pause
  | coordinatorSettle
  | collaboratorSettle
  | gracePeriod
deriving DecidableEq

namespace Pause

/-- The key of the pause in the table of the timings. -/
def key : Pause → TomlKey
  | coordinatorSettle => "coordinator_settle_ms".toList
  | collaboratorSettle => "collaborator_settle_ms".toList
  | gracePeriod => "grace_period_ms".toList

def get (t : Timings) : Pause → UInt64
  | coordinatorSettle => t.coordinatorSettle
  | collaboratorSettle => t.collaboratorSettle
  | gracePeriod => t.gracePeriod

def put (t : Timings) : Pause → UInt64 → Timings
  | coordinatorSettle, n => { t with coordinatorSettle := n }
  | collaboratorSettle, n => { t with collaboratorSettle := n }
  | gracePeriod, n => { t with gracePeriod := n }

/-- A table says that a pause is this long, or is silent about it and this is the default. -/
def SaidIn (p : Pause) (entries : TomlEntries) (n : UInt64) : Prop :=
  match entries.get? p.key with
  | some v => v = .integer n.toNat
  | none => n = get {} p

theorem saidIn_iff_of_some {p : Pause} {entries : TomlEntries} {v : TomlValue} (h : entries.get? p.key = some v)
    {n : UInt64} : p.SaidIn entries n ↔ v = .integer n.toNat := by
  simp only [SaidIn, h]

theorem saidIn_of_none {p : Pause} {entries : TomlEntries} (h : entries.get? p.key = none) {n : UInt64}
    (hdefault : n = get {} p) : p.SaidIn entries n := by
  simpa only [SaidIn, h] using hdefault

/-- A table has a value for the pause that is no number of 64 bits. -/
def MisfitIn (p : Pause) (entries : TomlEntries) : Prop :=
  ∃ v, entries.get? p.key = some v ∧ ∀ n : UInt64, v ≠ .integer n.toNat

end Pause

theorem withEntry_other (t : Timings) {k : TomlKey} (v : TomlValue) (h : ∀ p : Pause, k ≠ p.key) :
    t.withEntry (k, v) = .ok t := by
  have hne (p : Pause) (s : String) (hs : p.key = s.toList) : String.ofList k ≠ s := by
    rintro rfl
    exact h p (by rw [hs, String.toList_ofList])
  rw [withEntry]
  split
  case h_1 heq => exact absurd heq (hne .coordinatorSettle _ rfl)
  case h_2 heq => exact absurd heq (hne .collaboratorSettle _ rfl)
  case h_3 heq => exact absurd heq (hne .gracePeriod _ rfl)
  case h_4 => rfl

def parts : Partwise withEntry where
  Part := Pause
  Value _ := UInt64
  key := Pause.key
  get := Pause.get
  put := Pause.put
  read? _ := TomlValue.word64?
  key_injective {p q} h := by
    revert h
    cases p <;> cases q <;> decide
  get_put_self t p n := by cases p <;> rfl
  get_put_of_ne t p q n h := by
    cases p <;> cases q <;> first | rfl | exact absurd rfl h
  step_key t p v := by cases p <;> rfl
  step_other := withEntry_other

variable {entries : TomlEntries}

theorem saidIn_of_ofToml? {origin : TableOrigin} (hkeyed : entries.IsKeyed) {t : Timings} (h : ofToml? (.table origin entries) = .ok t)
    (p : Pause) : p.SaidIn entries (p.get t) := by
  obtain ⟨hnone, hsome⟩ := parts.get_eq hkeyed.keys h p
  cases hget : entries.get? p.key with
  | none => exact Pause.saidIn_of_none hget (hnone hget)
  | some v => exact (Pause.saidIn_iff_of_some hget).2 (TomlValue.word64?_eq_ok_iff.1 (hsome v hget))

theorem exists_ofToml? (origin : TableOrigin) (hkeyed : entries.IsKeyed) (h : ∀ p : Pause, ∃ n, p.SaidIn entries n) :
    ∃ t, ofToml? (.table origin entries) = .ok t := by
  refine parts.exists_filled hkeyed.keys (fun p v hv => ?_) _
  obtain ⟨n, hn⟩ := h p
  exact ⟨n, TomlValue.word64?_eq_ok_iff.2 ((Pause.saidIn_iff_of_some hv).1 hn)⟩

theorem ofToml?_ne_ok (origin : TableOrigin) {p : Pause} (hkeyed : entries.IsKeyed) (h : p.MisfitIn entries) (t : Timings) :
    ofToml? (.table origin entries) ≠ .ok t := by
  intro ht
  obtain ⟨v, hv, hmisfit⟩ := h
  exact hmisfit _ ((Pause.saidIn_iff_of_some hv).1 (saidIn_of_ofToml? hkeyed ht p))

theorem refusesOnly_foldlM (entries : TomlEntries) (t : Timings) : RefusesOnly (entries.foldlM withEntry t) := by
  intro e h
  obtain ⟨p, v, -, hread⟩ := parts.exists_refused h
  exact v.refusesOnly_word64? e hread

theorem refusesOnly_ofToml? (v : TomlValue) : RefusesOnly (ofToml? v) := by
  cases v with
  | table origin entries => exact refusesOnly_foldlM entries {}
  | array items => exact refusesOnly_foldlM (names.zip items) {}
  | moment cs => exact .ok ({} : Timings)
  | _ => exact .refusal none

end Timings

/-! ## Fields -/

namespace Config

inductive Field
  | executable
  | nodes
  | grid
  | generations
  | pattern
  | host
  | port
  | timings
deriving DecidableEq

namespace Field

abbrev Value : Field → Type
  | executable | pattern | host => String
  | nodes => UInt32
  | grid => Grid
  | generations => UInt64
  | port => UInt16
  | timings => Timings

/-- The key of the field in a document. -/
def key : Field → TomlKey
  | executable => "executable".toList
  | nodes => "nodes".toList
  | grid => "grid".toList
  | generations => "generations".toList
  | pattern => "pattern".toList
  | host => "coordinator_host".toList
  | port => "port".toList
  | timings => "timings".toList

def get (c : Config) : (f : Field) → f.Value
  | executable => c.executable
  | nodes => c.nodes
  | grid => c.grid
  | generations => c.generations
  | pattern => c.pattern
  | host => c.coordinatorHost
  | port => c.port
  | timings => c.timings

def put (c : Config) : (f : Field) → f.Value → Config
  | executable, x => { c with executable := x }
  | nodes, n => { c with nodes := n }
  | grid, g => { c with grid := g }
  | generations, n => { c with generations := n }
  | pattern, x => { c with pattern := x }
  | host, x => { c with coordinatorHost := x }
  | port, n => { c with port := n }
  | timings, t => { c with timings := t }

/-- The reader of the field. -/
def read? : (f : Field) → TomlValue → Except ClusterError f.Value
  | executable, v | pattern, v | host, v => v.string?
  | nodes, v => (v.naturalBelow? UInt32.size).map UInt32.ofNat
  | grid, v => v.grid?
  | generations, v => v.word64?
  | port, v => (v.naturalBelow? UInt16.size).map UInt16.ofNat
  | timings, v => Timings.ofToml? v

/-- The value of a document is of the type and in the range of the field, and says this. -/
def SaidBy : (f : Field) → TomlValue → f.Value → Prop
  | executable, v, x | pattern, v, x | host, v, x => v = .text x.toList
  | nodes, v, n => v = .integer n.toNat
  | grid, v, g => ∃ cs, v = .text cs ∧ Grid.SpelledBy cs g.width.toNat g.height.toNat
  | generations, v, n => v = .integer n.toNat
  | port, v, n => v = .integer n.toNat
  | timings, v, t => ∃ origin entries, v = .table origin entries ∧ ∀ p : Timings.Pause, p.SaidIn entries (p.get t)

/-- The value is of the wrong type or out of range: for the timings, a table with such a value for a pause. -/
def Misfit : Field → TomlValue → Prop
  | timings, v => ∃ origin entries, v = .table origin entries ∧ ∃ p : Timings.Pause, p.MisfitIn entries
  | f, v => ∀ x, ¬ f.SaidBy v x

end Field

theorem withEntry_key (c : Config) (f : Field) (v : TomlValue) :
    c.withEntry (f.key, v) = (f.read? v).map (f.put c) := by
  cases f with
  | executable | pattern | host | grid | generations | timings => rfl
  | nodes =>
    show (v.naturalBelow? UInt32.size).bind _ = ((v.naturalBelow? UInt32.size).map _).map _
    cases v.naturalBelow? UInt32.size <;> rfl
  | port =>
    show (v.naturalBelow? UInt16.size).bind _ = ((v.naturalBelow? UInt16.size).map _).map _
    cases v.naturalBelow? UInt16.size <;> rfl

theorem withEntry_other (c : Config) {k : TomlKey} (v : TomlValue) (h : ∀ f : Field, k ≠ f.key) :
    c.withEntry (k, v) = .ok c := by
  have hne (f : Field) (s : String) (hs : f.key = s.toList) : String.ofList k ≠ s := by
    rintro rfl
    exact h f (by rw [hs, String.toList_ofList])
  rw [withEntry]
  dsimp only
  split
  case h_1 heq => exact absurd heq (hne .executable _ rfl)
  case h_2 heq => exact absurd heq (hne .nodes _ rfl)
  case h_3 heq => exact absurd heq (hne .grid _ rfl)
  case h_4 heq => exact absurd heq (hne .generations _ rfl)
  case h_5 heq => exact absurd heq (hne .pattern _ rfl)
  case h_6 heq => exact absurd heq (hne .host _ rfl)
  case h_7 heq => exact absurd heq (hne .port _ rfl)
  case h_8 heq => exact absurd heq (hne .timings _ rfl)
  case h_9 => rfl

def parts : Partwise withEntry where
  Part := Field
  Value := Field.Value
  key := Field.key
  get := Field.get
  put := Field.put
  read? := Field.read?
  key_injective {f g} h := by
    revert h
    cases f <;> cases g <;> decide
  get_put_self c f x := by cases f <;> rfl
  get_put_of_ne c f g x h := by
    cases f <;> cases g <;> first | rfl | exact absurd rfl h
  step_key := withEntry_key
  step_other := withEntry_other

namespace Field

theorem read?_eq_ok_iff {f : Field} (h : f ≠ timings) {v : TomlValue} {x : f.Value} :
    f.read? v = .ok x ↔ f.SaidBy v x := by
  cases f with
  | executable | pattern | host => exact TomlValue.string?_eq_ok_iff
  | nodes => exact TomlValue.map_naturalBelow?_eq_ok_iff word32
  | grid => exact TomlValue.grid?_eq_ok_iff
  | generations => exact TomlValue.word64?_eq_ok_iff
  | port => exact TomlValue.map_naturalBelow?_eq_ok_iff word16
  | timings => exact absurd rfl h

theorem refusesOnly_read? (f : Field) (v : TomlValue) : RefusesOnly (f.read? v) := by
  cases f with
  | executable | pattern | host => exact v.refusesOnly_text?.map _
  | nodes => exact (v.refusesOnly_naturalBelow? _).map _
  | grid => exact v.refusesOnly_grid?
  | generations => exact v.refusesOnly_word64?
  | port => exact (v.refusesOnly_naturalBelow? _).map _
  | timings => exact Timings.refusesOnly_ofToml? v

/-- A value that says something for a field is taken for that. -/
theorem exists_read? {f : Field} {v : TomlValue} (hkeyed : v.IsKeyed) (h : ∃ x, f.SaidBy v x) :
    ∃ x, f.read? v = .ok x ∧ f.SaidBy v x := by
  by_cases hf : f = timings
  · subst hf
    obtain ⟨_, origin, entries, rfl, hsaid⟩ := h
    have hentries := TomlEntries.isKeyed_table_iff.1 hkeyed
    obtain ⟨t, ht⟩ := Timings.exists_ofToml? origin hentries fun p => ⟨_, hsaid p⟩
    exact ⟨t, ht, origin, entries, rfl, Timings.saidIn_of_ofToml? hentries ht⟩
  · obtain ⟨x, hx⟩ := h
    exact ⟨x, (read?_eq_ok_iff hf).2 hx, hx⟩

theorem exists_read?_refusal {f : Field} {v : TomlValue} (hkeyed : v.IsKeyed) (h : f.Misfit v) :
    ∃ why, f.read? v = .error (.configParse why) := by
  refine (f.refusesOnly_read? v).exists_of_ne_ok fun x hx => ?_
  by_cases hf : f = timings
  · subst hf
    obtain ⟨origin, entries, rfl, p, hp⟩ := h
    exact Timings.ofToml?_ne_ok origin (TomlEntries.isKeyed_table_iff.1 hkeyed) hp x hx
  · cases f with
    | timings => exact hf rfl
    | _ => exact h x ((read?_eq_ok_iff hf).1 hx)

end Field

/-! ## Documents -/

variable {entries : TomlEntries}

/-- A document whose values all fit is taken: each field is what its value says, or the default. -/
theorem exists_ofEntries? (hkeyed : entries.IsKeyed)
    (h : ∀ (f : Field) v, entries.get? f.key = some v → ∃ x, f.SaidBy v x) :
    ∃ c, ofEntries? entries = .ok c ∧ ∀ f : Field,
      (entries.get? f.key = none → f.get c = f.get {}) ∧ ∀ v, entries.get? f.key = some v → f.SaidBy v (f.get c) := by
  have htaken (f : Field) (v : TomlValue) (hv : entries.get? f.key = some v) :=
    Field.exists_read? (hkeyed.get? hv) (h f v hv)
  obtain ⟨c, hc⟩ := parts.exists_filled hkeyed.keys
    (fun (f : Field) v hv => (htaken f v hv).imp fun _ hx => hx.1) {}
  refine ⟨c, hc, fun f => ?_⟩
  obtain ⟨hnone, hsome⟩ := parts.get_eq hkeyed.keys hc f
  refine ⟨hnone, fun v hv => ?_⟩
  obtain ⟨x, hx, hsaid⟩ := htaken f v hv
  have heq := (hsome v hv).symm.trans hx
  cases heq
  exact hsaid

/-- A value that does not fit its field refuses the document. -/
theorem ofEntries?_refusal (hkeyed : entries.IsKeyed) {f : Field} {v : TomlValue} (hv : entries.get? f.key = some v)
    (h : f.Misfit v) : ∃ why, ofEntries? entries = .error (.configParse why) := by
  have hrefuses : RefusesOnly (ofEntries? entries) := by
    intro e he
    obtain ⟨g, w, -, hread⟩ := parts.exists_refused he
    exact Field.refusesOnly_read? g w e hread
  refine hrefuses.exists_of_ne_ok fun c hc => ?_
  obtain ⟨why, hwhy⟩ := Field.exists_read?_refusal (hkeyed.get? hv) h
  have hread := (parts.get_eq hkeyed.keys hc f).2 v hv
  cases hwhy.symm.trans hread

end Config

end ClusterWatch
