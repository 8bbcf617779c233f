import ClusterWatch.Proofs.CommandLine.Reading
import ClusterWatch.Proofs.Config.Entries

/-!
# Values of options

What the text of an option says, told apart from how it is read (`Options.Takes`): an override says a value for one
field of a configuration (`Config.Field.SpelledBy`). Options that are given once each, with texts that they take, are
read to what these say, and the options that are not given keep their defaults (`Options.exists_ofArguments`).
-/

namespace ClusterWatch
open Line Text

/-- The text spells the number; there may be a plus sign, and a minus sign before a zero. -/
def SpellsInteger (cs : List Char) (n : Nat) : Prop :=
  SpellsSigned cs n ∨ n = 0 ∧ ∃ digits, cs = '-' :: digits ∧ Spells digits 0

namespace Config.Field

/-- The option that overrides the field. There is none for the timings. -/
def flag? : Field → Option Flag
  | executable => some .executable
  | nodes => some .nodes
  | grid => some .grid
  | generations => some .generations
  | pattern => some .pattern
  | host => some .host
  | port => some .port
  | timings => none

/-- The text of an option is one that it takes, and says this for the field. -/
def SpelledBy : (f : Field) → List Char → f.Value → Prop
  | executable, cs, x => cs ≠ [] ∧ x = String.ofList cs
  | pattern, cs, x | host, cs, x => x = String.ofList cs
  | nodes, cs, n => SpellsInteger cs n.toNat
  | grid, cs, g => Grid.SpelledBy cs g.width.toNat g.height.toNat
  | generations, cs, n => SpellsSigned cs n.toNat
  | port, cs, n => SpellsInteger cs n.toNat
  | timings, _, _ => False

end Config.Field

namespace Options
open WordSize
open Config (Field)

/-! ## Readers of texts -/

theorem natural?_eq_some_iff {bound : Nat} (hbound : 0 < bound) {cs : List Char} {n : Nat} :
    natural? bound cs = some n ↔ SpellsInteger cs n ∧ n < bound := by
  rw [natural?.eq_def]
  split
  case h_1 digits =>
    have hunsigned : ¬ SpellsSigned ('-' :: digits) n := fun h => by
      rcases h.eq_or_isDigit List.mem_cons_self with hc | hc <;> exact absurd hc (by decide)
    rw [naturalBelow?_eq_some_iff]
    constructor
    · rintro ⟨hdigits, hn⟩
      obtain rfl : n = 0 := by omega
      exact ⟨.inr ⟨rfl, digits, rfl, hdigits⟩, hbound⟩
    · rintro ⟨hsigned | ⟨rfl, digits', heq, hdigits⟩, -⟩
      · exact absurd hsigned hunsigned
      · cases heq
        exact ⟨hdigits, Nat.zero_lt_one⟩
  case h_2 hplain =>
    rw [signedNaturalBelow?_eq_some_iff]
    refine and_congr_left fun _ => ⟨.inl, ?_⟩
    rintro (hsigned | ⟨-, digits, heq, -⟩)
    · exact hsigned
    · exact absurd heq (hplain digits)

theorem checked_eq_ok_iff {α : Type} {flag : Flag} {cs : List Char} {r : Option α} {a : α} :
    checked flag cs r = .ok a ↔ r = some a := by
  cases r <;> simp [checked]

theorem path_eq_ok_iff {flag : Flag} {cs : List Char} {x : String} :
    path flag cs = .ok x ↔ cs ≠ [] ∧ x = String.ofList cs := by
  cases cs with
  | nil => simp [path]
  | cons c cs => simp [path, eq_comm]

/-- A number of so many bits is what a text below the bound spells. -/
theorem map_checked_eq_ok_iff {ω β : Type} (W : WordSize ω) {flag : Flag} {cs : List Char} {r : Option Nat}
    {Says : Nat → Prop} (hr : ∀ n, r = some n ↔ Says n ∧ n < W.bound) (f : ω → β) {x : β} :
    (checked flag cs r).map (fun n => f (W.ofNat n)) = .ok x ↔ ∃ w, x = f w ∧ Says (W.toNat w) := by
  rw [map_eq_ok_iff]
  constructor
  · rintro ⟨n, hread, rfl⟩
    obtain ⟨hn, hb⟩ := (hr n).1 (checked_eq_ok_iff.1 hread)
    exact ⟨W.ofNat n, rfl, by rwa [W.toNat_ofNat n hb]⟩
  · rintro ⟨w, rfl, hw⟩
    exact ⟨W.toNat w, checked_eq_ok_iff.2 ((hr _).2 ⟨hw, W.toNat_lt w⟩), by rw [W.ofNat_toNat]⟩

/-! ## Parts of the options -/

abbrev Value : Flag → Type
  | .config => String
  | .executable | .pattern | .host => Option String
  | .nodes => Option UInt32
  | .grid => Option Grid
  | .generations => Option UInt64
  | .port => Option UInt16
  | .json => Bool
  | .pollMs => UInt64
  | .help | .version => Unit

def get (o : Options) : (flag : Flag) → Value flag
  | .config => o.config
  | .executable => o.executable?
  | .nodes => o.nodes?
  | .grid => o.grid?
  | .generations => o.generations?
  | .pattern => o.pattern?
  | .host => o.host?
  | .port => o.port?
  | .json => o.json
  | .pollMs => o.pollMs
  | .help | .version => ()

def put (o : Options) : (flag : Flag) → Value flag → Options
  | .config, x => { o with config := x }
  | .executable, x => { o with executable? := x }
  | .nodes, x => { o with nodes? := x }
  | .grid, x => { o with grid? := x }
  | .generations, x => { o with generations? := x }
  | .pattern, x => { o with pattern? := x }
  | .host, x => { o with host? := x }
  | .port, x => { o with port? := x }
  | .json, x => { o with json := x }
  | .pollMs, x => { o with pollMs := x }
  | .help, _ | .version, _ => o

def read? : (flag : Flag) → List Char → Except ArgumentStop (Value flag)
  | .config, cs => path .config cs
  | .executable, cs => (path .executable cs).map some
  | .nodes, cs => (checked .nodes cs (natural? UInt32.size cs)).map fun n => some (.ofNat n)
  | .grid, cs => (checked .grid cs (Grid.parse? cs)).map some
  | .generations, cs => (checked .generations cs (signedNaturalBelow? UInt64.size cs)).map fun n => some (.ofNat n)
  | .pattern, cs | .host, cs => .ok (some (String.ofList cs))
  | .port, cs => (checked .port cs (natural? UInt16.size cs)).map fun n => some (.ofNat n)
  | .json, _ => .ok true
  | .pollMs, cs => (checked .pollMs cs (signedNaturalBelow? UInt64.size cs)).map fun n => .ofNat n
  | .help, _ => .error .help
  | .version, _ => .error .version

/-- The option takes the text, and this is what it then says. -/
def Takes : (flag : Flag) → List Char → Value flag → Prop
  | .config, cs, x => cs ≠ [] ∧ x = String.ofList cs
  | .executable, cs, x => ∃ y, x = some y ∧ Field.executable.SpelledBy cs y
  | .nodes, cs, x => ∃ n, x = some n ∧ Field.nodes.SpelledBy cs n
  | .grid, cs, x => ∃ g, x = some g ∧ Field.grid.SpelledBy cs g
  | .generations, cs, x => ∃ n, x = some n ∧ Field.generations.SpelledBy cs n
  | .pattern, cs, x => ∃ y, x = some y ∧ Field.pattern.SpelledBy cs y
  | .host, cs, x => ∃ y, x = some y ∧ Field.host.SpelledBy cs y
  | .port, cs, x => ∃ n, x = some n ∧ Field.port.SpelledBy cs n
  | .json, _, x => x = true
  | .pollMs, cs, n => SpellsSigned cs n.toNat
  | .help, _, _ | .version, _, _ => False

theorem read?_eq_ok_iff {flag : Flag} {cs : List Char} {x : Value flag} : read? flag cs = .ok x ↔ Takes flag cs x := by
  cases flag with
  | config => exact path_eq_ok_iff
  | executable =>
    refine map_eq_ok_iff.trans (exists_congr fun y => ?_)
    rw [path_eq_ok_iff, @eq_comm _ (some y), and_comm]
    rfl
  | nodes => exact map_checked_eq_ok_iff word32 (fun _ => natural?_eq_some_iff (by decide)) some
  | grid =>
    refine map_eq_ok_iff.trans (exists_congr fun g => ?_)
    rw [checked_eq_ok_iff, Grid.parse?_eq_some_iff, @eq_comm _ (some g), and_comm]
    rfl
  | generations => exact map_checked_eq_ok_iff word64 (fun _ => signedNaturalBelow?_eq_some_iff) some
  | pattern | host =>
    show Except.ok (some (String.ofList cs)) = _ ↔ ∃ y, x = some y ∧ y = String.ofList cs
    rw [Except.ok.injEq, exists_eq_right, eq_comm]
  | port => exact map_checked_eq_ok_iff word16 (fun _ => natural?_eq_some_iff (by decide)) some
  | json =>
    show Except.ok true = _ ↔ x = true
    rw [Except.ok.injEq, eq_comm]
  | pollMs =>
    exact (map_checked_eq_ok_iff word64 (fun _ => signedNaturalBelow?_eq_some_iff) id).trans exists_eq_left'
  | help | version => exact ⟨fun h => (by cases h), False.elim⟩

theorem set_eq (o : Options) (flag : Flag) (cs : List Char) : o.set flag cs = (read? flag cs).map (o.put flag) := by
  have htwo {α β : Type} (r : Except ArgumentStop α) (f : α → β) (g : β → Options) :
      r.bind (fun a => .ok (g (f a))) = (r.map f).map g := by cases r <;> rfl
  cases flag with
  | executable => exact htwo (path .executable cs) some (o.put .executable)
  | nodes => exact htwo (checked .nodes cs (natural? UInt32.size cs)) (fun n => some (.ofNat n)) (o.put .nodes)
  | grid => exact htwo (checked .grid cs (Grid.parse? cs)) some (o.put .grid)
  | generations =>
    exact htwo (checked .generations cs (signedNaturalBelow? UInt64.size cs)) (fun n => some (.ofNat n))
      (o.put .generations)
  | port => exact htwo (checked .port cs (natural? UInt16.size cs)) (fun n => some (.ofNat n)) (o.put .port)
  | pollMs => exact htwo (checked .pollMs cs (signedNaturalBelow? UInt64.size cs)) UInt64.ofNat (o.put .pollMs)
  | config | pattern | host | json | help | version => rfl

def parts : Partwise fun (o : Options) (e : Flag × List Char) => o.set e.1 e.2 where
  Part := Flag
  Value := Value
  key := id
  get := get
  put := put
  read? := read?
  key_injective h := h
  get_put_self o flag x := by cases flag <;> rfl
  get_put_of_ne o flag flag' x h := by
    cases flag <;> cases flag' <;> first | rfl | exact absurd rfl h
  step_key := set_eq
  step_other _ k _ h := absurd rfl (h k)

/-! ## Options together -/

/-- The text that is given for an option. -/
def textGiven? (given : List Given) (flag : Flag) : Option (List Char) :=
  valueAt? (given.map fun g => (g.flag, g.value)) flag

/-- Options that are given once each with texts that they take: each says what its text does, and one that is not given
is what it is by default. -/
theorem exists_ofArguments {given : List Given} (hnodup : (given.map (·.flag)).Nodup)
    (htakes : ∀ g ∈ given, ∃ x, Takes g.flag g.value x) :
    ∃ o, ofArguments (given.flatMap (·.words)) = .ok o ∧ ∀ flag,
      (textGiven? given flag = none → o.get flag = get {} flag) ∧
        ∀ cs, textGiven? given flag = some cs → Takes flag cs (o.get flag) := by
  have hkeys : ((given.map fun g => (g.flag, g.value)).map (·.1)).Nodup := by
    rw [List.map_map]
    exact hnodup
  obtain ⟨o, ho⟩ := parts.exists_filled hkeys (fun (flag : Flag) cs hcs => by
    obtain ⟨g, hg, heq⟩ := List.mem_map.1 (mem_of_valueAt? hcs)
    obtain ⟨rfl, rfl⟩ := Prod.mk.inj heq
    exact (htakes g hg).imp fun _ => read?_eq_ok_iff.2) {}
  refine ⟨o, ofArguments_eq_ok hnodup ?_, fun flag => ?_⟩
  · rw [List.foldlM_map] at ho
    exact ho
  · obtain ⟨hnone, hsome⟩ := parts.get_eq hkeys ho flag
    exact ⟨hnone, fun cs hcs => read?_eq_ok_iff.1 (hsome cs hcs)⟩

end Options

end ClusterWatch
