import ClusterWatch.Proofs.Config.Entries
import ClusterWatch.Session.Launch

/-!
# Assignments in arguments

A node goes through its arguments from left to right (`Setting.ofArgs?`). The flag of a part stands alone, and any other
flag has its value in the next argument. A text is taken for a flag only where a flag is due, so a value may look like
one (`Setting.ofArgs?_flatMap_words`). What is found under the flags is the assignment that the arguments are written
from (`Assignment.ofArgs?_args`). A node thus learns the whole of its assignment, and nodes with different assignments
get different arguments (`Config.assignment_recovered`).
-/

namespace ClusterWatch
open Text Line

/-! ## Settings -/

/-- The flag of a part, which has no value. -/
def standsAlone (flag : String) : Bool := flag == "--manager" || flag == "--worker"

/-- A flag that a node meets, with its value unless it stands alone. -/
inductive Setting
  | alone (flag : String) (h : standsAlone flag = true)
  | valued (flag value : String) (h : standsAlone flag = false)

namespace Setting

def flag : Setting → String
  | alone flag _ | valued flag _ _ => flag

def entry? : Setting → Option (String × String)
  | alone _ _ => none
  | valued flag value _ => some (flag, value)

/-- The arguments in which a setting is written. -/
def words : Setting → List String
  | alone flag _ => [flag]
  | valued flag value _ => [flag, value]

/-- The settings that are met from left to right, unless the last flag lacks its value. -/
def ofArgs? : List String → Option (List Setting)
  | [] => some []
  | flag :: rest =>
    if h : standsAlone flag then (ofArgs? rest).map (alone flag h :: ·)
    else
      match rest with
      | [] => none
      | value :: rest => (ofArgs? rest).map (valued flag value (Bool.eq_false_of_not_eq_true h) :: ·)

/-- One setting is read whatever its value is and whatever follows it. -/
theorem ofArgs?_words_append (s : Setting) (rest : List String) :
    ofArgs? (s.words ++ rest) = (ofArgs? rest).map (s :: ·) := by
  cases s with
  | alone flag h =>
    show ofArgs? (flag :: rest) = _
    rw [ofArgs?, dif_pos h]
  | valued flag value h =>
    show ofArgs? (flag :: value :: rest) = _
    -- What `value` is does not matter: the reader goes on behind it without looking.
    rw [ofArgs?, dif_neg (Bool.not_eq_true _ ▸ h)]

theorem ofArgs?_flatMap_words (ss : List Setting) : ofArgs? (ss.flatMap words) = some ss := by
  induction ss with
  | nil => rfl
  | cons s ss ih => rw [List.flatMap_cons, ofArgs?_words_append, ih, Option.map_some]

/-! ## Values under flags -/

/-- What the value of a flag is read as. -/
def field? {α : Type} (ss : List Setting) (flag : String) (read? : String → Option α) : Option α :=
  (valueAt? (ss.filterMap entry?) flag).bind read?

theorem map_fst_entries_sublist (ss : List Setting) :
    ((ss.filterMap entry?).map (·.1)).Sublist (ss.map flag) := by
  induction ss with
  | nil => exact .slnil
  | cons s ss ih =>
    cases s with
    | alone flag h => exact ih.cons flag
    | valued flag value h => exact ih.cons_cons flag

/-- The value of a flag is found if no flag is met twice. -/
theorem field?_of_mem {ss : List Setting} (hnodup : (ss.map flag).Nodup) {name value : String}
    {h : standsAlone name = false} (hmem : valued name value h ∈ ss) {α : Type} {read? : String → Option α} {x : α}
    (hread : read? value = some x) : field? ss name read? = some x := by
  have hentry : (name, value) ∈ ss.filterMap entry? := List.mem_filterMap.2 ⟨_, hmem, rfl⟩
  rw [field?, valueAt?_of_mem (hnodup.sublist (map_fst_entries_sublist ss)) hentry]
  exact hread

end Setting

namespace WordSize
variable {ω : Type} (W : WordSize ω)

/-- The number in decimal. -/
def text (w : ω) : String := toString (W.toNat w)

/-- The number that a text spells, if it has no more than so many bits. -/
def read? (text : String) : Option ω := (naturalBelow? W.bound text.toList).map W.ofNat

theorem read?_text (w : ω) : W.read? (W.text w) = some w := by
  have hspells : Spells (W.text w).toList (W.toNat w) := by
    rw [text, Nat.toString_eq_repr, Nat.toList_repr]
    exact spells_toDigits _
  rw [read?, naturalBelow?_eq_some_iff.2 ⟨hspells, W.toNat_lt w⟩, Option.map_some, W.ofNat_toNat]

end WordSize

/-! ## Assignments -/

/-- A place in the cluster. A collaborator has a number, and it knows where the coordinator is. -/
inductive Assignment.Post
  | coordinator
  | collaborator (node : NodeId) (host : String)
deriving DecidableEq

/-- All that a node is told. -/
structure Assignment where
  post : Assignment.Post
  nodes : UInt32
  grid : Grid
  generations : UInt64
  pattern : String
  port : UInt16
  displayInterval : UInt64
deriving DecidableEq

namespace Assignment
open WordSize Setting

def Post.role : Post → Role
  | coordinator => .coordinator
  | collaborator _ _ => .collaborator

/-- The flags that a node with this part expects. -/
def flags : Role → List String
  | .coordinator =>
    ["--manager", "--nodes", "--grid", "--generations", "--pattern", "--port", "--display-interval"]
  | .collaborator =>
    ["--worker", "--node-id", "--nodes", "--manager-host", "--grid", "--generations", "--pattern", "--port",
      "--display-interval"]

/-- The part whose flags are those that are met, each of them once. -/
def role? (ss : List Setting) : Option Role :=
  [Role.coordinator, Role.collaborator].find? fun role => (ss.map Setting.flag).isPerm (flags role)

def post? (ss : List Setting) : Option Post :=
  match role? ss with
  | none => none
  | some .coordinator => some .coordinator
  | some .collaborator => do
    return .collaborator (← field? ss "--node-id" word32.read?) (← field? ss "--manager-host" some)

def ofSettings? (ss : List Setting) : Option Assignment := do
  return {
    post := ← post? ss
    nodes := ← field? ss "--nodes" word32.read?
    grid := ← field? ss "--grid" fun text => Grid.parse? text.toList
    generations := ← field? ss "--generations" word64.read?
    pattern := ← field? ss "--pattern" some
    port := ← field? ss "--port" word16.read?
    displayInterval := ← field? ss "--display-interval" word64.read? }

/-- The assignment that a node finds in its arguments. -/
def ofArgs? (args : List String) : Option Assignment := (Setting.ofArgs? args).bind ofSettings?

/-! ## Assignments that are written -/

/-- The settings of a place in a cluster with so many nodes. -/
def Post.settings (nodes : UInt32) : Post → List Setting
  | coordinator => [.alone "--manager" rfl, .valued "--nodes" (word32.text nodes) rfl]
  | collaborator node host =>
    [.alone "--worker" rfl, .valued "--node-id" (word32.text node) rfl, .valued "--nodes" (word32.text nodes) rfl,
      .valued "--manager-host" host rfl]

def settings (a : Assignment) : List Setting :=
  a.post.settings a.nodes ++
    [.valued "--grid" a.grid.toText rfl, .valued "--generations" (word64.text a.generations) rfl,
      .valued "--pattern" a.pattern rfl, .valued "--port" (word16.text a.port) rfl,
      .valued "--display-interval" (word64.text a.displayInterval) rfl]

/-- The arguments in which an assignment is written. -/
def args (a : Assignment) : List String := a.settings.flatMap words

theorem settings_args (a : Assignment) : Setting.ofArgs? a.args = some a.settings := ofArgs?_flatMap_words a.settings

theorem map_flag_settings (a : Assignment) : a.settings.map Setting.flag = flags a.post.role := by
  obtain ⟨post, _⟩ := a
  cases post <;> rfl

theorem nodup_flags (role : Role) : (flags role).Nodup := by
  cases role <;> decide

theorem role?_settings (a : Assignment) : role? a.settings = some a.post.role := by
  rw [role?, map_flag_settings]
  generalize a.post.role = role
  cases role <;> decide

variable {a : Assignment}

theorem field?_settings {name value : String} (h : standsAlone name = false) (hmem : .valued name value h ∈ a.settings)
    {α : Type} {read? : String → Option α} {x : α} (hread : read? value = some x) :
    field? a.settings name read? = some x :=
  field?_of_mem (by rw [map_flag_settings]; exact nodup_flags _) hmem hread

theorem post?_settings (a : Assignment) : post? a.settings = some a.post := by
  have hrole := role?_settings a
  cases hpost : a.post with
  | coordinator => simp only [post?, hrole, hpost, Post.role]
  | collaborator node host =>
    have hnode : field? a.settings "--node-id" word32.read? = some node :=
      field?_settings rfl (by simp [settings, hpost, Post.settings]) (word32.read?_text node)
    have hhost : field? a.settings "--manager-host" some = some host :=
      field?_settings rfl (by simp [settings, hpost, Post.settings]) rfl
    simp only [post?, hrole, hpost, Post.role, hnode, hhost]
    rfl

theorem ofSettings?_settings (a : Assignment) : ofSettings? a.settings = some a := by
  have hnodes : field? a.settings "--nodes" word32.read? = some a.nodes := by
    refine field?_settings rfl ?_ (word32.read?_text a.nodes)
    cases hpost : a.post <;> simp [settings, hpost, Post.settings]
  have hgrid : field? a.settings "--grid" (fun text => Grid.parse? text.toList) = some a.grid :=
    field?_settings rfl (by simp [settings]) (Grid.parse?_eq_some_iff.2 (Grid.spelledBy_toText a.grid))
  have hgenerations : field? a.settings "--generations" word64.read? = some a.generations :=
    field?_settings rfl (by simp [settings]) (word64.read?_text a.generations)
  have hpattern : field? a.settings "--pattern" some = some a.pattern :=
    field?_settings rfl (by simp [settings]) rfl
  have hport : field? a.settings "--port" word16.read? = some a.port :=
    field?_settings rfl (by simp [settings]) (word16.read?_text a.port)
  have hinterval : field? a.settings "--display-interval" word64.read? = some a.displayInterval :=
    field?_settings rfl (by simp [settings]) (word64.read?_text a.displayInterval)
  simp only [ofSettings?, post?_settings, hnodes, hgrid, hgenerations, hpattern, hport, hinterval]
  rfl

/-- An assignment is found in the arguments in which it is written. -/
theorem ofArgs?_args (a : Assignment) : ofArgs? a.args = some a := by
  rw [ofArgs?, settings_args]
  exact ofSettings?_settings a

theorem args_injective : Function.Injective args := by
  intro a b h
  have hread := ofArgs?_args a
  rw [h, ofArgs?_args] at hread
  exact (Option.some.inj hread).symm

/-- A node that goes through the arguments meets each flag of its part once and no other flag, and it finds this
assignment. -/
structure FoundIn (a : Assignment) (args : List String) : Prop where
  met : ∃ ss, Setting.ofArgs? args = some ss ∧
    ∀ flag, (ss.map Setting.flag).count flag = if flag ∈ flags a.post.role then 1 else 0
  found : ofArgs? args = some a

theorem foundIn_args (a : Assignment) : a.FoundIn a.args where
  met := by
    refine ⟨a.settings, settings_args a, fun flag => ?_⟩
    rw [map_flag_settings, (nodup_flags _).count]
  found := ofArgs?_args a

end Assignment

namespace Config
open Assignment

/-- What the configuration is for a node in this place. -/
def assignment (c : Config) (post : Post) : Assignment where
  post := post
  nodes := c.nodes
  grid := c.grid
  generations := c.generations
  pattern := c.pattern
  port := c.port
  displayInterval := 1

theorem displayInterval_eq : displayInterval = WordSize.word64.text 1 := by decide

theorem coordinatorArgs_eq (c : Config) : c.coordinatorArgs = (c.assignment .coordinator).args := by
  -- The interval is a text of its own there; the other numbers are written alike on both sides.
  rw [coordinatorArgs, boardArgs, displayInterval_eq]
  rfl

theorem collaboratorArgs_eq (c : Config) (node : NodeId) :
    c.collaboratorArgs node = (c.assignment (.collaborator node c.coordinatorHost)).args := by
  rw [collaboratorArgs, boardArgs, displayInterval_eq]
  rfl

/-- A node finds its assignment in its arguments, whatever the texts in them are. So two coordinators have the same
arguments only with the same assignment, and two collaborators likewise; a coordinator and a collaborator never have
the same. -/
theorem assignment_recovered :
    (∀ c : Config, (c.assignment .coordinator).FoundIn c.coordinatorArgs) ∧
      (∀ (c : Config) (node : NodeId),
        (c.assignment (.collaborator node c.coordinatorHost)).FoundIn (c.collaboratorArgs node)) ∧
      (∀ c c' : Config,
        c.coordinatorArgs = c'.coordinatorArgs ↔ c.assignment .coordinator = c'.assignment .coordinator) ∧
      (∀ (c c' : Config) (node node' : NodeId), c.collaboratorArgs node = c'.collaboratorArgs node' ↔
        c.assignment (.collaborator node c.coordinatorHost) =
          c'.assignment (.collaborator node' c'.coordinatorHost)) ∧
      ∀ (c c' : Config) (node : NodeId), c.coordinatorArgs ≠ c'.collaboratorArgs node := by
  refine ⟨fun c => ?_, fun c node => ?_, fun c c' => ?_, fun c c' node node' => ?_, fun c c' node h => ?_⟩
  · rw [coordinatorArgs_eq]
    exact foundIn_args _
  · rw [collaboratorArgs_eq]
    exact foundIn_args _
  · rw [coordinatorArgs_eq, coordinatorArgs_eq, args_injective.eq_iff]
  · rw [collaboratorArgs_eq, collaboratorArgs_eq, args_injective.eq_iff]
  · rw [coordinatorArgs_eq, collaboratorArgs_eq] at h
    have hpost := congrArg Assignment.post (args_injective h)
    cases hpost

/-- Values that look like flags, and numbers at their limits. -/
example : ofArgs? (collaboratorArgs { nodes := 4294967295, pattern := "--worker", coordinatorHost := "--port" } 7) =
    some ⟨.collaborator 7 "--port", 4294967295, ⟨100, 100⟩, 100, "--worker", 5000, 1⟩ := by decide +kernel

end Config

end ClusterWatch
