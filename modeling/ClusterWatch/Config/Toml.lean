import ClusterWatch.Config.Basic
import ClusterWatch.Host.Files
import ClusterWatch.Text.Utf8
import ClusterWatch.Toml.Reader

/-! # Configurations from TOML

A document gives the values that differ from the defaults. Names that a configuration does not have
are passed over. Values are looked at in the order of the document, and the first that is refused is
the error.
-/
namespace ClusterWatch

def ClusterError.notAConfig : ClusterError := configParse none

open ClusterError (notAConfig)

namespace TomlValue

def text? : TomlValue → Except ClusterError (List Char)
  | .text cs => .ok cs
  | _ => .error notAConfig

def naturalBelow? (bound : Nat) : TomlValue → Except ClusterError Nat
  | .integer n => if 0 ≤ n ∧ n < bound then .ok n.toNat else .error notAConfig
  | _ => .error notAConfig

def word64? (v : TomlValue) : Except ClusterError UInt64 := (v.naturalBelow? UInt64.size).map .ofNat

def string? (v : TomlValue) : Except ClusterError String := v.text?.map String.ofList

def grid? (v : TomlValue) : Except ClusterError Grid := do
  let cs ← v.text?
  (Grid.read cs).mapError fun refusal => .configParse (some refusal.message)

end TomlValue

namespace Timings

def names : List TomlKey :=
  ["coordinator_settle_ms", "collaborator_settle_ms", "grace_period_ms"].map String.toList

def withEntry (t : Timings) (entry : TomlKey × TomlValue) : Except ClusterError Timings :=
  match String.ofList entry.1 with
  | "coordinator_settle_ms" => do return { t with coordinatorSettle := ← entry.2.word64? }
  | "collaborator_settle_ms" => do return { t with collaboratorSettle := ← entry.2.word64? }
  | "grace_period_ms" => do return { t with gracePeriod := ← entry.2.word64? }
  | _ => .ok t

/-- The timings that a value says: a table, or an array with the values in order. A moment is taken
for a table with none of the names. -/
def ofToml? : TomlValue → Except ClusterError Timings
  | .table _ entries => entries.foldlM withEntry {}
  | .array items => (names.zip items).foldlM withEntry {}
  | .moment _ => .ok {}
  | _ => .error notAConfig

end Timings

namespace Config

def withEntry (c : Config) (entry : TomlKey × TomlValue) : Except ClusterError Config :=
  let value := entry.2
  match String.ofList entry.1 with
  | "executable" => do return { c with executable := ← value.string? }
  | "nodes" => do return { c with nodes := .ofNat (← value.naturalBelow? UInt32.size) }
  | "grid" => do return { c with grid := ← value.grid? }
  | "generations" => do return { c with generations := ← value.word64? }
  | "pattern" => do return { c with pattern := ← value.string? }
  | "coordinator_host" => do return { c with coordinatorHost := ← value.string? }
  | "port" => do return { c with port := .ofNat (← value.naturalBelow? UInt16.size) }
  | "timings" => do return { c with timings := ← Timings.ofToml? value }
  | _ => .ok c

def ofEntries? (entries : TomlEntries) : Except ClusterError Config := entries.foldlM withEntry {}

def ofText? (cs : List Char) : Except ClusterError Config :=
  match Toml.document? cs with
  | some entries => ofEntries? entries
  | none => .error notAConfig

def ofBytes? (bytes : List UInt8) : Except ClusterError Config :=
  match Text.decode? bytes with
  | some cs => ofText? cs
  | none => .error (.io "stream did not contain valid UTF-8")

end Config

/-! ## Configurations from files

A file that is not there stands for the defaults.
-/

def Config.ofFile? : Option Host.Entry → Except ClusterError Config
  | none | some (.link _) => .ok {}
  | some (.program _) => .error (.io "stream did not contain valid UTF-8")
  | some .directory => .error (.io "Is a directory (os error 21)")
  | some (.file content _) => Config.ofBytes? content

end ClusterWatch
