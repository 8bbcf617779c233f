import ClusterWatch.Program
import ClusterWatch.Proofs.CommandLine.Values
import ClusterWatch.Proofs.Follow.Watch

/-!
# Where a configuration comes from

Each field of the configuration that a run of the program starts with is looked for in three places: on the command
line, in the file, in the defaults (`Config.Field.Layered`). The first of them that says something about the field
decides it, whatever is said about the others. The controller whose session the run starts has this configuration
(`Invocation.RunsWith`), and a file with a value that does not fit stops the run (`Invocation.run_layered`).
-/

namespace ClusterWatch
open Host Text

namespace Config

/-- What is found at the place of a file says these entries. What is not there says none. -/
def Tells : Option Entry → TomlEntries → Prop
  | none, entries => entries = []
  | some (.file content _), entries => ∃ cs, decode? content = some cs ∧ Toml.document? cs = some entries
  | some _, _ => False

theorem Tells.isKeyed {found : Option Entry} {entries : TomlEntries} (h : Tells found entries) : entries.IsKeyed := by
  match found, h with
  | none, h => exact h ▸ TomlEntries.isKeyed_nil
  | some (.file _ _), ⟨_, _, hdocument⟩ => exact Toml.isKeyed_document? hdocument

theorem Tells.ofFile? {found : Option Entry} {entries : TomlEntries} (h : Tells found entries) :
    ofFile? found = ofEntries? entries := by
  match found, h with
  | none, h =>
    cases h
    rfl
  | some (.file content _), ⟨cs, hdecode, hdocument⟩ =>
    show ofBytes? content = _
    rw [ofBytes?, hdecode]
    show ofText? cs = _
    rw [ofText?, hdocument]

namespace Field

/-- What the options say about a field. -/
def given? (o : Options) : (f : Field) → Option f.Value
  | executable => o.executable?
  | nodes => o.nodes?
  | grid => o.grid?
  | generations => o.generations?
  | pattern => o.pattern?
  | host => o.host?
  | port => o.port?
  | timings => none

theorem get_applyTo (f : Field) (o : Options) (c : Config) : f.get (o.applyTo c) = (f.given? o).getD (f.get c) := by
  cases f <;> rfl

theorem exists_given? {f : Field} {flag : Flag} (hflag : f.flag? = some flag) {o : Options} {cs : List Char}
    (h : Options.Takes flag cs (o.get flag)) : ∃ x, f.given? o = some x ∧ f.SpelledBy cs x := by
  cases f <;> cases hflag <;> exact h

theorem given?_eq_none {f : Field} {o : Options} (h : ∀ flag, f.flag? = some flag → o.get flag = Options.get {} flag) :
    f.given? o = none := by
  cases f with
  | timings => rfl
  | _ => exact h _ rfl

/-- This is what the first of the options, the file and the defaults says that says something about the field. -/
def Layered (f : Field) (given : List Options.Given) (entries : TomlEntries) (x : f.Value) : Prop :=
  match f.flag?.bind (Options.textGiven? given), entries.get? f.key with
  | some cs, _ => f.SpelledBy cs x
  | none, some v => f.SaidBy v x
  | none, none => x = f.get {}

end Field

/-- Options over a configuration from a document. -/
theorem layered_applyTo {given : List Options.Given} {entries : TomlEntries} {o : Options} {c : Config}
    (ho : ∀ flag, (Options.textGiven? given flag = none → o.get flag = Options.get {} flag) ∧
      ∀ cs, Options.textGiven? given flag = some cs → Options.Takes flag cs (o.get flag))
    (hc : ∀ f : Field, (entries.get? f.key = none → f.get c = f.get {}) ∧
      ∀ v, entries.get? f.key = some v → f.SaidBy v (f.get c)) (f : Field) :
    f.Layered given entries (f.get (o.applyTo c)) := by
  rw [Field.get_applyTo, Field.Layered]
  cases hcs : f.flag?.bind (Options.textGiven? given) with
  | some cs =>
    obtain ⟨flag, hflag, hcs⟩ := Option.bind_eq_some_iff.1 hcs
    obtain ⟨x, hx, hspelled⟩ := Field.exists_given? hflag ((ho flag).2 cs hcs)
    rw [hx]
    exact hspelled
  | none =>
    rw [Field.given?_eq_none fun flag hflag => (ho flag).1 (by simpa [hflag] using hcs)]
    cases hv : entries.get? f.key with
    | some v => exact (hc f).2 v hv
    | none => exact (hc f).1 hv

end Config

/-- The file that the options name. -/
def Options.fileGiven (given : List Options.Given) : String :=
  ((Options.textGiven? given .config).map String.ofList).getD ({} : Options).config

theorem Options.config_eq_fileGiven {given : List Options.Given} {o : Options}
    (h : (textGiven? given .config = none → o.get .config = get {} .config) ∧
      ∀ cs, textGiven? given .config = some cs → Takes .config cs (o.get .config)) : o.config = fileGiven given := by
  rw [fileGiven]
  cases hcs : textGiven? given .config with
  | none => exact h.1 hcs
  | some cs => exact (h.2 cs hcs).2

namespace Invocation

/-- A controller with this configuration, on the host of a run. -/
def rehearsal (i : Invocation) (c : Config) : Rehearsal where
  controller := { config := c }
  host := { i.host with environment := i.environment.map fun (name, value) => (name, value.toList) }

/-- A run is that of a controller with this configuration: it is what comes of starting its session. -/
structure RunsWith (i : Invocation) (o : Options) (c : Config) : Prop where
  /-- Without a program for the nodes nothing is started. -/
  nameless : c.executable = "" → i.run =
    { code := 1, errors := failureText s!"No executable given; pass --executable or set it in {o.config}" [] }
  refused {e : ClusterError} {r : Rehearsal} : c.executable ≠ "" → (i.rehearsal c).start = (.error e, r) →
    i.run = .failed "Failed to start Game of Life nodes" e
  started {r : Rehearsal} : c.executable ≠ "" → (i.rehearsal c).start = (.ok (), r) → i.run = i.afterStart o r

theorem runsWith {i : Invocation} {o : Options} {c : Config} (hrun : i.run = i.withConfig o c) : i.RunsWith o c := by
  refine ⟨fun hnone => ?_, fun hsome hstart => ?_, fun hsome hstart => ?_⟩
  · rw [hrun, withConfig, if_pos (by simp [hnone])]
  all_goals
    rw [rehearsal] at hstart
    rw [hrun, withConfig, if_neg (by simpa using hsome)]
    simp only [hstart]

/-- A run with options that are given once each and with texts that they take. If all values of the file fit, the
controller gets the configuration of the file with the options over it: each field is what the options say, else what
the file says, else the default. If a value does not fit, the run fails with the file, whatever the options say. -/
theorem run_layered {i : Invocation} {given : List Options.Given} {entries : TomlEntries}
    (harguments : i.arguments = given.flatMap (·.words)) (honce : (given.map (·.flag)).Nodup)
    (htakes : ∀ g ∈ given, ∃ x, Options.Takes g.flag g.value x)
    (hfile : Config.Tells (i.host.files.find? i.host.directory (Options.fileGiven given)) entries) :
    ((∀ (f : Config.Field) v, entries.get? f.key = some v → ∃ x, f.SaidBy v x) →
        ∃ o c, Options.ofArguments i.arguments = .ok o ∧
          Config.ofFile? (i.host.files.find? i.host.directory (Options.fileGiven given)) = .ok c ∧
          (∀ f : Config.Field, f.Layered given entries (f.get (o.applyTo c))) ∧ i.RunsWith o (o.applyTo c)) ∧
      ((∃ (f : Config.Field) (v : TomlValue), entries.get? f.key = some v ∧ f.Misfit v) →
        ∃ why, Config.ofFile? (i.host.files.find? i.host.directory (Options.fileGiven given)) =
            .error (.configParse why) ∧
          i.run = .failed s!"Failed to load {Options.fileGiven given}" (.configParse why)) := by
  obtain ⟨o, ho, hgiven⟩ := Options.exists_ofArguments honce htakes
  have hpath := Options.config_eq_fileGiven (hgiven .config)
  rw [← harguments] at ho
  rw [← hpath] at hfile ⊢
  rw [hfile.ofFile?]
  constructor
  · intro hfits
    obtain ⟨c, hc, hsaid⟩ := Config.exists_ofEntries? hfile.isKeyed hfits
    have hrun : i.run = i.withConfig o (o.applyTo c) := by simp only [run, ho, hfile.ofFile?, hc]
    exact ⟨o, c, ho, hc, Config.layered_applyTo hgiven hsaid, runsWith hrun⟩
  · rintro ⟨f, v, hv, hmisfit⟩
    obtain ⟨why, hwhy⟩ := Config.ofEntries?_refusal hfile.isKeyed hv hmisfit
    exact ⟨why, hwhy, by simp only [run, ho, hfile.ofFile?, hwhy]⟩

/-- Options that name a file and say something about two fields. -/
def overrides : List Options.Given :=
  [⟨.config, ['c'], _, .letterApart rfl rfl fun _ _ h => by cases h⟩,
    ⟨.nodes, ['4'], _, .letter rfl rfl (by decide) (by decide)⟩,
    ⟨.grid, "8x9".toList, _, .joined _ rfl⟩]

/-- A run with these options where the file has this content. -/
def overFile (content : List Char) : Invocation where
  arguments := overrides.flatMap (·.words)
  host := { files := ⟨[(["c"], .file (encode content) false)]⟩, directory := [] }

theorem takes_overrides : ∀ g ∈ overrides, ∃ x, Options.Takes g.flag g.value x := by
  have hnodes : Options.read? .nodes ['4'] = .ok (some 4) := by rfl
  have hgrid : Options.read? .grid "8x9".toList = .ok (some ⟨8, 9⟩) := by rfl
  intro g hg
  simp only [overrides, List.mem_cons, List.not_mem_nil, or_false] at hg
  obtain rfl | rfl | rfl := hg
  · exact ⟨"c", by decide, rfl⟩
  · exact ⟨_, Options.read?_eq_ok_iff.1 hnodes⟩
  · exact ⟨_, Options.read?_eq_ok_iff.1 hgrid⟩

theorem find?_overFile (content : List Char) {name : String} (hname : name = "c" ∨ name = "m") :
    (overFile content).host.files.find? [] name = (overFile content).host.files.get? [name] := by
  have hsplit : name.splitOn "/" = [name] ∧ name.startsWith "/" = false := by
    -- `splitOn` does not compute in the kernel: its two rounds over the text are unfolded by hand.
    rcases hname with rfl | rfl <;>
    · rw [String.splitOn, if_neg (by decide), String.splitOnAux, if_neg (by decide +kernel),
        if_neg (by decide +kernel), String.splitOnAux, if_pos (by decide +kernel)]
      decide +kernel
  have hplace : (overFile content).host.files.place? [] name = some [name] := by
    rw [Files.place?, hsplit.1, hsplit.2]
    rcases hname with rfl | rfl <;> rfl
  rw [Files.find?, hplace]
  rfl

theorem tells_overFile (content : List Char) {entries : TomlEntries}
    (hdecode : decode? (encode content) = some content) (hdocument : Toml.document? content = some entries) :
    Config.Tells ((overFile content).host.files.find? (overFile content).host.directory
      (Options.fileGiven overrides)) entries := by
  show Config.Tells ((overFile content).host.files.find? [] "c") entries
  rw [find?_overFile content (.inl rfl)]
  exact ⟨content, hdecode, hdocument⟩

/-- The start of a session misses a program that is not there. -/
theorem start_of_missing {c : Config} {host : Host} (hcheck : c.check = .ok ())
    (hmissing : host.pathExists c.executable = false) :
    ∃ r, Rehearsal.start { controller := { config := c }, host } = (.error (.executableNotFound c.executable), r) := by
  have hlaunch : Launch.begin Host.system c [] host = (.failed (.executableNotFound c.executable), host) := by
    rw [Launch.begin, if_neg]
    simpa [Host.system] using hmissing
  have hbegin : ∃ r, Rehearsal.begin { controller := { config := c }, host } Controller.openStart = (1, r) ∧
      r.answer? 1 = some (.started (.error (.executableNotFound c.executable))) := by
    refine ⟨_, rfl, ?_⟩
    simp [Rehearsal.answer?, Rehearsal.stepCall, Controller.changeStage, Stage.canBecome, Controller.addCall,
      Controller.step, Controller.phase?, Controller.request, Controller.enter, Controller.afterBus, Bus.begin,
      Bus.resume, Controller.afterClear, hcheck, hlaunch, Controller.afterLaunch, Controller.finish]
  obtain ⟨r, hr, hanswer⟩ := hbegin
  rw [Rehearsal.start, Rehearsal.call, hr]
  dsimp only
  rw [Rehearsal.finish, Rehearsal.waitFor_of_true (by simp [hanswer])]
  exact ⟨r, by simp [hanswer, CallAnswer.result]⟩

/-- A file that says something about three fields, and about a color. -/
def clusterFile : List Char := "executable = 'm'\nnodes = 9\ngenerations = 7\ncolor = 'red'\n".toList

def clusterEntries : TomlEntries :=
  [("executable".toList, .text ['m']), ("nodes".toList, .integer 9), ("generations".toList, .integer 7),
    ("color".toList, .text "red".toList)]

theorem fits_clusterEntries (f : Config.Field) (v : TomlValue) (hv : clusterEntries.get? f.key = some v) :
    ∃ x, f.SaidBy v x := by
  cases f with
  | executable =>
    cases hv
    exact ⟨"m", rfl⟩
  | nodes =>
    cases hv
    exact ⟨9, rfl⟩
  | generations =>
    cases hv
    exact ⟨7, rfl⟩
  | _ => cases hv

/-- The file decides the program and the generations, the options the grid and, against the file, the nodes. -/
theorem fields_clusterFile {c : Config} (h : ∀ f : Config.Field, f.Layered overrides clusterEntries (f.get c)) :
    c.executable = "m" ∧ c.nodes = 4 ∧ c.grid = ⟨8, 9⟩ ∧ c.generations = 7 := by
  have htext : TomlValue.text ['m'] = .text c.executable.toList := h .executable
  have hnodes : Options.Takes .nodes ['4'] (some c.nodes) := ⟨_, rfl, h .nodes⟩
  have hgrid : Options.Takes .grid "8x9".toList (some c.grid) := ⟨_, rfl, h .grid⟩
  have hinteger : TomlValue.integer 7 = .integer c.generations.toNat := h .generations
  rw [TomlValue.text.injEq] at htext
  rw [← Options.read?_eq_ok_iff] at hnodes hgrid
  rw [TomlValue.integer.injEq] at hinteger
  have hfour : Options.read? .nodes ['4'] = .ok (some 4) := by rfl
  have hsides : Options.read? .grid "8x9".toList = .ok (some ⟨8, 9⟩) := by rfl
  refine ⟨String.toList_inj.1 htext.symm, ?_, ?_, UInt64.toNat_inj.1 ?_⟩
  · exact Option.some.inj (Except.ok.inj (hnodes.symm.trans hfour))
  · exact Option.some.inj (Except.ok.inj (hgrid.symm.trans hsides))
  · show c.generations.toNat = 7
    omega

/-- The controller has the configuration of the file with the options over it, and misses the program. A negative pause
stops the run. -/
theorem run_layered_overFile :
    (∃ o c, Options.ofArguments (overFile clusterFile).arguments = .ok o ∧
        Config.ofFile? ((overFile clusterFile).host.files.find? [] "c") = .ok c ∧
        (o.applyTo c).executable = "m" ∧ (o.applyTo c).nodes = 4 ∧ (o.applyTo c).generations = 7 ∧
        (o.applyTo c).port = 5000 ∧
        (∃ r, ((overFile clusterFile).rehearsal (o.applyTo c)).start = (.error (.executableNotFound "m"), r)) ∧
        (overFile clusterFile).run = .failed "Failed to start Game of Life nodes" (.executableNotFound "m")) ∧
      ∃ why, (overFile "[timings]\ngrace_period_ms = -1\n".toList).run =
        .failed "Failed to load c" (.configParse why) := by
  have honce : (overrides.map (·.flag)).Nodup := by decide
  constructor
  · have hfile := tells_overFile clusterFile (by decide +kernel) (show _ = some clusterEntries from rfl)
    obtain ⟨o, c, ho, hc, hlayered, hruns⟩ := (run_layered rfl honce takes_overrides hfile).1 fits_clusterEntries
    obtain ⟨hexecutable, hnodes, hgrid, hgenerations⟩ := fields_clusterFile hlayered
    have hcheck : (o.applyTo c).check = .ok () := by
      rw [Config.check, Config.fault?, hnodes, hgrid]
      rfl
    have hmissing :
        ((overFile clusterFile).rehearsal (o.applyTo c)).host.pathExists (o.applyTo c).executable = false := by
      rw [hexecutable, Host.pathExists]
      show (_ && ((overFile clusterFile).host.files.find? [] "m").isSome) = false
      rw [find?_overFile _ (.inr rfl)]
      exact Bool.and_false _
    obtain ⟨r, hstart⟩ := start_of_missing hcheck hmissing
    rw [hexecutable] at hstart
    exact ⟨o, c, ho, hc, hexecutable, hnodes, hgenerations, hlayered .port, ⟨r, hstart⟩,
      hruns.refused (by simp [hexecutable]) hstart⟩
  · have hfile := tells_overFile "[timings]\ngrace_period_ms = -1\n".toList (by decide +kernel)
      (show _ = some [("timings".toList, .table .header [("grace_period_ms".toList, .integer (-1))])] from rfl)
    have hmisfit : Timings.Pause.gracePeriod.MisfitIn [("grace_period_ms".toList, .integer (-1))] := by
      refine ⟨_, rfl, fun n h => ?_⟩
      rw [TomlValue.integer.injEq] at h
      omega
    obtain ⟨why, -, hrun⟩ := (run_layered rfl honce takes_overrides hfile).2
      ⟨.timings, _, rfl, _, _, rfl, _, hmisfit⟩
    exact ⟨why, hrun⟩

end Invocation

end ClusterWatch
