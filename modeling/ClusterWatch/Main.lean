import ClusterWatch.Program

/-! # The command line program

The configuration and the program of the nodes are read from the disk; everything else happens on a
host of the library.
-/
namespace ClusterWatch
open Host

/-- What is on the disk at a path. What cannot be read as a file is taken for a directory. -/
def entryOnDisk (path : String) : IO (Option Entry) := do
  try
    let content ← IO.FS.readBinFile path
    return some (.file content.toList true)
  catch
    | .noFileOrDirectory .. => return none
    | _ => return some .directory

def withDisk (directory : Path) (files : Files) (path : String) : IO Files := do
  match ← entryOnDisk path with
  | some e => return match files.place? directory path with
    | some place => files.put place e
    | none => files
  | none => return files

def colorVariables : IO (List (String × String)) := do
  ["CLICOLOR_FORCE", "NO_COLOR", "CLICOLOR"].filterMapM fun name => do
    return (← IO.getEnv name).map (name, ·)

/-- The paths that a run looks at before it starts nodes: the configuration, and then the program that
it names. -/
def filesFor (directory : Path) (o : Options) : IO Files := do
  let files ← withDisk directory standardFiles o.config
  match Config.ofFile? (files.find? directory o.config) with
  | .ok c => withDisk directory files (o.applyTo c).executable
  | .error _ => return files

def runAndPrint (arguments : List (List Char)) : IO UInt32 := do
  let directory : Path := ["work"]
  let files ← match Options.ofArguments arguments with
    | .ok o => filesFor directory o
    | .error _ => pure standardFiles
  let environment ← colorVariables
  let toTerminal ← (← IO.getStdout).isTty
  let result := Invocation.run { arguments, environment, toTerminal, host := { files, directory } }
  for text in result.output do
    IO.println (String.ofList text)
  for text in result.errors do
    IO.eprintln (String.ofList text)
  return UInt32.ofNat result.code

end ClusterWatch

def main (arguments : List String) : IO UInt32 :=
  ClusterWatch.runAndPrint (arguments.map String.toList)
