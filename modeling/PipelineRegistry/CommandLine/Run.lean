import PipelineRegistry.CommandLine.Arguments
import PipelineRegistry.CommandLine.Message
import PipelineRegistry.CommandLine.Report
import PipelineRegistry.CommandLine.Tree
import PipelineRegistry.Storage.Handle

/-! # Running the tool

A run reads its arguments, opens the registry below the home directory, performs one command and
reports what came of it.  Where the arguments are not understood nothing is opened. -/

namespace PipelineRegistry.CommandLine
open Calendar

variable {m : Type → Type} [Monad m] [FileSystem m]

/-- What a run finds around itself. -/
structure Environment where
  /-- The directory that holds the registry, unless the arguments give one. -/
  registryHome : Option Path
  /-- The home directory of the user. -/
  userHome : Option Path
  /-- Whether the output may have colours. -/
  colours : Bool
deriving DecidableEq, Repr

/-- The name and version of the tool. -/
def versionText : String := "easeci 0.1.0\n"

/-- How the tool is called. -/
def usageText : String := unlines [
  "Manage EaseCI project groups, projects and pipeline pointers",
  "",
  "Usage: easeci [--home <DIR>] <COMMAND>",
  "",
  "Commands:",
  "  group add <NAME> [--tag <TAG>] [--description <DESCRIPTION>]",
  "  group rm <ID> [--hard]",
  "  group rename|tag|describe <ID> <VALUE>",
  "  project add <NAME> [--group <GROUP>] [--tag <TAG>] [--description <DESCRIPTION>]",
  "  project rm <ID> --group <GROUP> [--hard]",
  "  project rename|tag|describe <ID> <VALUE>",
  "  pipeline add [--project <PROJECT>] --pipeline-id <ID> --name <NAME> --easefile <FILE>",
  "               --pipeline-file <FILE> [--tag <TAG>] [--description <DESCRIPTION>]",
  "  pipeline rm <PROJECT> <POINTER>",
  "  pipeline rename|tag|describe <PROJECT> <POINTER> <VALUE>",
  "  tree [--json]"]

/-- The report of a run that ends with its arguments. -/
def Stop.report : Stop → Report
  | usage => ⟨2, "", usageText⟩
  | help => .success usageText
  | version => .success versionText

/-- The report on the whole registry. -/
def treeReport (colours json : Bool) (document : Path) (r : Registry) : Report :=
  if json then
    match r.render? with
    | some text => .success (text ++ "\n")
    | none => .failure "failed to serialize registry" [RegistryError.unwritableCause]
  else .success (unlines (treeLines colours document r))

/-- Performs a command on an open registry. -/
def Command.perform (colours : Bool) (now : Timestamp) (h : Handle) : Command → m Report
  | .change c => do
    match (← h.perform now (c.operation now)).1 with
    | .ok outcome => return .success (c.message colours outcome ++ "\n")
    | .error e => return .failure c.context (causes e)
  | .tree json => do
    match (← h.registry now).1 with
    | .ok r => return treeReport colours json h.document r
    | .error e => return .failure "failed to read registry" (causes e)

/-- Performs a command on the registry below a home directory. -/
def Command.run (colours : Bool) (now : Timestamp) (home : Path) (c : Command) : m Report := do
  match ← Handle.openHome home now with
  | .ok h => c.perform colours now h
  | .error e => return .failure s!"failed to open registry under {home.display}" (causes e)

/-- Runs the tool at the time `now`. -/
def run (e : Environment) (now : Timestamp) (args : List String) : m Report :=
  match readArguments e.registryHome args with
  | .error stop => pure stop.report
  | .ok invocation =>
    match invocation.home.or e.userHome with
    | none => pure (.failure "could not determine home directory" [])
    | some home => invocation.command.run e.colours now home

end PipelineRegistry.CommandLine
