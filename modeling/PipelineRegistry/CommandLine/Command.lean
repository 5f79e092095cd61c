import PipelineRegistry.CommandLine.Form
import PipelineRegistry.Registry.Operation

/-! # Commands

A command asks for one operation on the registry or for a report.  The time at which a pipeline is
registered is the time of the command. -/

namespace PipelineRegistry.CommandLine
open Calendar

/-- What is known of a pipeline that is to be registered. -/
structure Registration where
  project : ProjectId
  pipeline : PipelineId
  name : String
  easefile : Path
  pipelineFile : Path
  tag : Option String
  description : Option String
deriving DecidableEq, Repr

/-- The request for a pointer to the pipeline, created at the time `now`. -/
def Registration.request (r : Registration) (now : Timestamp) : NewPointer where
  project := r.project
  pipeline := r.pipeline
  name := r.name
  easefile := r.easefile
  pipelineFile := r.pipelineFile
  tag := r.tag
  description := r.description
  created := now

/-- A change that the tool can be asked for. -/
inductive Change where
  | addGroup (request : NewGroup)
  | addProject (request : NewProject)
  | addPipeline (registration : Registration)
  | removeGroup (group : GroupId) (hard : Bool)
  | removeProject (group : GroupId) (project : ProjectId) (hard : Bool)
  | removePipeline (project : ProjectId) (pointer : PointerId)
  | editGroup (group : GroupId) (edit : Edit)
  | editProject (project : ProjectId) (edit : Edit)
  | editPipeline (project : ProjectId) (pointer : PointerId) (edit : Edit)
deriving DecidableEq, Repr

/-- What the tool can be asked for. -/
inductive Command where
  | change (c : Change)
  /-- A report on the whole registry, or its document when `json` is set. -/
  | tree (json : Bool)
deriving DecidableEq, Repr

/-- A command and the directory that holds the registry, unless it is that of the user. -/
structure Invocation where
  home : Option Path
  command : Command
deriving DecidableEq, Repr

/-- The operation that a change asks for. -/
def Change.operation (now : Timestamp) : Change → Operation
  | addGroup request => .createGroup request
  | addProject request => .createProject request
  | addPipeline registration => .createPointer (registration.request now)
  | removeGroup g hard => .deleteGroup g hard
  | removeProject g p hard => .deleteProject g p hard
  | removePipeline p q => .deletePointer p q
  | editGroup g edit => .editGroup g edit
  | editProject p edit => .editProject p edit
  | editPipeline p q edit => .editPointer p q edit

/-! ### Commands from arguments -/

namespace Change

/-- The edit that a verb stands for. -/
def editOf? (value : String) : Verb → Option Edit
  | .rename => some (.rename value)
  | .tag => some (.tag value)
  | .describe => some (.describe value)
  | .add | .remove => none

/-- The registration with the given options; all but the project, tag and description are needed. -/
def registration? (s : Slots Opt.Value) : Option Registration := do
  return {
    project := (s .project).getD securedProjectId
    pipeline := ← s .pipelineId
    name := ← s .name
    easefile := ← s .easefile
    pipelineFile := ← s .pipelineFile
    tag := s .tag
    description := s .description }

/-- The change of an area with the given options and positional arguments, unless something that it
needs is missing. -/
def ofArguments? (s : Slots Opt.Value) : Area → Verb → List Positional → Option Change
  | .group, .add, [.text name] => some (.addGroup ⟨name, s .tag, s .description⟩)
  | .project, .add, [.text name] =>
    some (.addProject ⟨(s .group).getD securedGroupId, name, s .tag, s .description⟩)
  | .pipeline, .add, [] => .addPipeline <$> registration? s
  | .group, .remove, [.id g] => some (.removeGroup g (s .hard).isSome)
  | .project, .remove, [.id p] => do return .removeProject (← s .group) p (s .hard).isSome
  | .pipeline, .remove, [.id p, .id q] => some (.removePipeline p q)
  | .group, verb, [.id g, .text value] => .editGroup g <$> editOf? value verb
  | .project, verb, [.id p, .text value] => .editProject p <$> editOf? value verb
  | .pipeline, verb, [.id p, .id q, .text value] => .editPipeline p q <$> editOf? value verb
  | _, _, _ => none

end Change

/-- The command of a form with the given options and positional arguments, unless something that
it needs is missing. -/
def Command.ofArguments? (s : Slots Opt.Value) : Form → List Positional → Option Command
  | .on area verb, positionals => .change <$> Change.ofArguments? s area verb positionals
  | .tree, [] => some (.tree (s .json).isSome)
  | .tree, _ :: _ => none

end PipelineRegistry.CommandLine
