import PipelineRegistry.CommandLine.Command
import PipelineRegistry.CommandLine.Style

/-! # Messages about changes

For each change what is said when it has been done, and what is said to have been tried when it
fails. -/

namespace PipelineRegistry.CommandLine

/-- A message that something has been done. -/
def doneMessage (colours : Bool) (s : String) : String := Style.green.apply colours "✓" ++ " " ++ s

/-- A message that something has not been done. -/
def deniedMessage (colours : Bool) (s : String) : String :=
  Style.yellow.apply colours "!" ++ " " ++ s

/-- The words about `count` entities that moved to the secured one when their holder was removed. -/
def movedPhrase (what : String) (hard : Bool) (count : Nat) : String :=
  if hard ∨ count = 0 then "" else s!"; {count} {what}(s) moved to 'other'"

/-- The words about an edit; `what` is the kind of entity, which is called `renamed` when it has a
new name. -/
def editedPhrase (renamed what : String) (id : UInt64) (name : String) : Edit → String
  | .rename _ => s!"Renamed {renamed} {id} to '{name}'"
  | .tag _ => s!"Tagged {what} '{name}'"
  | .describe _ => s!"Updated description of {what} '{name}'"

/-- The words about an edit that was tried. -/
def editContext (what : String) (id : UInt64) : Edit → String
  | .rename _ => s!"failed to rename {what} {id}"
  | .tag _ => s!"failed to change tag of {what} {id}"
  | .describe _ => s!"failed to change description of {what} {id}"

namespace Change

/-- What is said when a change has had an outcome.  Other pairs do not arise, because an operation
gives an entity of the kind that it works on. -/
def message (colours : Bool) : Change → Outcome → String
  | addGroup _, .group g => doneMessage colours s!"Created project group '{g.name}' (id {g.id})"
  | addProject request, .project p =>
    doneMessage colours s!"Created project '{p.name}' (id {p.id}) in group {request.group}"
  | addPipeline _, .pointer q => doneMessage colours
    s!"Registered pipeline '{q.name}' as pointer {q.id} in project {q.projectId}"
  | removeGroup _ hard, .group g => doneMessage colours
    (s!"Removed project group '{g.name}'" ++ movedPhrase "project" hard g.projects.size)
  | removeProject _ _ hard, .project p => doneMessage colours
    (s!"Removed project '{p.name}'" ++ movedPhrase "pipeline" hard p.pointers.size)
  | removeProject _ p _, .nothing =>
    deniedMessage colours s!"Project {p} is secured; removal denied"
  | removePipeline _ _, .pointer q =>
    doneMessage colours s!"Removed pipeline '{q.name}' ({q.pipeline})"
  | editGroup _ edit, .group g =>
    doneMessage colours (editedPhrase "project group" "project group" g.id g.name edit)
  | editProject _ edit, .project p =>
    doneMessage colours (editedPhrase "project" "project" p.id p.name edit)
  | editPipeline _ _ edit, .pointer q =>
    doneMessage colours (editedPhrase "pointer" "pipeline" q.id q.name edit)
  | _, _ => ""

/-- What is said to have been tried when a change fails. -/
def context : Change → String
  | addGroup request => s!"failed to create project group '{request.name}'"
  | addProject request => s!"failed to create project '{request.name}' in group {request.group}"
  | addPipeline registration => s!"failed to register pipeline in project {registration.project}"
  | removeGroup g _ => s!"failed to remove project group {g}"
  | removeProject g p _ => s!"failed to remove project {p} from group {g}"
  | removePipeline p q => s!"failed to remove pointer {q} from project {p}"
  | editGroup g edit => editContext "project group" g edit
  | editProject p edit => editContext "project" p edit
  | editPipeline _ q edit => editContext "pointer" q edit

end Change
end PipelineRegistry.CommandLine
