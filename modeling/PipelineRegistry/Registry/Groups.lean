import PipelineRegistry.Registry.Basic
import PipelineRegistry.Registry.Edit

/-! # Operations on groups

Names of groups are unique.  Removing a group takes its projects along, or, when the removal is soft,
appends them to the secured group as they are.  The secured group can be neither removed nor given
another name. -/

namespace PipelineRegistry.Registry
open Calendar

/-- Appends an empty group. -/
def createGroup (r : Registry) (now : Timestamp) (request : NewGroup) :
    Except RegistryError (Group × Registry) := do
  if r.hasGroupNamed request.name then throw (.nameConflict .group request.name)
  let some id := r.nextGroupId? | throw (.idsExhausted .group)
  let g := Group.create id request.name request.tag request.description now
  return (g, r.insertGroup g)

/-- Removes a group and gives it as it was. -/
def deleteGroup (r : Registry) (g : GroupId) (hard : Bool) :
    Except RegistryError (Group × Registry) := do
  let some group := r.group? g | throw (.notFound .group g)
  if g = securedGroupId then throw (.securedEntity .group g)
  let rest := r.eraseGroup group
  if hard then return (group, rest)
  return (group, group.projects.toList.foldl (insertProject · securedGroupId) rest)

/-- Whether an edit of group `g` is allowed. -/
def checkGroupEdit (r : Registry) (g : GroupId) : Edit → Except RegistryError Unit
  | .rename name => do
    if g = securedGroupId ∧ name ≠ securedName then throw (.securedEntity .group g)
    if r.groups.toList.any fun other => other.id ≠ g ∧ other.name = name then
      throw (.nameConflict .group name)
  | .tag _ | .describe _ => return ()

/-- Edits a group in its place. -/
def editGroup (r : Registry) (now : Timestamp) (g : GroupId) (edit : Edit) :
    Except RegistryError (Group × Registry) := do
  let some group := r.group? g | throw (.notFound .group g)
  r.checkGroupEdit g edit
  return (group.edited now edit, r.modifyGroup g (·.edited now edit))

end PipelineRegistry.Registry
