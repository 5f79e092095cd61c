import PipelineRegistry.Registry.Basic
import PipelineRegistry.Registry.Edit

/-! # Operations on projects

Names of projects are unique in their group.  Removing a project takes its pointers along, or, when
the removal is soft, appends them to the secured project under new identifiers.  Asking for the
removal of the secured project is no failure, but nothing comes of it. -/

namespace PipelineRegistry.Registry
open Calendar

/-- Appends an empty project to a group. -/
def createProject (r : Registry) (now : Timestamp) (request : NewProject) :
    Except RegistryError (Project × Registry) := do
  let some group := r.group? request.group | throw (.notFound .group request.group)
  if group.hasProjectNamed request.name then throw (.nameConflict .project request.name)
  let some id := r.nextProjectId? | throw (.idsExhausted .project)
  let p := Project.create id request.name request.tag request.description now
  return (p, r.insertProject request.group p)

/-- The registry after the secured project has adopted pointers. -/
def rehome (r : Registry) (pointers : List Pointer) : Except RegistryError Registry := do
  let some secured := r.project? securedProjectId | throw (.notFound .project securedProjectId)
  let some secured := secured.adoptAll? pointers | throw (.idsExhausted .pointer)
  return r.modifyProject securedProjectId fun _ => secured

/-- Removes a project from a group and gives it as it was, or nothing for the secured project. -/
def deleteProject (r : Registry) (g : GroupId) (p : ProjectId) (hard : Bool) :
    Except RegistryError (Option Project × Registry) := do
  let some group := r.group? g | throw (.notFound .group g)
  if ¬ group.projects.contains p then throw (.notFound .project p)
  if p = securedProjectId then return (none, r)
  let some owner := r.ownerOf? p | throw (.notFound .project p)
  let some project := r.project? p | throw (.notFound .project p)
  let rest := r.eraseProject owner p
  if hard ∨ project.pointers.toList = [] then return (some project, rest)
  return (some project, ← rest.rehome project.pointers.toList)

/-- Whether an edit of project `p` is allowed. -/
def checkProjectEdit (r : Registry) (p : ProjectId) : Edit → Except RegistryError Unit
  | .rename name => do
    if p = securedProjectId ∧ name ≠ securedName then throw (.securedEntity .project p)
    let siblings := ((r.ownerOf? p).bind r.group?).elim [] (·.projects.toList)
    if siblings.any fun other => other.id ≠ p ∧ other.name = name then
      throw (.nameConflict .project name)
  | .tag _ | .describe _ => return ()

/-- Edits a project in its place. -/
def editProject (r : Registry) (now : Timestamp) (p : ProjectId) (edit : Edit) :
    Except RegistryError (Project × Registry) := do
  let some project := r.project? p | throw (.notFound .project p)
  r.checkProjectEdit p edit
  return (project.edited now edit, r.modifyProject p (·.edited now edit))

end PipelineRegistry.Registry
