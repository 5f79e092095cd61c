import PipelineRegistry.Registry.Basic
import PipelineRegistry.Registry.Edit

/-! # Operations on pipeline pointers

A pipeline is registered at most once in the whole registry, and names of pointers are unique in
their project. -/

namespace PipelineRegistry.Registry

/-- The pointer that is asked for, before it has an identifier. -/
def requestedPointer (request : NewPointer) : Pointer where
  projectId := request.project
  id := 0
  pipeline := request.pipeline
  name := request.name
  easefile := request.easefile
  pipelineFile := request.pipelineFile
  tag := request.tag
  description := request.description
  created := request.created

/-- Appends a pointer to a project. -/
def createPointer (r : Registry) (request : NewPointer) :
    Except RegistryError (Pointer × Registry) := do
  let some project := r.project? request.project | throw (.notFound .project request.project)
  if r.containsPipeline request.pipeline then throw (.duplicateId request.pipeline)
  if project.hasPointerNamed request.name then throw (.nameConflict .pointer request.name)
  let some (q, project) := project.adopt? (requestedPointer request) | throw (.idsExhausted .pointer)
  return (q, r.modifyProject request.project fun _ => project)

/-- The project and the pointer that are addressed. -/
def addressed (r : Registry) (p : ProjectId) (q : PointerId) :
    Except RegistryError (Project × Pointer) := do
  let some project := r.project? p | throw (.notFound .project p)
  let some pointer := project.pointers.get? q | throw (.notFound .pointer q)
  return (project, pointer)

/-- Removes a pointer from its project and gives it as it was. -/
def deletePointer (r : Registry) (p : ProjectId) (q : PointerId) :
    Except RegistryError (Pointer × Registry) := do
  let (_, pointer) ← r.addressed p q
  return (pointer, r.modifyProject p fun project =>
    { project with pointers := project.pointers.erase q })

/-- Whether an edit of pointer `q` of a project is allowed. -/
def checkPointerEdit (project : Project) (q : PointerId) : Edit → Except RegistryError Unit
  | .rename name =>
    if project.pointers.toList.any fun other => other.id ≠ q ∧ other.name = name then
      throw (.nameConflict .pointer name)
    else return ()
  | .tag _ | .describe _ => return ()

/-- Edits a pointer in its place. -/
def editPointer (r : Registry) (p : ProjectId) (q : PointerId) (edit : Edit) :
    Except RegistryError (Pointer × Registry) := do
  let (project, pointer) ← r.addressed p q
  checkPointerEdit project q edit
  return (pointer.edited edit, r.modifyProject p fun project =>
    { project with pointers := project.pointers.modify q (·.edited edit) })

end PipelineRegistry.Registry
