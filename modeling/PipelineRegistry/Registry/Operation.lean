import PipelineRegistry.Registry.Groups
import PipelineRegistry.Registry.Pointers
import PipelineRegistry.Registry.Projects

/-! # Operations as values

Every change of a registry is one of nine operations, three for each kind of entity: create, delete
and edit. -/

namespace PipelineRegistry
open Calendar

/-- A change of a registry. -/
inductive Operation where
  | createGroup (request : NewGroup)
  | createProject (request : NewProject)
  | createPointer (request : NewPointer)
  | deleteGroup (group : GroupId) (hard : Bool)
  | deleteProject (group : GroupId) (project : ProjectId) (hard : Bool)
  | deletePointer (project : ProjectId) (pointer : PointerId)
  | editGroup (group : GroupId) (edit : Edit)
  | editProject (project : ProjectId) (edit : Edit)
  | editPointer (project : ProjectId) (pointer : PointerId) (edit : Edit)
deriving DecidableEq, Repr

/-- What an operation gives: the entity that was created, removed or edited, or nothing when the
secured project was to be removed. -/
inductive Outcome where
  | group (g : Group)
  | project (p : Project)
  | pointer (q : Pointer)
  | nothing
deriving DecidableEq, Repr

/-- The outcome of a removal of a project. -/
def Outcome.ofProject? : Option Project → Outcome
  | some p => .project p
  | none => .nothing

/-- Performs an operation at the time `now`. -/
def Operation.perform (now : Timestamp) (r : Registry) :
    Operation → Except RegistryError (Outcome × Registry)
  | createGroup request => (r.createGroup now request).map (Prod.map .group id)
  | createProject request => (r.createProject now request).map (Prod.map .project id)
  | createPointer request => (r.createPointer request).map (Prod.map .pointer id)
  | deleteGroup g hard => (r.deleteGroup g hard).map (Prod.map .group id)
  | deleteProject g p hard => (r.deleteProject g p hard).map (Prod.map .ofProject? id)
  | deletePointer p q => (r.deletePointer p q).map (Prod.map .pointer id)
  | editGroup g edit => (r.editGroup now g edit).map (Prod.map .group id)
  | editProject p edit => (r.editProject now p edit).map (Prod.map .project id)
  | editPointer p q edit => (r.editPointer p q edit).map (Prod.map .pointer id)

end PipelineRegistry
