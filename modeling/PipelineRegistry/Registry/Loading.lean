import PipelineRegistry.Document.Decode
import PipelineRegistry.Document.Encode
import PipelineRegistry.Registry.Basic

/-! # From documents to registries and back

A document is a list of groups.  It is a registry if it keeps the rules, which are checked in a fixed
order: first those of the secured group and project, then those of each group, project and pointer
in the order of the document.  Checking also builds the index of owners.

A document may know too little about the pointers created in a project: the count becomes at least
one more than the greatest identifier of a pointer. -/

namespace PipelineRegistry

/-! ### Counts of pointers -/

namespace Project

/-- The least count that is above all pointers of a project; zero again if there is none. -/
def pointerFloor (p : Project) : PointerId :=
  match greatestId? p.pointers.keys with
  | none => 0
  | some greatest => greatest + 1

/-- Whether a pointer of the project has the greatest identifier there is. -/
def idsExhausted (p : Project) : Bool := p.pointers.keys.any fun id => id + 1 = 0

/-- The project with a count above all its pointers. -/
def settled (p : Project) : Project :=
  { p with nextPointerId := max p.nextPointerId p.pointerFloor }

end Project

/-- The group with all its projects settled. -/
def Group.settled (g : Group) : Group := { g with projects := ⟨g.projects.toList.map .settled⟩ }

/-! ### Checking the rules -/

/-- What the check of a document has met so far. -/
structure Checked where
  groupNames : List String
  pipelines : List PipelineId
  owners : Std.ExtTreeMap ProjectId GroupId

namespace Checked

/-- Nothing has been met. -/
def nothing : Checked := ⟨[], [], ∅⟩

/-- Meets a pointer of project `p`. -/
def pointer (p : ProjectId) (c : Checked) (q : Pointer) : Except Violation Checked :=
  if q.projectId ≠ p then .error (.danglingPointer q.id q.projectId p)
  else if q.pipeline ∈ c.pipelines then .error (.duplicatePipelineId q.pipeline)
  else .ok { c with pipelines := q.pipeline :: c.pipelines }

/-- Meets a project of group `g` with its pointers. -/
def project (g : GroupId) (c : Checked) (p : Project) : Except Violation Checked := do
  if p.id ∈ c.owners then throw (.duplicateProjectId p.id)
  let c ← p.pointers.toList.foldlM (pointer p.id) { c with owners := c.owners.insert p.id g }
  if p.idsExhausted then throw (.pointerIdsExhausted p.id)
  return c

/-- Meets a group with its projects. -/
def group (c : Checked) (g : Group) : Except Violation Checked := do
  if g.name ∈ c.groupNames then throw (.duplicateGroupName g.name)
  g.projects.toList.foldlM (project g.id) { c with groupNames := g.name :: c.groupNames }

end Checked

/-- Checks the rules of the secured group and project. -/
def checkSecured (groups : Listing Group) : Except Violation Unit := do
  let some g := groups.get? securedGroupId | throw .missingSecuredGroup
  if g.name ≠ securedName then throw (.securedNameChanged .group g.name)
  let some p := g.projects.get? securedProjectId | throw .missingSecuredProject
  if p.name ≠ securedName then throw (.securedNameChanged .project p.name)
  if g.projects.keys.head? ≠ some securedProjectId then throw .securedProjectNotFirst

namespace Registry

/-- The registry of a document, or the first rule that the document breaks. -/
def ofGroups? (groups : Listing Group) : Except Violation Registry := do
  checkSecured groups
  let checked ← groups.toList.foldlM Checked.group .nothing
  return { groups := ⟨groups.toList.map .settled⟩, owners := checked.owners }

/-- The registry that a value stands for. -/
def ofReading (v : Json.Reading) : Except Corruption Registry := do
  let groups ← (Document.groupsOfReading v).mapError .unreadable
  (ofGroups? groups).mapError .inconsistent

/-- The registry that a text stands for. -/
def parse (s : String) : Except Corruption Registry :=
  Document.decode (fun m => .unreadable (.malformed m)) ofReading s

/-- The written form of a registry, unless a path is not UTF-8. -/
def render? (r : Registry) : Option String := do
  return String.ofList (← Document.toJson? r.groups).pretty

end Registry
end PipelineRegistry
