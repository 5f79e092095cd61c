import PipelineRegistry.Entity
import PipelineRegistry.Json.Writer

/-! # Writing groups, projects and pointers

The members of an entity have a fixed order.  A tag, description or time of the last edit that is
absent is left out; the count of pointers and the lists are always written.  A pointer with a path
that is not UTF-8 has no written form, and neither has what contains it. -/

namespace PipelineRegistry
open Calendar Json

namespace Document

/-- The member for a value that may be absent. -/
def optionalMember {α : Type} (key : String) (toJson : α → Json) : Option α → List (String × Json)
  | none => []
  | some x => [(key, toJson x)]

/-- A timestamp as a value. -/
def ofTimestamp (t : Timestamp) : Json := .string (String.ofList t.text)

end Document

open Document

/-- A pointer as a value. -/
def Pointer.toJson? (q : Pointer) : Option Json := do
  let easefile ← q.easefile.text?
  let pipelineFile ← q.pipelineFile.text?
  return .object <|
    [("projectId", .natural q.projectId),
     ("pipelinePointerId", .natural q.id),
     ("pipelineId", .string q.pipeline),
     ("name", .string q.name),
     ("easefilePath", .string easefile),
     ("pipelineFilePath", .string pipelineFile)] ++
    optionalMember "tag" .string q.tag ++
    optionalMember "description" .string q.description ++
    [("createdDate", ofTimestamp q.created)]

/-- A project as a value. -/
def Project.toJson? (p : Project) : Option Json := do
  let pointers ← p.pointers.toList.mapM Pointer.toJson?
  return .object <|
    [("id", .natural p.id),
     ("name", .string p.name)] ++
    optionalMember "tag" .string p.tag ++
    optionalMember "description" .string p.description ++
    [("createdDate", ofTimestamp p.created)] ++
    optionalMember "lastModifiedDate" ofTimestamp p.modified ++
    [("nextPipelinePointerId", .natural p.nextPointerId),
     ("pipelines", .array pointers)]

/-- A group as a value. -/
def Group.toJson? (g : Group) : Option Json := do
  let projects ← g.projects.toList.mapM Project.toJson?
  return .object <|
    [("id", .natural g.id),
     ("name", .string g.name)] ++
    optionalMember "tag" .string g.tag ++
    optionalMember "description" .string g.description ++
    [("createdDate", ofTimestamp g.created)] ++
    optionalMember "lastModifiedDate" ofTimestamp g.modified ++
    [("projects", .array projects)]

/-- The document with these groups as a value. -/
def Document.toJson? (groups : Listing Group) : Option Json := do
  let groups ← groups.toList.mapM Group.toJson?
  return .object [("projectGroups", .array groups)]

end PipelineRegistry
