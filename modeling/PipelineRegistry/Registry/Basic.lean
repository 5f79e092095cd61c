import PipelineRegistry.Registry.Error
import PipelineRegistry.Registry.Ids
import Std.Data.ExtTreeMap

/-! # The registry

A registry lists groups, which list projects, which list pipeline pointers.  An index from projects
to the groups that hold them makes projects directly addressable.

Group 0 and its first project 0 are secured: they bear a reserved name, take in what loses its place
elsewhere, and can be neither removed nor renamed. -/

namespace PipelineRegistry
open Calendar

/-- The groups of a registry, and for each project the group that holds it. -/
structure Registry where
  groups : Listing Group
  owners : Std.ExtTreeMap ProjectId GroupId
deriving DecidableEq

/-- The name of group 0 and of project 0. -/
def securedName : String := "other"

/-- The identifier of the secured group. -/
def securedGroupId : GroupId := 0

/-- The identifier of the secured project. -/
def securedProjectId : ProjectId := 0

/-- The description that the secured group has at first. -/
def securedGroupDescription : String := "Unassigned projects"

namespace Registry

/-! ### Looking up -/

/-- The group with an identifier. -/
def group? (r : Registry) (g : GroupId) : Option Group := r.groups.get? g

/-- The group that holds a project. -/
def ownerOf? (r : Registry) (p : ProjectId) : Option GroupId := r.owners[p]?

/-- The project with an identifier. -/
def project? (r : Registry) (p : ProjectId) : Option Project := do
  let g ← r.ownerOf? p
  (← r.group? g).projects.get? p

/-- The pointer with an identifier in a project. -/
def pointer? (r : Registry) (p : ProjectId) (q : PointerId) : Option Pointer := do
  (← r.project? p).pointers.get? q

/-- All projects in listing order. -/
def projects (r : Registry) : List Project := r.groups.toList.flatMap fun g => g.projects.toList

/-- All pointers in listing order. -/
def pointers (r : Registry) : List Pointer := r.projects.flatMap fun p => p.pointers.toList

/-- Number of groups. -/
def groupCount (r : Registry) : Nat := r.groups.size

/-- Number of projects, taken from the index. -/
def projectCount (r : Registry) : Nat := r.owners.size

/-- Number of pointers. -/
def pointerCount (r : Registry) : Nat := (r.projects.map fun p => p.pointers.size).foldl (· + ·) 0

/-- Whether a group has this name. -/
def hasGroupNamed (r : Registry) (name : String) : Bool := r.groups.toList.any (·.name == name)

/-- Whether a pointer refers to this pipeline. -/
def containsPipeline (r : Registry) (pipeline : PipelineId) : Bool :=
  r.pointers.any (·.pipeline == pipeline)

/-- The identifier for a new group. -/
def nextGroupId? (r : Registry) : Option GroupId :=
  nextFreeId? r.groups.keys r.groupCount.toUInt64

/-- The identifier for a new project. -/
def nextProjectId? (r : Registry) : Option ProjectId :=
  nextFreeId? r.owners.keys r.projectCount.toUInt64

/-- Whether two registries are the same up to the order of their listings and the spelling of
paths. -/
def agrees (r r' : Registry) : Bool :=
  r.groups.agrees Group.agrees r'.groups && r.owners == r'.owners

/-! ### Changing -/

/-- Lists a group at the end and enters its projects in the index. -/
def insertGroup (r : Registry) (g : Group) : Registry where
  groups := r.groups.insert g
  owners := g.projects.keys.foldl (fun owners p => owners.insert p g.id) r.owners

/-- Takes a group out, and its projects out of the index. -/
def eraseGroup (r : Registry) (g : Group) : Registry where
  groups := r.groups.erase g.id
  owners := g.projects.keys.foldl (fun owners p => owners.erase p) r.owners

/-- Lists a project at the end of a group. -/
def insertProject (r : Registry) (g : GroupId) (p : Project) : Registry where
  groups := r.groups.modify g fun group => { group with projects := group.projects.insert p }
  owners := r.owners.insert p.id g

/-- Takes a project out of its group `g`. -/
def eraseProject (r : Registry) (g : GroupId) (p : ProjectId) : Registry where
  groups := r.groups.modify g fun group => { group with projects := group.projects.erase p }
  owners := r.owners.erase p

/-- Changes a group in its place. -/
def modifyGroup (r : Registry) (g : GroupId) (f : Group → Group) : Registry :=
  { r with groups := r.groups.modify g f }

/-- Changes a project in its place. -/
def modifyProject (r : Registry) (p : ProjectId) (f : Project → Project) : Registry :=
  match r.ownerOf? p with
  | none => r
  | some g => r.modifyGroup g fun group => { group with projects := group.projects.modify p f }

/-! ### The first registry -/

/-- The secured project without pointers. -/
def securedProject (now : Timestamp) : Project :=
  .create securedProjectId securedName none none now

/-- The secured group with the secured project. -/
def securedGroup (now : Timestamp) : Group :=
  { Group.create securedGroupId securedName none (some securedGroupDescription) now with
    projects := ⟨[securedProject now]⟩ }

/-- The registry that holds nothing but the secured group and project. -/
def initial (now : Timestamp) : Registry :=
  insertGroup ⟨.empty, ∅⟩ (securedGroup now)

end Registry
end PipelineRegistry
