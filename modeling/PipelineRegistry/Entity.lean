import PipelineRegistry.Calendar.Timestamp
import PipelineRegistry.Listing
import PipelineRegistry.Path

/-! # Groups, projects and pipeline pointers

A pipeline pointer records where an already parsed pipeline lives and belongs to one project; a
project belongs to one group.  Groups and projects have a name, an optional tag and description, the
time of their creation and the time of their last edit.  A project counts the pointers that were
ever created in it: the count is the identifier of the next one, so identifiers of pointers are
never used twice. -/

namespace PipelineRegistry
open Calendar

/-- Identifier of a project group. -/
abbrev GroupId := UInt64

/-- Identifier of a project, unique in the whole registry. -/
abbrev ProjectId := UInt64

/-- Identifier of a pipeline pointer, unique in its project. -/
abbrev PointerId := UInt64

/-- Identifier of a parsed pipeline, given from outside and unique in the whole registry. -/
abbrev PipelineId := String

/-- A record that links a project to a parsed pipeline. -/
structure Pointer where
  projectId : ProjectId
  id : PointerId
  pipeline : PipelineId
  name : String
  easefile : Path
  pipelineFile : Path
  tag : Option String
  description : Option String
  created : Timestamp
deriving DecidableEq, Repr

instance : Keyed Pointer PointerId := ⟨Pointer.id⟩

/-- A named list of pipeline pointers. -/
structure Project where
  id : ProjectId
  name : String
  tag : Option String
  description : Option String
  created : Timestamp
  modified : Option Timestamp
  nextPointerId : PointerId
  pointers : Listing Pointer
deriving DecidableEq, Repr

instance : Keyed Project ProjectId := ⟨Project.id⟩

/-- A named list of projects. -/
structure Group where
  id : GroupId
  name : String
  tag : Option String
  description : Option String
  created : Timestamp
  modified : Option Timestamp
  projects : Listing Project
deriving DecidableEq, Repr

instance : Keyed Group GroupId := ⟨Group.id⟩

/-- What is asked for when a group is created. -/
structure NewGroup where
  name : String
  tag : Option String
  description : Option String
deriving DecidableEq, Repr

/-- What is asked for when a project is created. -/
structure NewProject where
  group : GroupId
  name : String
  tag : Option String
  description : Option String
deriving DecidableEq, Repr

/-- What is known of a parsed pipeline when it is registered. -/
structure NewPointer where
  project : ProjectId
  pipeline : PipelineId
  name : String
  easefile : Path
  pipelineFile : Path
  tag : Option String
  description : Option String
  created : Timestamp
deriving DecidableEq, Repr

/-- Whether two pointers are the same up to the spelling of their paths. -/
def Pointer.agrees (q q' : Pointer) : Bool :=
  { q with easefile := ⟨[]⟩, pipelineFile := ⟨[]⟩ } ==
      { q' with easefile := ⟨[]⟩, pipelineFile := ⟨[]⟩ } &&
    q.easefile.agrees q'.easefile && q.pipelineFile.agrees q'.pipelineFile

namespace Project

/-- A project without pointers. -/
def create (id : ProjectId) (name : String) (tag description : Option String) (now : Timestamp) :
    Project :=
  ⟨id, name, tag, description, now, none, 0, .empty⟩

/-- Whether a pointer of the project has this name. -/
def hasPointerNamed (p : Project) (name : String) : Bool := p.pointers.toList.any (·.name == name)

/-- Lists a pointer at the end, as a pointer of this project under its next identifier; there is
none once the identifiers of the project are used up. -/
def adopt? (p : Project) (q : Pointer) : Option (Pointer × Project) :=
  if p.nextPointerId + 1 = 0 then none
  else
    let q := { q with projectId := p.id, id := p.nextPointerId }
    some (q, { p with nextPointerId := p.nextPointerId + 1, pointers := p.pointers.insert q })

/-- Adopts pointers one after the other. -/
def adoptAll? (p : Project) : List Pointer → Option Project
  | [] => some p
  | q :: qs => (p.adopt? q).bind fun adopted => adopted.2.adoptAll? qs

/-- Whether two projects are the same up to the order of their pointers and the spelling of paths. -/
def agrees (p p' : Project) : Bool :=
  { p with pointers := .empty } == { p' with pointers := .empty } &&
    p.pointers.agrees Pointer.agrees p'.pointers

end Project

namespace Group

/-- A group without projects. -/
def create (id : GroupId) (name : String) (tag description : Option String) (now : Timestamp) :
    Group :=
  ⟨id, name, tag, description, now, none, .empty⟩

/-- Whether a project of the group has this name. -/
def hasProjectNamed (g : Group) (name : String) : Bool := g.projects.toList.any (·.name == name)

/-- Whether two groups are the same up to the order of their projects and pointers and the spelling
of paths. -/
def agrees (g g' : Group) : Bool :=
  { g with projects := .empty } == { g' with projects := .empty } &&
    g.projects.agrees Project.agrees g'.projects

end Group
end PipelineRegistry
