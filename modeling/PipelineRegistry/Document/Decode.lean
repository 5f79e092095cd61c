import PipelineRegistry.Document.Record
import PipelineRegistry.Entity

/-! # Reading groups, projects and pointers

The records of a document.  Tags, descriptions and times of the last edit may be absent or null; the
count of pointers and the lists may be absent, and stand for zero and for no entities then. -/

namespace PipelineRegistry
open Calendar Document Json

/-! ### Pointers -/

/-- The fields of a pointer. -/
inductive Pointer.Field where
  | projectId
  | id
  | pipeline
  | name
  | easefile
  | pipelineFile
  | tag
  | description
  | created
deriving DecidableEq, Repr

namespace Pointer

/-- The type of a field of a pointer. -/
@[reducible] def Field.Value : Field → Type
  | projectId | id => UInt64
  | pipeline | name => String
  | easefile | pipelineFile => Path
  | tag | description => Option String
  | created => Timestamp

/-- The key of a field of a pointer. -/
def Field.key : Field → String
  | projectId => "projectId"
  | id => "pipelinePointerId"
  | pipeline => "pipelineId"
  | name => "name"
  | easefile => "easefilePath"
  | pipelineFile => "pipelineFilePath"
  | tag => "tag"
  | description => "description"
  | created => "createdDate"

/-- Reads a field of a pointer. -/
def Field.read : (f : Field) → Reading → Except DecodeError f.Value
  | projectId, v | id, v => v.natural
  | pipeline, v | name, v => v.text .string
  | easefile, v | pipelineFile, v => v.path
  | tag, v | description, v => v.optional (·.text .string)
  | created, v => v.date

/-- What an absent field of a pointer stands for. -/
def Field.absent : (f : Field) → Option f.Value
  | tag | description => some none
  | projectId | id | pipeline | name | easefile | pipelineFile | created => none

/-- A pointer as a record. -/
def record : Record Field where
  name := "PipelinePointer"
  fields := [.projectId, .id, .pipeline, .name, .easefile, .pipelineFile, .tag, .description,
    .created]
  key := Field.key
  Value := Field.Value
  read := Field.read
  absent := Field.absent

/-- Reads a pointer. -/
def ofReading (v : Reading) : Except DecodeError Pointer := do
  let s ← record.readSlots v
  return {
    projectId := ← s.get .projectId
    id := ← s.get .id
    pipeline := ← s.get .pipeline
    name := ← s.get .name
    easefile := ← s.get .easefile
    pipelineFile := ← s.get .pipelineFile
    tag := ← s.get .tag
    description := ← s.get .description
    created := ← s.get .created }

end Pointer

/-! ### Projects -/

/-- The fields of a project. -/
inductive Project.Field where
  | id
  | name
  | tag
  | description
  | created
  | modified
  | nextPointerId
  | pointers
deriving DecidableEq, Repr

namespace Project

/-- The type of a field of a project. -/
@[reducible] def Field.Value : Field → Type
  | id | nextPointerId => UInt64
  | name => String
  | tag | description => Option String
  | created => Timestamp
  | modified => Option Timestamp
  | pointers => Listing Pointer

/-- The key of a field of a project. -/
def Field.key : Field → String
  | id => "id"
  | name => "name"
  | tag => "tag"
  | description => "description"
  | created => "createdDate"
  | modified => "lastModifiedDate"
  | nextPointerId => "nextPipelinePointerId"
  | pointers => "pipelines"

/-- Reads a field of a project. -/
def Field.read : (f : Field) → Reading → Except DecodeError f.Value
  | id, v | nextPointerId, v => v.natural
  | name, v => v.text .string
  | tag, v | description, v => v.optional (·.text .string)
  | created, v => v.date
  | modified, v => v.optional (·.date)
  | pointers, v => v.listing Pointer.ofReading

/-- What an absent field of a project stands for. -/
def Field.absent : (f : Field) → Option f.Value
  | tag | description | modified => some none
  | nextPointerId => some 0
  | pointers => some .empty
  | id | name | created => none

/-- A project as a record. -/
def record : Record Field where
  name := "Project"
  fields := [.id, .name, .tag, .description, .created, .modified, .nextPointerId, .pointers]
  key := Field.key
  Value := Field.Value
  read := Field.read
  absent := Field.absent

/-- Reads a project. -/
def ofReading (v : Reading) : Except DecodeError Project := do
  let s ← record.readSlots v
  return {
    id := ← s.get .id
    name := ← s.get .name
    tag := ← s.get .tag
    description := ← s.get .description
    created := ← s.get .created
    modified := ← s.get .modified
    nextPointerId := ← s.get .nextPointerId
    pointers := ← s.get .pointers }

end Project

/-! ### Groups -/

/-- The fields of a group. -/
inductive Group.Field where
  | id
  | name
  | tag
  | description
  | created
  | modified
  | projects
deriving DecidableEq, Repr

namespace Group

/-- The type of a field of a group. -/
@[reducible] def Field.Value : Field → Type
  | id => UInt64
  | name => String
  | tag | description => Option String
  | created => Timestamp
  | modified => Option Timestamp
  | projects => Listing Project

/-- The key of a field of a group. -/
def Field.key : Field → String
  | id => "id"
  | name => "name"
  | tag => "tag"
  | description => "description"
  | created => "createdDate"
  | modified => "lastModifiedDate"
  | projects => "projects"

/-- Reads a field of a group. -/
def Field.read : (f : Field) → Reading → Except DecodeError f.Value
  | id, v => v.natural
  | name, v => v.text .string
  | tag, v | description, v => v.optional (·.text .string)
  | created, v => v.date
  | modified, v => v.optional (·.date)
  | projects, v => v.listing Project.ofReading

/-- What an absent field of a group stands for. -/
def Field.absent : (f : Field) → Option f.Value
  | tag | description | modified => some none
  | projects => some .empty
  | id | name | created => none

/-- A group as a record. -/
def record : Record Field where
  name := "ProjectGroup"
  fields := [.id, .name, .tag, .description, .created, .modified, .projects]
  key := Field.key
  Value := Field.Value
  read := Field.read
  absent := Field.absent

/-- Reads a group. -/
def ofReading (v : Reading) : Except DecodeError Group := do
  let s ← record.readSlots v
  return {
    id := ← s.get .id
    name := ← s.get .name
    tag := ← s.get .tag
    description := ← s.get .description
    created := ← s.get .created
    modified := ← s.get .modified
    projects := ← s.get .projects }

end Group

/-! ### Documents -/

namespace Document

/-- The record that is the whole document; its one field holds the groups. -/
def record : Record Unit where
  name := "RegistryDocument"
  fields := [()]
  key := fun _ => "projectGroups"
  Value := fun _ => Listing Group
  read := fun _ v => v.listing Group.ofReading
  absent := fun _ => none

/-- Reads the groups of a document. -/
def groupsOfReading (v : Reading) : Except DecodeError (Listing Group) := do
  let s ← record.readSlots v
  s.get ()

/-- Interprets a text that holds one value and nothing behind it.  What is wrong with the value is
reported before what follows it. -/
def decode {ε α : Type} (malformed : Malformation → ε) (interpret : Reading → Except ε α)
    (s : String) : Except ε α := do
  let (v, more) := Json.read s.toList
  let x ← interpret v
  if more then throw (malformed .trailingCharacters) else return x

end Document
end PipelineRegistry
