import PipelineRegistry.Document.DecodeError
import PipelineRegistry.Entity

/-! # What can go wrong

Three layers of causes: a `Violation` is a rule that a well-formed document breaks, a `Corruption` is
any reason why a stored text is not a registry, and a `RegistryError` is any reason why an
operation fails.  Each cause has one wording. -/

namespace PipelineRegistry

/-- The kinds of entities. -/
inductive EntityKind where
  | group
  | project
  | pointer
deriving DecidableEq, Repr

/-- The name of a kind. -/
def EntityKind.name : EntityKind → String
  | group => "project group"
  | project => "project"
  | pointer => "pipeline pointer"

/-- A rule that a document breaks. -/
inductive Violation where
  /-- There is no group 0. -/
  | missingSecuredGroup
  /-- Group 0 has no project 0. -/
  | missingSecuredProject
  /-- Group 0 or its project 0 has another name than the reserved one. -/
  | securedNameChanged (kind : EntityKind) (name : String)
  /-- Project 0 is not the first of group 0. -/
  | securedProjectNotFirst
  /-- A pointer has the greatest identifier, so that none is left. -/
  | pointerIdsExhausted (project : ProjectId)
  /-- Two groups have the same name. -/
  | duplicateGroupName (name : String)
  /-- Two groups hold projects with the same identifier. -/
  | duplicateProjectId (project : ProjectId)
  /-- Two pointers refer to the same pipeline. -/
  | duplicatePipelineId (pipeline : PipelineId)
  /-- A pointer names another project than the one that holds it. -/
  | danglingPointer (pointer : PointerId) (claimed actual : ProjectId)
deriving DecidableEq, Repr

/-- The wording of a broken rule. -/
def Violation.message : Violation → String
  | missingSecuredGroup => "secured project group 0 is missing"
  | missingSecuredProject => "secured project 0 is missing from project group 0"
  | securedNameChanged kind name => s!"secured {kind.name} 0 is named '{name}' instead of 'other'"
  | securedProjectNotFirst => "secured project 0 is not the first project of project group 0"
  | pointerIdsExhausted project => s!"pipeline pointer ids of project {project} are exhausted"
  | duplicateGroupName name => s!"duplicate project group name '{name}'"
  | duplicateProjectId project => s!"project {project} appears in more than one group"
  | duplicatePipelineId pipeline => s!"pipeline {pipeline} is referenced more than once"
  | danglingPointer pointer claimed actual =>
    s!"pipeline pointer {pointer} claims project {claimed} but lives in project {actual}"

/-- Why a stored text is not a registry. -/
inductive Corruption where
  | unreadable (e : DecodeError)
  | inconsistent (v : Violation)
deriving DecidableEq, Repr

namespace Corruption

/-- The wording of a cause. -/
def message : Corruption → String
  | unreadable e => e.message
  | inconsistent v => v.message

/-- The sort of a cause: a broken rule is a matter of shape. -/
def category : Corruption → DecodeError.Category
  | unreadable e => e.category
  | inconsistent _ => .shape

end Corruption

/-- Why the file system refuses something. -/
inductive IoCause where
  | notFound
  | busy
  | notDirectory
  | isDirectory
  | nameTooLong
  | notUtf8
  | nulInPath
  /-- Any other cause, in the words of the system. -/
  | other (message : String)
deriving DecidableEq, Repr

/-- The wording of a cause. -/
def IoCause.message : IoCause → String
  | notFound => "No such file or directory (os error 2)"
  | busy => "Device or resource busy (os error 16)"
  | notDirectory => "Not a directory (os error 20)"
  | isDirectory => "Is a directory (os error 21)"
  | nameTooLong => "File name too long (os error 36)"
  | notUtf8 => "stream did not contain valid UTF-8"
  | nulInPath => "file name contained an unexpected NUL byte"
  | other message => message

/-- Why an operation on a registry fails. -/
inductive RegistryError where
  /-- There is no entity of this kind with this identifier. -/
  | notFound (kind : EntityKind) (id : UInt64)
  /-- A name is taken. -/
  | nameConflict (kind : EntityKind) (name : String)
  /-- A pipeline is registered already. -/
  | duplicateId (pipeline : PipelineId)
  /-- Group 0 and project 0 can be neither removed nor renamed. -/
  | securedEntity (kind : EntityKind) (id : UInt64)
  /-- No identifier is left for a new entity. -/
  | idsExhausted (kind : EntityKind)
  /-- The document exists but is not a registry. -/
  | storageCorruption (path : Path) (source : Corruption)
  /-- The file system refused something at a path. -/
  | io (path : Path) (cause : IoCause)
  /-- A pointer has a path that is not UTF-8, so the registry has no written form. -/
  | unwritable
  /-- There is no home directory. -/
  | homeNotFound
deriving DecidableEq, Repr

namespace RegistryError

/-- The wording of a missing written form. -/
def unwritableCause : String := "path contains invalid UTF-8 characters"

/-- The wording of a failure. -/
def message : RegistryError → String
  | notFound kind id => s!"{kind.name} {id} not found"
  | nameConflict kind name => s!"{kind.name} named '{name}' already exists"
  | duplicateId pipeline => s!"pipeline {pipeline} is already registered"
  | securedEntity kind id => s!"{kind.name} {id} is secured and cannot be removed or renamed"
  | idsExhausted kind => s!"no {kind.name} id left to assign"
  | storageCorruption path source =>
    s!"projects structure at {path.display} is corrupted: {source.message}"
  | io path cause => s!"I/O error at {path.display}: {cause.message}"
  | unwritable => s!"JSON serialization error: {unwritableCause}"
  | homeNotFound => "cannot determine home directory; set $HOME or equivalent"

/-- The wording of what lies behind a failure of storage. -/
def source? : RegistryError → Option String
  | storageCorruption _ source => some source.message
  | io _ cause => some cause.message
  | unwritable => some unwritableCause
  | _ => none

end RegistryError

/-- The rules of the registry that an operation can offend against. -/
inductive Reason where
  | notFound
  | nameConflict
  | duplicateId
  | securedEntity
deriving DecidableEq, Repr

/-- The rule behind a failure; failures of storage and of the environment have none. -/
def RegistryError.reason? : RegistryError → Option Reason
  | notFound _ _ => some .notFound
  | nameConflict _ _ => some .nameConflict
  | duplicateId _ => some .duplicateId
  | securedEntity _ _ => some .securedEntity
  | _ => none

end PipelineRegistry
