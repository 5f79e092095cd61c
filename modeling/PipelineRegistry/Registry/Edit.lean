import PipelineRegistry.Entity

/-! # Edits

An edit gives an entity another name, tag or description.  Editing a group or project also records
the time; a pointer has no such record. -/

namespace PipelineRegistry
open Calendar

/-- A change of one field of an entity. -/
inductive Edit where
  | rename (name : String)
  | tag (value : String)
  | describe (value : String)
deriving DecidableEq, Repr

/-- The group after an edit. -/
def Group.edited (g : Group) (now : Timestamp) : Edit → Group
  | .rename name => { g with name, modified := some now }
  | .tag value => { g with tag := some value, modified := some now }
  | .describe value => { g with description := some value, modified := some now }

/-- The project after an edit. -/
def Project.edited (p : Project) (now : Timestamp) : Edit → Project
  | .rename name => { p with name, modified := some now }
  | .tag value => { p with tag := some value, modified := some now }
  | .describe value => { p with description := some value, modified := some now }

/-- The pointer after an edit. -/
def Pointer.edited (q : Pointer) : Edit → Pointer
  | .rename name => { q with name }
  | .tag value => { q with tag := some value }
  | .describe value => { q with description := some value }

end PipelineRegistry
