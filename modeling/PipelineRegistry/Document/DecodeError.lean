import PipelineRegistry.Calendar.Reader
import PipelineRegistry.Json.Fault
import PipelineRegistry.Text.Quoted

/-! # Why a text is not a document

A document can fail to be JSON, or be JSON of another shape than a registry's.  Each cause has one
wording. -/

namespace PipelineRegistry.Document
open Calendar Json

/-- What a text has in a place. -/
inductive Found where
  | null
  | bool (b : Bool)
  | natural (n : UInt64)
  | negative (n : UInt64)
  /-- A number with a fraction, an exponent or too many digits, as it is shown. -/
  | fractional (text : String)
  | string (s : String)
  | sequence
  | map
deriving DecidableEq, Repr

/-- The wording of what was found. -/
def Found.message : Found → String
  | null => "null"
  | bool b => s!"boolean `{b}`"
  | natural n => s!"integer `{n}`"
  | negative n => s!"integer `-{n}`"
  | fractional text => s!"floating point `{text}`"
  | string s => "string " ++ Text.quoted s
  | sequence => "sequence"
  | map => "map"

/-- What a document needs in a place. -/
inductive Wanted where
  | natural
  | string
  | path
  | date
  | sequence
  | record (name : String)
deriving DecidableEq, Repr

/-- The wording of what is needed. -/
def Wanted.message : Wanted → String
  | natural => "u64"
  | string => "a string"
  | path => "path string"
  | date => "an RFC 3339 formatted date and time string"
  | sequence => "a sequence"
  | record name => "struct " ++ name

end PipelineRegistry.Document

namespace PipelineRegistry
open Calendar Json Document
/-- Why a text is not a document or a part of one. -/
inductive DecodeError where
  /-- It is not JSON. -/
  | malformed (m : Malformation)
  /-- A value has the wrong type. -/
  | wrongType (found : Found) (wanted : Wanted)
  /-- A number that may not be negative is the negative of `n`. -/
  | negative (n : UInt64)
  /-- A record has a field twice. -/
  | duplicateField (name : String)
  /-- A record lacks a field. -/
  | missingField (name : String)
  /-- A record written as an array has `length` items where it needs more. -/
  | wrongLength (length : Nat) (record : String) (fields : Nat)
  /-- Two entities of one list have the same identifier. -/
  | duplicateId (id : UInt64)
  /-- A string is not a timestamp. -/
  | date (e : DateError)
deriving DecidableEq, Repr

namespace DecodeError

/-- The wording of a cause. -/
def message : DecodeError → String
  | malformed m => m.message
  | wrongType found wanted => s!"invalid type: {found.message}, expected {wanted.message}"
  | negative n => s!"invalid value: integer `-{n}`, expected u64"
  | duplicateField name => s!"duplicate field `{name}`"
  | missingField name => s!"missing field `{name}`"
  | wrongLength length record fields =>
    let elements := if fields = 1 then "1 element" else s!"{fields} elements"
    s!"invalid length {length}, expected struct {record} with {elements}"
  | duplicateId id => s!"duplicate id {id}"
  | date e => e.message

/-- The three sorts of causes: the text ends too early, it is not JSON, or it is JSON of another
shape. -/
inductive Category where
  | ended
  | malformed
  | shape
deriving DecidableEq, Repr

/-- The sort of a cause. -/
def category : DecodeError → Category
  | malformed m => if m.isEnd then .ended else .malformed
  | _ => .shape

end DecodeError
end PipelineRegistry
