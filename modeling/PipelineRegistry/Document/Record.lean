import PipelineRegistry.Decimal.Notation
import PipelineRegistry.Document.DecodeError
import PipelineRegistry.Json.Reader
import PipelineRegistry.Listing
import PipelineRegistry.Path
import PipelineRegistry.Slots

/-! # Records in a document

A record is written as an object, with its fields in any order and unknown members passed over, or
as an array of all its fields in their order.  A `Record` describes the fields of one kind of
record: their keys, the types of their values, how each is read and what an absent one stands for.

Everything is checked in the order of the text: a key that came before is refused when it is met,
before its value is looked at, and absent fields are noticed when the record ends. -/

namespace PipelineRegistry
open Calendar Document

namespace Json.Reading

/-- The objection to a value that is not of the wanted type.  What cannot be read at all is reported
as such. -/
def mismatch (wanted : Wanted) : Reading → DecodeError
  | null => .wrongType .null wanted
  | bool b => .wrongType (.bool b) wanted
  | number (.natural n) => .wrongType (.natural n) wanted
  | number (.negative n) => .wrongType (.negative n) wanted
  | number (.decimal isNegative significand exponent) =>
    match Decimal.scaled? significand exponent with
    | none => .malformed .numberOutOfRange
    | some x =>
      .wrongType (.fractional (String.ofList (Decimal.text (if isNegative then -x else x)))) wanted
  | string (.ok s) => .wrongType (.string s) wanted
  | string (.error m) => .malformed m
  | array _ _ => .wrongType .sequence wanted
  | object _ _ => .wrongType .map wanted
  | cut fault => .malformed fault.read

/-- Reads a natural number. -/
def natural : Reading → Except DecodeError UInt64
  | number (.natural n) => .ok n
  | number (.negative n) => .error (.negative n)
  | v => .error (v.mismatch .natural)

/-- Reads a string where `wanted` is needed. -/
def text (wanted : Wanted) : Reading → Except DecodeError String
  | string (.ok s) => .ok s
  | v => .error (v.mismatch wanted)

/-- Reads a path. -/
def path (v : Reading) : Except DecodeError Path := Path.ofString <$> v.text .path

/-- Reads a timestamp. -/
def date (v : Reading) : Except DecodeError Timestamp := do
  let s ← v.text .date
  match Timestamp.parse s.toList with
  | .ok t => return t
  | .error e => throw (.date e)

/-- Reads a value that may be null. -/
def optional {α : Type} (readSome : Reading → Except DecodeError α) :
    Reading → Except DecodeError (Option α)
  | null => .ok none
  | v => some <$> readSome v

/-- Checks that the items of an array end properly. -/
def checkEnd : Ending → Except DecodeError Unit
  | .closed => .ok ()
  | .cut fault => .error (.malformed fault.read)

/-- Reads an array of entities with different identifiers. -/
def listing {α : Type} [Keyed α UInt64] (readItem : Reading → Except DecodeError α) :
    Reading → Except DecodeError (Listing α)
  | array items ending => do
    let xs ← items.mapM readItem
    checkEnd ending
    match Listing.ofList? xs with
    | .ok l => return l
    | .error id => throw (.duplicateId id)
  | v => .error (v.mismatch .sequence)

/-- Passes over a value that nothing asks for. -/
def skip : Reading → Except DecodeError Unit
  | cut fault | array _ (.cut fault) | object _ (.cut fault) => .error (.malformed fault.skip)
  | _ => .ok ()

end Json.Reading

namespace Document
open Json

/-- A kind of record with the fields `Field`. -/
structure Record (Field : Type) where
  /-- Name of the record in messages. -/
  name : String
  /-- The fields in their order. -/
  fields : List Field
  /-- The key of a field. -/
  key : Field → String
  /-- The type of the values of a field. -/
  Value : Field → Type
  /-- Reads the value of a field. -/
  read : (f : Field) → Reading → Except DecodeError (Value f)
  /-- The value an absent field stands for, unless the field is required. -/
  absent : (f : Field) → Option (Value f)

namespace Record
variable {Field : Type} [DecidableEq Field] (R : Record Field)

/-- The values of the fields that have been read. -/
abbrev Slots : Type := PipelineRegistry.Slots R.Value

/-- The field with a key. -/
def field? (key : String) : Option Field := R.fields.find? (R.key · = key)

/-- Reads one member of an object. -/
def readMember (s : R.Slots) (key : String) (v : Reading) : Except DecodeError R.Slots :=
  match R.field? key with
  | none => do
    v.skip
    return s
  | some f => do
    if (s f).isSome then throw (.duplicateField key)
    let x ← R.read f v
    return s.set f x

/-- Reads the members of an object. -/
def readMembers (s : R.Slots) : List (Key × Reading) → Ending → Except DecodeError R.Slots
  | [], .closed => .ok s
  | [], .cut fault => .error (.malformed fault.read)
  | (.error m, _) :: _, _ => .error (.malformed m)
  | (.ok key, v) :: members, ending => do
    let s ← R.readMember s key v
    readMembers s members ending

/-- What is reported when an array goes on behind the last field. -/
def surplus : Ending → Except DecodeError Unit
  | .closed => .ok ()
  | .cut fault =>
    .error (.malformed (match fault.read with
      | .expectedCommaOrBracket => .trailingCharacters
      | m => m))

/-- Reads `fields`, the last fields of the record, from the items of an array. -/
def readItems (s : R.Slots) : List Field → List Reading → Ending → Except DecodeError R.Slots
  | f :: fields, item :: items, ending => do
    let x ← R.read f item
    readItems (s.set f x) fields items ending
  | [], _ :: _, _ => .error (.malformed .trailingCharacters)
  | [], [], ending => do
    surplus ending
    return s
  | _ :: _, [], .cut fault => .error (.malformed fault.read)
  | f :: fields, [], .closed =>
    match (f :: fields).find? fun g => (R.absent g).isNone with
    | none => .ok s
    | some g => .error (.wrongLength (R.fields.idxOf g) R.name R.fields.length)

/-- Reads the fields of a record. -/
def readSlots : Reading → Except DecodeError R.Slots
  | .object members ending => R.readMembers .empty members ending
  | .array items ending => R.readItems .empty R.fields items ending
  | v => .error (v.mismatch (.record R.name))

variable {R} in
/-- The value of a field once the record has been read. -/
def Slots.get (s : R.Slots) (f : Field) : Except DecodeError (R.Value f) :=
  match s f, R.absent f with
  | some v, _ => .ok v
  | none, some v => .ok v
  | none, none => .error (.missingField (R.key f))

end Record
end Document
end PipelineRegistry
