/-! # Faults of a JSON text

Where a text stops being JSON, what is reported depends on whether the value at that place is
needed or is passed over because nothing asks for it.  A `Fault` carries both reports. -/

namespace PipelineRegistry.Json

/-- A way in which a text is not JSON. -/
inductive Malformation where
  | endInValue
  | endInList
  | endInObject
  | endInString
  | expectedValue
  | expectedWord
  | expectedColon
  | expectedCommaOrBracket
  | expectedCommaOrBrace
  | keyNotString
  | trailingComma
  | trailingCharacters
  | invalidNumber
  | numberOutOfRange
  | invalidEscape
  | loneSurrogate
  | unfinishedSurrogate
  | controlCharacter
deriving DecidableEq, Repr

namespace Malformation

/-- The wording of a report. -/
def message : Malformation → String
  | endInValue => "EOF while parsing a value"
  | endInList => "EOF while parsing a list"
  | endInObject => "EOF while parsing an object"
  | endInString => "EOF while parsing a string"
  | expectedValue => "expected value"
  | expectedWord => "expected ident"
  | expectedColon => "expected `:`"
  | expectedCommaOrBracket => "expected `,` or `]`"
  | expectedCommaOrBrace => "expected `,` or `\x7d`"
  | keyNotString => "key must be a string"
  | trailingComma => "trailing comma"
  | trailingCharacters => "trailing characters"
  | invalidNumber => "invalid number"
  | numberOutOfRange => "number out of range"
  | invalidEscape => "invalid escape"
  | loneSurrogate => "lone leading surrogate in hex escape"
  | unfinishedSurrogate => "unexpected end of hex escape"
  | controlCharacter => "control character (\\u0000-\\u001F) found while parsing a string"

/-- Whether the text ended before the value did. -/
def isEnd : Malformation → Bool
  | endInValue | endInList | endInObject | endInString => true
  | _ => false

end Malformation

/-- What is reported where a text cannot be read on: `read` when the value there is needed, `skip`
when it is passed over. -/
structure Fault where
  read : Malformation
  skip : Malformation
deriving DecidableEq, Repr

/-- A fault that is reported in the same way whether the value is needed or not. -/
def Fault.same (m : Malformation) : Fault := ⟨m, m⟩

end PipelineRegistry.Json
