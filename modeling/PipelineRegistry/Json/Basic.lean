import PipelineRegistry.Json.Number

/-! # JSON values

Values as a program builds them to be written.  The members of an object have an order, and a key
may occur more than once. -/

namespace PipelineRegistry

/-- A JSON value. -/
inductive Json where
  | null
  | bool (b : Bool)
  | number (n : Json.Number)
  | string (s : String)
  | array (items : List Json)
  | object (members : List (String × Json))
deriving Repr

namespace Json

/-- A natural number as a value. -/
def natural (n : UInt64) : Json := .number (.natural n)

end Json
end PipelineRegistry
