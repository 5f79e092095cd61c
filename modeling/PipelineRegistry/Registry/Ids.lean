/-! # The next identifier

A new entity gets the number of entities as its identifier.  Where removals have left that number in
use, it gets one more than the greatest identifier in use, as long as there is one more. -/

namespace PipelineRegistry

/-- The greatest of some identifiers. -/
def greatestId? (ids : List UInt64) : Option UInt64 := ids.max?

/-- One more than an identifier, unless it is the greatest one there is. -/
def succId? (id : UInt64) : Option UInt64 := if id + 1 = 0 then none else some (id + 1)

/-- The identifier for a new entity where `count` is proposed and `taken` are in use. -/
def nextFreeId? (taken : List UInt64) (count : UInt64) : Option UInt64 :=
  if count ∈ taken then
    match greatestId? taken with
    | none => some 0
    | some greatest => succId? greatest
  else some count

end PipelineRegistry
