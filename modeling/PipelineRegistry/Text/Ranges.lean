/-! # Classes of characters

A class of characters is given by ranges of character numbers, both ends included. -/

namespace PipelineRegistry.Text

/-- Whether a character lies in one of the ranges. -/
def inRanges (ranges : List (Nat × Nat)) (c : Char) : Bool :=
  ranges.any fun r => r.1 ≤ c.toNat && c.toNat ≤ r.2

end PipelineRegistry.Text
