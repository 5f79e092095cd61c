/-! # Decimal digits

Natural numbers in decimal notation: `digits` writes them without leading zeros, `padded` with at
least a given number of places, and `value` reads a row of digits back. -/

namespace PipelineRegistry.Text

/-- Whether a character is one of the ten ASCII digits. -/
def isDigit (c : Char) : Bool := '0' ≤ c && c ≤ '9'

/-- The number a digit stands for. -/
def digitValue (c : Char) : Nat := c.toNat - '0'.toNat

/-- The number that a row of digits stands for, read after `start`. -/
def valueFrom (start : Nat) (ds : List Char) : Nat :=
  ds.foldl (fun n d => n * 10 + digitValue d) start

/-- The number that a row of digits stands for. -/
def value (ds : List Char) : Nat := valueFrom 0 ds

/-- The number in decimal notation. -/
def digits (n : Nat) : List Char := Nat.toDigits 10 n

/-- The number in decimal notation, filled up with zeros in front to `places` places. -/
def padded (places n : Nat) : List Char :=
  List.replicate (places - (digits n).length) '0' ++ digits n

/-- The row of digits at the start of a text, and what follows it. -/
def spanDigits (s : List Char) : List Char × List Char := (s.takeWhile isDigit, s.dropWhile isDigit)

theorem spanDigits_append (s : List Char) : (spanDigits s).1 ++ (spanDigits s).2 = s :=
  List.takeWhile_append_dropWhile

end PipelineRegistry.Text
