import PipelineRegistry.Decimal.Shortest

/-! # How a double is shown

The shortest digits are written with a decimal point where at most sixteen digits stand in front of
it or at most four zeros behind it, and with an exponent otherwise.  A number written with a point
has at least one digit on either side of it. -/

namespace PipelineRegistry.Decimal
open Text

/-- Most digits in front of a decimal point. -/
def mostWholeDigits : Int := 16

/-- Most zeros between a decimal point and the first digit. -/
def mostLeadingZeros : Int := 4

/-- The written form of a number that is not zero, without its sign. -/
def Scientific.text (s : Scientific) : List Char :=
  let count : Int := s.digits.length
  if 0 < s.point ∧ s.point ≤ mostWholeDigits then
    if count ≤ s.point then s.digits ++ List.replicate (s.point - count).toNat '0' ++ ['.', '0']
    else s.digits.take s.point.toNat ++ '.' :: s.digits.drop s.point.toNat
  else if s.point ≤ 0 ∧ -mostLeadingZeros ≤ s.point then
    '0' :: '.' :: List.replicate (-s.point).toNat '0' ++ s.digits
  else
    let exponent := s.point - 1
    let fraction := s.digits.drop 1
    s.digits.take 1 ++ (if fraction = [] then [] else '.' :: fraction) ++
      'e' :: (if exponent < 0 then '-' else '+') :: Text.digits exponent.natAbs

/-- The written form of a double. -/
def text (x : Float) : List Char :=
  let magnitude := if x == 0.0 then ['0', '.', '0'] else (Binary.ofBits x.toBits).shortest.text
  if x.toBits ≥ 0x8000000000000000 then '-' :: magnitude else magnitude

/-- The power of ten with the exponent `e`, as a double. -/
def powerOfTen (e : Nat) : Float := Float.ofScientific 1 false e

/-- Divides by `10 ^ e`; a power beyond the range of doubles is taken in steps of 308. -/
def divideByPower (x : Float) (e : Nat) : Float :=
  if _h : e ≤ 308 then x / powerOfTen e
  else if x == 0.0 then x
  else divideByPower (x / powerOfTen 308) (e - 308)
termination_by e

/-- The double for `significand · 10 ^ exponent`: the significand is rounded first, then the
product or quotient.  There is none beyond the range of doubles. -/
def scaled? (significand : UInt64) (exponent : Int) : Option Float :=
  let x := significand.toFloat
  if exponent < 0 then some (divideByPower x exponent.natAbs)
  else if exponent ≤ 308 then
    let y := x * powerOfTen exponent.toNat
    if y.isInf then none else some y
  else if significand = 0 then some x
  else none

end PipelineRegistry.Decimal
