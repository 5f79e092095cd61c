import PipelineRegistry.Text.Digits

/-! # The shortest decimal of a double

A finite double is `m · 2 ^ q`.  Every real that is nearer to it than to its neighbours reads back as
this double, and the two ends of that interval do so exactly when `m` is even.  Of the decimals in
the interval those with the fewest digits are shortest, and of these the one nearest to the double
is taken.  If a point of a decimal grid lies in the interval, so does one of the two points of the
grid around the double, so these two are all that has to be tried on each grid.

Everything is computed in natural numbers, with the double and the ends of its interval as
multiples of a quarter of its last place. -/

namespace PipelineRegistry.Decimal
open Text

/-- A positive double `mantissa · 2 ^ exponent`; `isLowest` marks the least mantissa of a power of
two, whose lower neighbour is only half as far away as its upper one. -/
structure Binary where
  mantissa : Nat
  exponent : Int
  isLowest : Bool
deriving DecidableEq, Repr

/-- The double with the given bits, its sign left out. -/
def Binary.ofBits (bits : UInt64) : Binary :=
  let fraction := bits.toNat % Nat.pow 2 52
  let field : Nat := bits.toNat / Nat.pow 2 52 % Nat.pow 2 11
  if field = 0 then ⟨fraction, -1074, false⟩
  else ⟨fraction + Nat.pow 2 52, (field : Int) - 1075, fraction = 0 && 1 < field⟩

/-- Digits and a point: `0.d₁d₂… · 10 ^ point`. -/
structure Scientific where
  digits : List Char
  point : Int
deriving DecidableEq, Repr

/-- `b ^ e` for a power that is not below zero, and 1 for the others. -/
def powUp (b : Nat) (e : Int) : Nat := Nat.pow b e.toNat

namespace Binary

/-- A quarter of the last place, divided by `10 ^ grid`, as numerator and denominator. -/
def unit (b : Binary) (grid : Int) : Nat × Nat :=
  let q := b.exponent - 2
  (powUp 2 q * powUp 10 (-grid), powUp 2 (-q) * powUp 10 grid)

/-- Whether `n · 10 ^ grid` reads back as the double. -/
def readsBack (b : Binary) (grid : Int) (n : Nat) : Bool :=
  let (num, den) := b.unit grid
  let low := (4 * b.mantissa - (if b.isLowest then 1 else 2)) * num
  let high := (4 * b.mantissa + 2) * num
  if b.mantissa % 2 = 0 then low ≤ n * den && n * den ≤ high else low < n * den && n * den < high

/-- The point of the grid that reads back and is nearest to the double, if there is one. -/
def onGrid? (b : Binary) (grid : Int) : Option Nat :=
  let (num, den) := b.unit grid
  let exact := 4 * b.mantissa * num
  let below := exact / den
  let above := below + 1
  match b.readsBack grid below, b.readsBack grid above with
  | true, true =>
    if exact - below * den < above * den - exact then some below
    else if above * den - exact < exact - below * den then some above
    else some (if below % 2 = 0 then below else above)
  | true, false => some below
  | false, true => some above
  | false, false => none

/-- Whether the double is below `10 ^ e`. -/
def isBelow (b : Binary) (e : Int) : Bool :=
  let (num, den) := b.unit e
  4 * b.mantissa * num < den

/-- The least power of ten that is above the double. -/
def magnitude (b : Binary) : Int :=
  let guess := (b.exponent + (Nat.log2 b.mantissa : Int)) * 30103 / 100000
  if b.isBelow guess then guess
  else if b.isBelow (guess + 1) then guess + 1
  else guess + 2

/-- The digits of `n · 10 ^ grid` without zeros at the end. -/
def scientific (n : Nat) (grid : Int) : Scientific :=
  let ds := digits n
  ⟨(ds.reverse.dropWhile (· = '0')).reverse, grid + ds.length⟩

/-- The shortest decimal of a double that is not zero. -/
def shortest (b : Binary) : Scientific :=
  let top := b.magnitude
  let grids := (List.range 17).map fun (i : Nat) => top - 1 - (i : Int)
  match grids.findSome? fun grid => (b.onGrid? grid).map fun n => scientific n grid with
  | some s => s
  | none => scientific (b.onGrid? (top - 17) |>.getD 0) (top - 17)

end Binary
end PipelineRegistry.Decimal
