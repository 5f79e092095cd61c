import PipelineRegistry.Json.Fault
import PipelineRegistry.Text.Digits

/-! # Numbers of a JSON text

A numeral is a minus sign or none, a whole part without needless zeros, an optional fraction and an
optional exponent.  It stands for a natural number below 2^64, for a negative integer from -2^63 on,
or for a decimal: a significand below 2^64 and a power of ten.

Digits that no longer fit the significand are dropped: behind the last whole digit that fits each
further whole digit raises the exponent, and the rest of the fraction is passed over. -/

namespace PipelineRegistry.Json
open Text

/-- A number as far as the registry tells numbers apart. -/
inductive Number where
  | natural (n : UInt64)
  /-- The integer below zero with magnitude `n`. -/
  | negative (n : UInt64)
  | decimal (isNegative : Bool) (significand : UInt64) (exponent : Int)
deriving DecidableEq, Repr

/-- The parts of a written number. -/
structure Numeral where
  isNegative : Bool
  whole : List Char
  fraction : Option (List Char)
  exponent : Option (Bool × List Char)
deriving DecidableEq, Repr

namespace Numeral

/-- What is reported where a digit is missing and `rest` follows. -/
def missingDigit (rest : List Char) : Malformation :=
  if rest = [] then .endInValue else .invalidNumber

/-- Scans at least one digit. -/
def scanDigits (s : List Char) : Except Malformation (List Char × List Char) :=
  match spanDigits s with
  | ([], rest) => .error (missingDigit rest)
  | (ds, rest) => .ok (ds, rest)

/-- Scans a whole part, which is a single zero or begins with another digit. -/
def scanWhole (s : List Char) : Except Malformation (List Char × List Char) := do
  let (ds, rest) ← scanDigits s
  if ds.head? = some '0' ∧ ds.length ≠ 1 then throw .invalidNumber else return (ds, rest)

/-- Scans an optional fraction. -/
def scanFraction (s : List Char) : Except Malformation (Option (List Char) × List Char) :=
  match s with
  | '.' :: rest => do
    let (ds, rest) ← scanDigits rest
    return (some ds, rest)
  | _ => .ok (none, s)

/-- Scans the digits of an exponent behind its sign. -/
def scanExponentDigits (isNegative : Bool) (s : List Char) :
    Except Malformation (Option (Bool × List Char) × List Char) := do
  let (ds, rest) ← scanDigits s
  return (some (isNegative, ds), rest)

/-- Scans an optional exponent; `true` marks a negative one. -/
def scanExponent (s : List Char) :
    Except Malformation (Option (Bool × List Char) × List Char) :=
  match s with
  | c :: rest =>
    if c = 'e' ∨ c = 'E' then
      match rest with
      | '-' :: more => scanExponentDigits true more
      | '+' :: more => scanExponentDigits false more
      | _ => scanExponentDigits false rest
    else .ok (none, s)
  | [] => .ok (none, s)

/-- Scans what follows the sign of a numeral. -/
def scanUnsigned (isNegative : Bool) (s : List Char) : Except Malformation (Numeral × List Char) := do
  let (whole, s) ← scanWhole s
  let (fraction, s) ← scanFraction s
  let (exponent, s) ← scanExponent s
  return (⟨isNegative, whole, fraction, exponent⟩, s)

/-- Scans a numeral. -/
def scan (s : List Char) : Except Malformation (Numeral × List Char) :=
  match s with
  | '-' :: rest => scanUnsigned true rest
  | _ => scanUnsigned false s

theorem length_scanDigits_lt {s ds rest : List Char} (h : scanDigits s = .ok (ds, rest)) :
    rest.length < s.length := by
  have happ := congrArg List.length (spanDigits_append s)
  unfold scanDigits at h
  rcases hs : spanDigits s with ⟨d, r⟩
  rw [hs] at h happ
  cases d <;> simp_all
  omega

theorem length_scanWhole_lt {s ds rest : List Char} (h : scanWhole s = .ok (ds, rest)) :
    rest.length < s.length := by
  unfold scanWhole at h
  rcases hd : scanDigits s with m | ⟨d, r⟩ <;> rw [hd] at h
  · simp [bind, Except.bind] at h
  · have := length_scanDigits_lt hd
    simp only [bind, Except.bind] at h
    split at h
    · simp [throw, throwThe, MonadExceptOf.throw] at h
    · obtain ⟨rfl, rfl⟩ : d = ds ∧ r = rest := by simpa [pure, Except.pure] using h
      exact this

theorem length_scanFraction_le {s rest : List Char} {f : Option (List Char)}
    (h : scanFraction s = .ok (f, rest)) : rest.length ≤ s.length := by
  unfold scanFraction at h
  split at h
  · rename_i more
    rcases hd : scanDigits more with m | ⟨d, r⟩ <;> rw [hd] at h
    · simp [bind, Except.bind] at h
    · have := length_scanDigits_lt hd
      obtain ⟨-, rfl⟩ : some d = f ∧ r = rest := by simpa [bind, Except.bind, pure, Except.pure] using h
      simp
      omega
  · obtain ⟨-, rfl⟩ : none = f ∧ s = rest := by simpa using h
    exact Nat.le_refl _

theorem length_scanExponentDigits_lt {b : Bool} {s rest : List Char} {e : Option (Bool × List Char)}
    (h : scanExponentDigits b s = .ok (e, rest)) : rest.length < s.length := by
  unfold scanExponentDigits at h
  rcases hd : scanDigits s with m | ⟨d, r⟩ <;> rw [hd] at h
  · simp [bind, Except.bind] at h
  · have := length_scanDigits_lt hd
    obtain ⟨-, rfl⟩ : some (b, d) = e ∧ r = rest := by
      simpa [bind, Except.bind, pure, Except.pure] using h
    exact this

theorem length_scanExponent_le {s rest : List Char} {e : Option (Bool × List Char)}
    (h : scanExponent s = .ok (e, rest)) : rest.length ≤ s.length := by
  unfold scanExponent at h
  split at h
  · split at h
    · split at h <;> have := length_scanExponentDigits_lt h <;> simp at this ⊢ <;> omega
    · obtain ⟨-, rfl⟩ := by simpa using h
      exact Nat.le_refl _
  · obtain ⟨-, rfl⟩ := by simpa using h
    exact Nat.le_refl _

theorem length_scanUnsigned_lt {b : Bool} {s rest : List Char} {n : Numeral}
    (h : scanUnsigned b s = .ok (n, rest)) : rest.length < s.length := by
  unfold scanUnsigned at h
  rcases hw : scanWhole s with m | ⟨w, s₁⟩ <;> rw [hw] at h
  · simp [bind, Except.bind] at h
  simp only [bind, Except.bind] at h
  rcases hf : scanFraction s₁ with m | ⟨f, s₂⟩ <;> rw [hf] at h
  · simp at h
  simp only at h
  rcases he : scanExponent s₂ with m | ⟨e, s₃⟩ <;> rw [he] at h
  · simp at h
  obtain ⟨-, rfl⟩ : ⟨b, w, f, e⟩ = n ∧ s₃ = rest := by simpa [pure, Except.pure] using h
  have := length_scanWhole_lt hw
  have := length_scanFraction_le hf
  have := length_scanExponent_le he
  omega

theorem length_scan_lt {s rest : List Char} {n : Numeral} (h : scan s = .ok (n, rest)) :
    rest.length < s.length := by
  unfold scan at h
  split at h
  · have := length_scanUnsigned_lt h
    simp
    omega
  · exact length_scanUnsigned_lt h

/-- Appends digits to a significand while the result stays below 2^64; the digits that are left
over come back. -/
def absorb (significand : Nat) : List Char → Nat × List Char
  | [] => (significand, [])
  | d :: ds =>
    if significand * 10 + digitValue d < UInt64.size then absorb (significand * 10 + digitValue d) ds
    else (significand, d :: ds)

/-- The power of ten that is written out. -/
def writtenExponent (n : Numeral) : Int :=
  match n.exponent with
  | none => 0
  | some (true, ds) => -(value ds : Int)
  | some (false, ds) => value ds

/-- The number as significand and power of ten. -/
def toDecimal (n : Numeral) : Number :=
  let (whole, dropped) := absorb 0 n.whole
  let fraction := n.fraction.getD []
  let (significand, rest) := absorb whole fraction
  let places := fraction.length - rest.length
  .decimal n.isNegative significand.toUInt64 (dropped.length - places + n.writtenExponent)

/-- The number a numeral stands for. -/
def toNumber (n : Numeral) : Number :=
  let magnitude := value n.whole
  if n.fraction.isSome ∨ n.exponent.isSome ∨ UInt64.size ≤ magnitude then n.toDecimal
  else if n.isNegative then
    if 0 < magnitude ∧ magnitude ≤ UInt64.size / 2 then .negative magnitude.toUInt64 else n.toDecimal
  else .natural magnitude.toUInt64

end Numeral

namespace Number

/-- The written form: an integer in its digits, a decimal as significand and exponent. -/
def text : Number → List Char
  | natural n => digits n.toNat
  | negative n => '-' :: digits n.toNat
  | decimal isNegative significand exponent =>
    (if isNegative then ['-'] else []) ++ digits significand.toNat ++
      'e' :: (if exponent < 0 then ['-'] else []) ++ digits exponent.natAbs

end Number
end PipelineRegistry.Json
