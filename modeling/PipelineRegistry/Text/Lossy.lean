/-! # Bytes as text

Bytes that need not be UTF-8 are shown as the text that they are, as far as they are text.  A character
that is begun and not brought to its end is shown as one U+FFFD, and so is a byte that begins no
character.  A character ends where it cannot go on, and reading goes on there. -/

namespace PipelineRegistry.Text

/-- What stands for bytes that are no character. -/
def replacementChar : Char := Char.ofNat 0xfffd

/-- A character that has been begun: the bits read so far, how many bytes are missing, and the bounds of
the next byte. -/
structure Begun where
  bits : Nat
  missing : Nat
  low : Nat
  high : Nat
deriving DecidableEq, Repr

/-- What a byte shows and begins where no character has been begun.  The bounds of the second byte shut
out characters that have a shorter form, surrogates, and what lies behind the last character. -/
def meetFirst (n : Nat) : List Char × Option Begun :=
  if n < 0x80 then ([Char.ofNat n], none)
  else if 0xc2 ≤ n ∧ n ≤ 0xdf then ([], some ⟨n - 0xc0, 1, 0x80, 0xbf⟩)
  else if 0xe0 ≤ n ∧ n ≤ 0xef then
    ([], some ⟨n - 0xe0, 2, if n = 0xe0 then 0xa0 else 0x80, if n = 0xed then 0x9f else 0xbf⟩)
  else if 0xf0 ≤ n ∧ n ≤ 0xf4 then
    ([], some ⟨n - 0xf0, 3, if n = 0xf0 then 0x90 else 0x80, if n = 0xf4 then 0x8f else 0xbf⟩)
  else ([replacementChar], none)

/-- What a byte shows and leaves begun. -/
def meetByte : Option Begun → Nat → List Char × Option Begun
  | none, n => meetFirst n
  | some c, n =>
    if c.low ≤ n ∧ n ≤ c.high then
      let bits := c.bits * 64 + (n - 0x80)
      if c.missing = 1 then ([Char.ofNat bits], none)
      else ([], some ⟨bits, c.missing - 1, 0x80, 0xbf⟩)
    else (replacementChar :: (meetFirst n).1, (meetFirst n).2)

/-- The text that bytes show where a character may have been begun. -/
def lossyFrom : Option Begun → List UInt8 → List Char
  | none, [] => []
  | some _, [] => [replacementChar]
  | begun, b :: bs => (meetByte begun b.toNat).1 ++ lossyFrom (meetByte begun b.toNat).2 bs

/-- The text that bytes show. -/
def lossy (bs : List UInt8) : String := String.ofList (lossyFrom none bs)

end PipelineRegistry.Text
