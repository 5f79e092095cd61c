import Mathlib
import PipelineRegistry.Json.Number
import PipelineRegistry.Proofs.Chain
import PipelineRegistry.Proofs.Text.Digits

/-! # Numbers are read back as they were written

A numeral can be written in several ways, with an exponent behind `e` or `E` and with or without a plus
sign.  In each of them it is scanned as a whole where nothing follows that could belong to it.  A
number is written as such a numeral.  Naturals, decimals and the negative numbers from -2^63 on come
back as they are; the other negative numbers come back as decimals. -/

namespace PipelineRegistry.Json

open Chain Text

/-- Nothing that could belong to a number comes first in the text. -/
def NoNumeral (s : List Char) : Prop :=
  ∀ c ∈ s.head?, isDigit c = false ∧ c ≠ '.' ∧ c ≠ 'e' ∧ c ≠ 'E'

namespace NoNumeral

variable {s : List Char} {c : Char}

theorem nil : NoNumeral [] := fun _ h => by cases h

theorem cons (h : isDigit c = false ∧ c ≠ '.' ∧ c ≠ 'e' ∧ c ≠ 'E') : NoNumeral (c :: s) := by
  rintro d ⟨⟩
  exact h

theorem noDigit (hs : NoNumeral s) : NoDigit s := fun c hc => (hs c hc).1

end NoNumeral

namespace Numeral

variable {s x y ds : List Char} {n : Numeral} {exponent : Option (Bool × List Char)}

/-! ### Written numerals -/

/-- A row of digits, at least one. -/
def IsRow (ds : List Char) : Prop := ds ≠ [] ∧ ∀ c ∈ ds, isDigit c

theorem isRow_digits (n : Nat) : IsRow (digits n) := ⟨digits_ne_nil, fun _ => isDigit_of_mem_digits⟩

theorem IsRow.exists_cons (h : IsRow ds) : ∃ c rest, ds = c :: rest ∧ isDigit c := by
  obtain ⟨c, rest, rfl⟩ := List.exists_cons_of_ne_nil h.1
  exact ⟨c, rest, rfl, h.2 c List.mem_cons_self⟩

/-- The parts of a numeral are rows of digits, and its whole part has no needless zeros. -/
structure WellFormed (n : Numeral) : Prop where
  whole : IsRow n.whole
  zero : n.whole.head? = some '0' → n.whole.length = 1
  fraction : ∀ ds ∈ n.fraction, IsRow ds
  exponent : ∀ e ∈ n.exponent, IsRow e.2

/-- How the sign of a numeral is written. -/
def signText (n : Numeral) : List Char := if n.isNegative then ['-'] else []

/-- How the fraction of a numeral is written. -/
def fractionText (n : Numeral) : List Char := n.fraction.elim [] ('.' :: ·)

/-- How an exponent can be written. -/
inductive SpellsExponent : Option (Bool × List Char) → List Char → Prop
  | none : SpellsExponent none []
  | minus {e : Char} (he : e = 'e' ∨ e = 'E') (ds : List Char) :
      SpellsExponent (some (true, ds)) (e :: '-' :: ds)
  | plus {e : Char} (he : e = 'e' ∨ e = 'E') (ds : List Char) :
      SpellsExponent (some (false, ds)) (e :: '+' :: ds)
  | bare {e : Char} (he : e = 'e' ∨ e = 'E') (ds : List Char) :
      SpellsExponent (some (false, ds)) (e :: ds)

/-- How a numeral can be written. -/
inductive Spells (n : Numeral) : List Char → Prop
  | intro {y : List Char} (h : SpellsExponent n.exponent y) :
      Spells n (n.signText ++ (n.whole ++ (n.fractionText ++ y)))

/-- A written numeral begins with a digit or a sign. -/
theorem Spells.exists_cons (hn : n.WellFormed) (hx : n.Spells x) :
    ∃ c rest, x = c :: rest ∧ (c = '-' ∨ isDigit c) := by
  obtain ⟨h⟩ := hx
  obtain ⟨c, rest, hwhole, hc⟩ := hn.whole.exists_cons
  rw [signText, hwhole]
  cases n.isNegative with
  | true => exact ⟨'-', _, rfl, .inl rfl⟩
  | false => exact ⟨c, _, rfl, .inr hc⟩

/-! ### Scanning -/

theorem scanDigits_row (hds : IsRow ds) (hs : NoDigit s) : scanDigits (ds ++ s) = .ok (ds, s) := by
  rw [scanDigits, spanDigits_digits hds.2 hs]
  cases ds with
  | nil => exact absurd rfl hds.1
  | cons d ds => rfl

theorem scanWhole_row (hds : IsRow ds) (hzero : ds.head? = some '0' → ds.length = 1)
    (hs : NoDigit s) : scanWhole (ds ++ s) = .ok (ds, s) := by
  rw [scanWhole, scanDigits_row hds hs, ok_bind]
  exact if_neg fun h => h.2 (hzero h.1)

theorem scanFraction_fractionText (hn : n.WellFormed) (hs : NoDigit s) (hdot : s.head? ≠ some '.') :
    scanFraction (n.fractionText ++ s) = .ok (n.fraction, s) := by
  rw [fractionText]
  cases hfraction : n.fraction with
  | none =>
      rw [Option.elim_none, List.nil_append]
      unfold scanFraction
      split
      · exact absurd rfl hdot
      · rfl
  | some ds =>
      rw [Option.elim_some, List.cons_append, scanFraction, scanDigits_row (hn.fraction ds hfraction) hs]
      rfl

theorem scanExponentDigits_row (isNegative : Bool) (hds : IsRow ds) (hs : NoDigit s) :
    scanExponentDigits isNegative (ds ++ s) = .ok (some (isNegative, ds), s) := by
  rw [scanExponentDigits, scanDigits_row hds hs]
  rfl

/-- A digit is no sign. -/
theorem IsRow.append_ne (hds : IsRow ds) {c : Char} (hc : isDigit c = false) (rest : List Char) :
    ds ++ s ≠ c :: rest := by
  obtain ⟨d, more, rfl, hd⟩ := hds.exists_cons
  intro heq
  rw [(List.cons.inj heq).1, hc] at hd
  exact absurd hd (by decide)

theorem SpellsExponent.scanExponent (h : SpellsExponent exponent y)
    (hrow : ∀ e ∈ exponent, IsRow e.2) (hs : NoNumeral s) :
    scanExponent (y ++ s) = .ok (exponent, s) := by
  cases h with
  | none =>
      rw [List.nil_append]
      unfold Numeral.scanExponent
      split
      · rename_i c rest
        obtain ⟨-, -, he, hE⟩ := hs c rfl
        exact if_neg fun h => h.elim he hE
      · rfl
  | minus he ds => exact (if_pos he).trans (scanExponentDigits_row true (hrow _ rfl) hs.noDigit)
  | plus he ds => exact (if_pos he).trans (scanExponentDigits_row false (hrow _ rfl) hs.noDigit)
  | bare he ds =>
      have hds : IsRow ds := hrow _ rfl
      rw [List.cons_append, Numeral.scanExponent, if_pos he]
      · exact scanExponentDigits_row false hds hs.noDigit
      · exact hds.append_ne (by decide)
      · exact hds.append_ne (by decide)

/-- No digit and no point comes where an exponent can stand. -/
theorem SpellsExponent.head? (h : SpellsExponent exponent y) (hs : NoNumeral s) :
    NoDigit (y ++ s) ∧ (y ++ s).head? ≠ some '.' := by
  have hmark : ∀ {e : Char}, e = 'e' ∨ e = 'E' → isDigit e = false ∧ e ≠ '.' := by
    rintro e (rfl | rfl) <;> decide
  cases h with
  | none => exact ⟨hs.noDigit, fun h => (hs '.' h).2.1 rfl⟩
  | minus he ds | plus he ds | bare he ds =>
      exact ⟨noDigit_cons (hmark he).1, fun h => (hmark he).2 (Option.some_inj.mp h)⟩

theorem scanUnsigned_spells (hn : n.WellFormed) (hy : SpellsExponent n.exponent y) (hs : NoNumeral s) :
    scanUnsigned n.isNegative (n.whole ++ (n.fractionText ++ (y ++ s))) = .ok (n, s) := by
  obtain ⟨hdigit, hdot⟩ := hy.head? hs
  have hfraction : NoDigit (n.fractionText ++ (y ++ s)) := by
    rw [fractionText]
    cases n.fraction with
    | none => exact hdigit
    | some ds => exact noDigit_cons (by decide)
  simp only [scanUnsigned, scanWhole_row hn.whole hn.zero hfraction, ok_bind,
    scanFraction_fractionText hn hdigit hdot, hy.scanExponent hn.exponent hs]
  rfl

/-- A written numeral is scanned as a whole. -/
theorem scan_spells (hn : n.WellFormed) (hx : n.Spells x) (hs : NoNumeral s) :
    scan (x ++ s) = .ok (n, s) := by
  obtain ⟨hy⟩ := hx
  have hunsigned := scanUnsigned_spells hn hy hs
  simp only [List.append_assoc, signText]
  cases hnegative : n.isNegative with
  | true =>
      rw [hnegative] at hunsigned
      exact hunsigned
  | false =>
      rw [hnegative] at hunsigned
      rw [if_neg (by decide), List.nil_append]
      unfold scan
      split
      · rename_i rest heq
        exact absurd heq (hn.whole.append_ne (by decide) rest)
      · exact hunsigned

/-! ### The number that is read -/

theorem absorb_of_lt {significand : Nat} {ds : List Char}
    (h : valueFrom significand ds < UInt64.size) :
    absorb significand ds = (valueFrom significand ds, []) := by
  induction ds generalizing significand with
  | nil => rfl
  | cons d ds ih =>
      have hstep : valueFrom significand (d :: ds) = valueFrom (significand * 10 + digitValue d) ds := rfl
      have hle := le_valueFrom (significand * 10 + digitValue d) ds
      rw [hstep] at h
      rw [absorb, if_pos (hle.trans_lt h), ih h, hstep]

theorem toDecimal_digits (isNegative : Bool) (n : UInt64) (exponent : Option (Bool × List Char)) :
    (⟨isNegative, digits n.toNat, none, exponent⟩ : Numeral).toDecimal =
      .decimal isNegative n (writtenExponent ⟨isNegative, digits n.toNat, none, exponent⟩) := by
  have hvalue : valueFrom 0 (digits n.toNat) = n.toNat := value_digits n.toNat
  have habsorb : absorb 0 (digits n.toNat) = (n.toNat, []) := by
    rw [absorb_of_lt (hvalue.symm ▸ n.toNat_lt_size), hvalue]
  simp only [toDecimal, habsorb, Option.getD_none, absorb]
  simp

theorem writtenExponent_digits (isNegative : Bool) (ds : List Char) (exponent : Int) :
    writtenExponent ⟨isNegative, ds, none, some (exponent < 0, digits exponent.natAbs)⟩ =
      exponent := by
  by_cases h : exponent < 0
  · simp only [writtenExponent, h, decide_true, value_digits]
    omega
  · simp only [writtenExponent, h, decide_false, value_digits]
    omega

end Numeral

namespace Number

/-- The number that comes back where a number was written. -/
def reread : Number → Number
  | natural n => natural n
  | negative n => if 0 < n.toNat ∧ n.toNat ≤ UInt64.size / 2 then negative n else decimal true n 0
  | decimal isNegative significand exponent => decimal isNegative significand exponent

/-- The numeral as which a number is written. -/
def numeral : Number → Numeral
  | natural n => ⟨false, digits n.toNat, none, none⟩
  | negative n => ⟨true, digits n.toNat, none, none⟩
  | decimal isNegative significand exponent =>
    ⟨isNegative, digits significand.toNat, none, some (exponent < 0, digits exponent.natAbs)⟩

theorem wellFormed_numeral (n : Number) : n.numeral.WellFormed := by
  cases n with
  | natural n | negative n => exact ⟨Numeral.isRow_digits _, head?_digits, nofun, nofun⟩
  | decimal isNegative significand exponent =>
      refine ⟨Numeral.isRow_digits _, head?_digits, nofun, ?_⟩
      rintro _ ⟨⟩
      exact Numeral.isRow_digits _

theorem spells_numeral (n : Number) : n.numeral.Spells n.text := by
  cases n with
  | natural n =>
      have h := Numeral.Spells.intro (n := (natural n).numeral) .none
      simpa [numeral, text, Numeral.signText, Numeral.fractionText] using h
  | negative n =>
      have h := Numeral.Spells.intro (n := (negative n).numeral) .none
      simpa [numeral, text, Numeral.signText, Numeral.fractionText] using h
  | decimal isNegative significand exponent =>
      by_cases hexponent : exponent < 0
      · have h := Numeral.Spells.intro (n := (decimal isNegative significand exponent).numeral)
          (y := 'e' :: '-' :: digits exponent.natAbs) (by
            simpa [numeral, hexponent] using Numeral.SpellsExponent.minus (.inl rfl) _)
        simpa [numeral, text, Numeral.signText, Numeral.fractionText, hexponent] using h
      · have h := Numeral.Spells.intro (n := (decimal isNegative significand exponent).numeral)
          (y := 'e' :: digits exponent.natAbs) (by
            simpa [numeral, hexponent] using Numeral.SpellsExponent.bare (.inl rfl) _)
        simpa [numeral, text, Numeral.signText, Numeral.fractionText, hexponent] using h

theorem toNumber_numeral (n : Number) : n.numeral.toNumber = n.reread := by
  cases n with
  | natural n =>
      have hlt : ¬UInt64.size ≤ n.toNat := Nat.not_le.mpr n.toNat_lt_size
      simp only [numeral, Numeral.toNumber, value_digits, hlt]
      simp [reread]
  | negative n =>
      have hlt : ¬UInt64.size ≤ n.toNat := Nat.not_le.mpr n.toNat_lt_size
      simp only [numeral, Numeral.toNumber, value_digits, hlt, Numeral.toDecimal_digits]
      simp [reread, Numeral.writtenExponent]
  | decimal isNegative significand exponent =>
      rw [numeral, Numeral.toNumber, if_pos (.inr (.inl rfl)), Numeral.toDecimal_digits,
        Numeral.writtenExponent_digits]
      rfl

end Number
end PipelineRegistry.Json
