import Mathlib
import PipelineRegistry.Text.Digits

/-! # Decimal digits stand for their number

A number written in decimal notation, filled up with zeros or not, is a row of digits that stands for
the number.  A row of digits is taken off a text as a whole where no further digit follows. -/

namespace PipelineRegistry.Text

variable {c : Char} {n m : Nat} {ds s : List Char}

/-! ### Rows of digits -/

/-- No digit comes first in the text. -/
def NoDigit (s : List Char) : Prop := ∀ c ∈ s.head?, isDigit c = false

theorem noDigit_cons (h : isDigit c = false) : NoDigit (c :: s) := by
  intro d hd
  cases hd
  exact h

theorem takeWhile_digits (hds : ∀ c ∈ ds, isDigit c) (hs : NoDigit s) :
    (ds ++ s).takeWhile isDigit = ds := by
  rw [List.takeWhile_append_of_pos hds]
  cases s with
  | nil => simp
  | cons c s => simp [hs c rfl]

theorem dropWhile_digits (hds : ∀ c ∈ ds, isDigit c) (hs : NoDigit s) :
    (ds ++ s).dropWhile isDigit = s := by
  rw [List.dropWhile_append_of_pos hds]
  cases s with
  | nil => rfl
  | cons c s => simp [hs c rfl]

theorem spanDigits_digits (hds : ∀ c ∈ ds, isDigit c) (hs : NoDigit s) :
    spanDigits (ds ++ s) = (ds, s) :=
  Prod.ext (takeWhile_digits hds hs) (dropWhile_digits hds hs)

/-! ### Values -/

theorem digitValue_le (h : isDigit c) : digitValue c ≤ 9 := by
  simp only [isDigit, Bool.and_eq_true, decide_eq_true_eq, Char.le_def] at h
  have := UInt32.le_iff_toNat_le.mp h.2
  simp only [digitValue, Char.toNat]
  simp at this ⊢
  omega

theorem value_eq (ds : List Char) : value ds = Nat.ofDigitChars 10 ds 0 := by
  simp only [value, valueFrom, digitValue, Nat.ofDigitChars_eq_foldl, Nat.mul_comm]

theorem value_cons (d : Char) (ds : List Char) :
    value (d :: ds) = digitValue d * 10 ^ ds.length + value ds := by
  rw [value_eq, value_eq, Nat.ofDigitChars_cons, Nat.ofDigitChars_eq_ofDigitChars_zero,
    Nat.mul_zero, Nat.zero_add, Nat.mul_comm]
  rfl

theorem le_valueFrom (start : Nat) (ds : List Char) : start ≤ valueFrom start ds := by
  induction ds generalizing start with
  | nil => exact Nat.le_refl _
  | cons d ds ih =>
      refine le_trans ?_ (ih (start * 10 + digitValue d))
      omega

theorem value_lt (hds : ∀ c ∈ ds, isDigit c) : value ds < 10 ^ ds.length := by
  induction ds with
  | nil => simp [value, valueFrom]
  | cons d ds ih =>
      rw [List.forall_mem_cons] at hds
      have hd := digitValue_le hds.1
      have hrest := ih hds.2
      rw [value_cons, List.length_cons, pow_succ]
      nlinarith [Nat.mul_le_mul_right (10 ^ ds.length) hd]

/-! ### Numbers in decimal notation -/

theorem isDigit_of_mem_digits (hc : c ∈ digits n) : isDigit c := by
  have h := Nat.isDigit_of_mem_toDigits (by decide) (by decide) hc
  simpa [isDigit, Char.isDigit, Char.le_def] using h

theorem digits_ne_nil : digits n ≠ [] := Nat.toDigits_ne_nil

theorem value_digits (n : Nat) : value (digits n) = n := by
  rw [value_eq]
  exact Nat.ofDigitChars_ten_toDigits

theorem length_digits_le {k : Nat} (hk : 0 < k) (hn : n < 10 ^ k) : (digits n).length ≤ k :=
  (Nat.length_toDigits_le_iff (by decide) hk).mpr hn

/-- Only zero is written with a zero in front. -/
theorem head?_digits (h : (digits n).head? = some '0') : (digits n).length = 1 := by
  obtain ⟨ds, hds⟩ := List.head?_eq_some_iff.mp h
  have hall : ∀ c ∈ ds, isDigit c := by
    intro c hc
    exact isDigit_of_mem_digits (hds ▸ List.mem_cons_of_mem _ hc)
  have hn : n = value ds := by
    rw [← value_digits n, hds, value_cons]
    simp [digitValue]
  cases ds with
  | nil => simp [hds]
  | cons d ds =>
      -- the digits behind a zero would have been enough
      have hlt := value_lt hall
      rw [← hn] at hlt
      have := length_digits_le (Nat.succ_pos _) hlt
      rw [hds] at this
      simp at this

theorem isDigit_of_mem_padded {places : Nat} (hc : c ∈ padded places n) : isDigit c := by
  rcases List.mem_append.mp hc with hc | hc
  · rw [List.eq_of_mem_replicate hc]
    decide
  · exact isDigit_of_mem_digits hc

theorem value_padded (places n : Nat) : value (padded places n) = n := by
  rw [value_eq, padded, Nat.ofDigitChars_append, Nat.ofDigitChars_replicate_zero, Nat.mul_zero]
  exact Nat.ofDigitChars_ten_toDigits

theorem length_padded {places : Nat} (hplaces : 0 < places) (hn : n < 10 ^ places) :
    (padded places n).length = places := by
  have := length_digits_le hplaces hn
  rw [padded, List.length_append, List.length_replicate]
  omega

end PipelineRegistry.Text
