import Mathlib
import PipelineRegistry.Calendar.Reader
import PipelineRegistry.Proofs.Chain
import PipelineRegistry.Proofs.Text.Digits

/-! # Timestamps are read back as they were written

The written form of a timestamp is read part by part: each row of digits ends where the next mark
begins, and no part is outside its range.  Conversely whatever is read lies in its ranges. -/

namespace PipelineRegistry.Calendar

open Chain Text

/-! ### White space -/

theorem isBlank_of_isDigit {c : Char} (hc : isDigit c) : isBlank c = false := by
  simp only [isDigit, Bool.and_eq_true, decide_eq_true_eq, Char.le_def] at hc
  have hlow := UInt32.le_iff_toNat_le.mp hc.1
  have hhigh := UInt32.le_iff_toNat_le.mp hc.2
  have hlow : 48 ≤ c.toNat := hlow
  have hhigh : c.toNat ≤ 57 := hhigh
  simp only [isBlank, inRanges, blankRanges, List.any_cons, List.any_nil, Bool.or_false,
    Bool.or_eq_false_iff, Bool.and_eq_false_iff, decide_eq_false_iff_not]
  omega

theorem skipBlanks_cons {c : Char} (hc : isBlank c = false) (s : List Char) :
    skipBlanks (c :: s) = c :: s := by
  simp [skipBlanks, hc]

theorem skipBlanks_digits {ds : List Char} (hne : ds ≠ []) (hds : ∀ c ∈ ds, isDigit c)
    (s : List Char) : skipBlanks (ds ++ s) = ds ++ s := by
  cases ds with
  | nil => exact absurd rfl hne
  | cons d ds => exact skipBlanks_cons (isBlank_of_isDigit (hds d List.mem_cons_self)) _

namespace Timestamp

variable {s rest : List Char}

/-! ### Reading what was written -/

theorem readNumber_digits {ds : List Char} {places : Nat} (hne : ds ≠ [])
    (hds : ∀ c ∈ ds, isDigit c) (hlen : ds.length ≤ places) (hs : NoDigit s) :
    readNumber places (ds ++ s) = .ok (value ds, s) := by
  have htake : ((ds ++ s).take places).takeWhile isDigit = ds := by
    rw [List.take_append, List.take_of_length_le hlen]
    refine takeWhile_digits hds ?_
    intro c hc
    cases s with
    | nil => simp at hc
    | cons d s =>
        cases hlen' : places - ds.length with
        | zero => simp [hlen'] at hc
        | succ k =>
            simp only [hlen', List.take_succ_cons, List.head?_cons] at hc
            exact hs c hc
  have hdrop : (ds ++ s).drop ds.length = s := List.drop_left
  unfold readNumber
  cases ds with
  | nil => exact absurd rfl hne
  | cons d ds =>
      rw [htake]
      simp only [List.cons_append] at hdrop ⊢
      rw [hdrop]

theorem padded_ne_nil (places n : Nat) : padded places n ≠ [] :=
  List.append_ne_nil_of_right_ne_nil _ digits_ne_nil

theorem readNumber_padded {k n places : Nat} (hlen : (padded k n).length ≤ places)
    (hs : NoDigit s) : readNumber places (padded k n ++ s) = .ok (n, s) := by
  rw [readNumber_digits (padded_ne_nil k n) (fun _ => isDigit_of_mem_padded) hlen hs, value_padded]

theorem readField_padded {low high n : Nat} (hlow : low ≤ n) (hhigh : n ≤ high) (hn : n < 100)
    (hs : NoDigit s) : readField low high (padded 2 n ++ s) = .ok (n, s) := by
  rw [readField, skipBlanks_digits (padded_ne_nil 2 n) (fun _ => isDigit_of_mem_padded),
    readNumber_padded (length_padded (by decide) hn).le hs, ok_bind]
  exact if_pos ⟨hlow, hhigh⟩

theorem readMark_cons {c : Char} (hc : isBlank c = false) (s : List Char) :
    readMark c (c :: s) = .ok s := by
  simp [readMark, skipBlanks_cons hc]

theorem noDigit_hyphen : NoDigit ('-' :: s) := noDigit_cons (by decide)

theorem readYear_yearText {year : Int} (hlow : Date.firstYear ≤ year) (hhigh : year ≤ Date.lastYear)
    (s : List Char) : readYear (yearText year ++ '-' :: s) = .ok (year, '-' :: s) := by
  have hbound : year.natAbs < 2147483648 := by
    simp only [Date.firstYear, Date.lastYear] at hlow hhigh
    omega
  have hsigned : ∀ n, readNumber (padded 4 n ++ '-' :: s).length (padded 4 n ++ '-' :: s) =
      .ok (n, '-' :: s) := by
    intro n
    refine readNumber_padded ?_ noDigit_hyphen
    rw [List.length_append]
    exact Nat.le_add_right _ _
  unfold yearText
  split
  · rename_i hyear
    have hn : year.toNat < 10 ^ 4 := by omega
    have hread := readNumber_padded (length_padded (by decide) hn).le (noDigit_hyphen (s := s))
    have hskip := skipBlanks_digits (padded_ne_nil 4 year.toNat) (fun _ => isDigit_of_mem_padded)
      ('-' :: s)
    obtain ⟨d, ds, hds⟩ := List.exists_cons_of_ne_nil (padded_ne_nil 4 year.toNat)
    have hdigit : isDigit d := isDigit_of_mem_padded (hds ▸ List.mem_cons_self)
    rw [hds, List.cons_append] at hread hskip ⊢
    rw [readYear, hskip]
    -- a digit is no sign
    split
    · rename_i heq
      rw [(List.cons.inj heq).1] at hdigit
      exact absurd hdigit (by decide)
    · rename_i heq
      rw [(List.cons.inj heq).1] at hdigit
      exact absurd hdigit (by decide)
    · rw [hread, ok_bind]
      simp only [Int.toNat_of_nonneg hyear.1]
      rfl
  · split
    · rw [List.cons_append, readYear, skipBlanks_cons (by decide)]
      simp only [hsigned, ok_bind]
      rw [if_pos hbound.le, show -(year.natAbs : Int) = year by omega]
      rfl
    · rw [List.cons_append, readYear, skipBlanks_cons (by decide)]
      simp only [hsigned, ok_bind]
      rw [if_pos hbound, show (year.natAbs : Int) = year by omega]
      rfl

theorem readFraction_padded {k n m : Nat} (hk : 0 < k) (hk9 : k ≤ 9) (hn : n < 10 ^ k)
    (hm : n * 10 ^ (9 - k) = m) : readFraction ('.' :: padded k n ++ ['Z']) = .ok (m, ['Z']) := by
  have hlen := length_padded hk hn
  have hread := readNumber_padded (s := ['Z']) (hlen.trans_le hk9) (noDigit_cons (by decide))
  have hlength : (padded k n ++ ['Z']).length - ['Z'].length = k := by
    rw [List.length_append, hlen, Nat.add_sub_cancel]
  have hscale : n * Nat.pow 10 (9 - k) = m := hm
  rw [List.cons_append, readFraction, hread, ok_bind]
  simp only [hlength, hscale]
  rfl

theorem readFraction_fractionText {n : Nat} (hn : n < 1000000000) :
    readFraction (fractionText n ++ ['Z']) = .ok (n, ['Z']) := by
  unfold fractionText
  split
  · rename_i hzero
    rw [hzero]
    rfl
  · split
    · rename_i hmod
      exact readFraction_padded (by decide) (by decide) (by omega)
        (Nat.div_mul_cancel (Nat.dvd_of_mod_eq_zero hmod))
    · split
      · rename_i hmod
        exact readFraction_padded (by decide) (by decide) (by omega)
          (Nat.div_mul_cancel (Nat.dvd_of_mod_eq_zero hmod))
      · exact readFraction_padded (by decide) (by decide) (by omega) (Nat.mul_one n)

theorem noDigit_fractionText (n : Nat) : NoDigit (fractionText n ++ ['Z']) := by
  unfold fractionText
  split_ifs <;> exact noDigit_cons (by decide)

theorem ofLocal_zero {t : Timestamp} (ht : t.IsValid) : ofLocal t 0 = .ok t := by
  obtain ⟨hdate, hminute, -, -⟩ := ht
  have hlt : (t.minute : Int) < minutesPerDay := by exact_mod_cast hminute
  have hmod : ((t.minute : Int) % minutesPerDay).toNat = t.minute := by
    rw [Int.emod_eq_of_lt (Int.natCast_nonneg _) hlt, Int.toNat_natCast]
  have hrange : ¬((0 : Int).natAbs ≥ minutesPerDay ∨ ¬t.date.IsValid) := by
    rw [not_or, not_not]
    exact ⟨by decide, hdate⟩
  rw [ofLocal, if_neg hrange]
  simp only [Int.sub_zero]
  rw [if_neg (Int.natCast_nonneg _).not_gt, if_pos hlt, if_pos hdate, hmod]

/-- A timestamp is read back as it was written. -/
theorem parse_text {t : Timestamp} (ht : t.IsValid) : parse t.text = .ok t := by
  obtain ⟨⟨hlow, hhigh, hmonth, hmonth', hday, hday'⟩, hminute, hsecond, hnano⟩ := id ht
  have hday31 : t.date.day ≤ 31 := by
    refine hday'.trans ?_
    unfold Date.daysInMonth
    split <;> (try split) <;> decide
  have hhour : t.minute / 60 ≤ 23 := by
    simp only [minutesPerDay] at hminute
    omega
  have hmin : t.minute % 60 ≤ 59 := by omega
  have htime : t.minute / 60 * 60 + t.minute % 60 = t.minute := Nat.div_add_mod' _ _
  have hcolon : ∀ s, NoDigit (':' :: s) := fun s => noDigit_cons (by decide)
  have hT : ∀ s, NoDigit ('T' :: s) := fun s => noDigit_cons (by decide)
  simp only [parse, text, List.append_assoc, List.cons_append]
  rw [readYear_yearText hlow hhigh, ok_bind, readMark_cons (by decide), ok_bind,
    readField_padded hmonth hmonth' (by omega) noDigit_hyphen, ok_bind,
    readMark_cons (by decide), ok_bind, readField_padded hday hday31 (by omega) (hT _), ok_bind]
  simp only [readSeparator, true_or, if_true]
  rw [ok_bind, readField_padded (Nat.zero_le _) hhour (by omega) (hcolon _), ok_bind,
    readMark_cons (by decide), ok_bind,
    readField_padded (Nat.zero_le _) hmin (by omega) (hcolon _), ok_bind,
    readMark_cons (by decide), ok_bind, readField_padded (Nat.zero_le _) hsecond (by omega)
      (noDigit_fractionText _), ok_bind,
    readFraction_fractionText hnano, ok_bind]
  have hoffset : readOffset (skipBlanks ['Z']) = .ok (0, []) := rfl
  simp only [hoffset, ok_bind, htime]
  exact ofLocal_zero ht

/-! ### What is read lies in its ranges -/

theorem readField_ok {low high n : Nat} (h : readField low high s = .ok (n, rest)) :
    low ≤ n ∧ n ≤ high := by
  obtain ⟨⟨n', rest'⟩, -, h⟩ := bind_eq_ok.mp h
  simp only at h
  split at h
  · cases h
    assumption
  · cases h

theorem readNumber_ok {places n : Nat} (h : readNumber places s = .ok (n, rest)) :
    ∃ k ≤ places, n < 10 ^ k ∧ k ≤ s.length ∧ rest = s.drop k := by
  have hprefix : (s.take places).takeWhile isDigit <+: s :=
    (List.takeWhile_prefix _).trans (List.take_prefix _ _)
  have hplaces : ((s.take places).takeWhile isDigit).length ≤ places :=
    (List.takeWhile_prefix _).length_le.trans (List.length_take_le _ _)
  unfold readNumber at h
  split at h
  · cases h
  · cases h
  · cases h
    refine ⟨_, hplaces, value_lt ?_, hprefix.length_le, rfl⟩
    intro c hc
    exact List.mem_takeWhile_imp hc

theorem readFraction_ok {n : Nat} (h : readFraction s = .ok (n, rest)) : n < 1000000000 := by
  unfold readFraction at h
  split at h
  · rename_i digits
    obtain ⟨⟨n', behind⟩, hread, h⟩ := bind_eq_ok.mp h
    cases h
    obtain ⟨k, hk, hn', hlen, rfl⟩ := readNumber_ok hread
    have hplaces : digits.length - (digits.drop k).length = k := by
      rw [List.length_drop]
      omega
    rw [hplaces]
    calc n' * 10 ^ (9 - k) < 10 ^ k * 10 ^ (9 - k) := Nat.mul_lt_mul_of_pos_right hn' (by positivity)
      _ = 1000000000 := by rw [← Nat.pow_add, Nat.add_sub_cancel' hk]
  · cases h
    decide

theorem ofLocal_ok {t t' : Timestamp} {offset : Int} (h : ofLocal t offset = .ok t') :
    t'.date.IsValid ∧ t'.minute < minutesPerDay ∧ t'.second = t.second ∧
      t'.nanosecond = t.nanosecond := by
  unfold ofLocal at h
  split at h
  · cases h
  · obtain ⟨date, hdate⟩ : ∃ date : Date, (if (t.minute : Int) - offset < 0 then t.date.previous
        else if (t.minute : Int) - offset < minutesPerDay then t.date else t.date.next) = date :=
      ⟨_, rfl⟩
    simp only [hdate] at h
    split at h
    · rename_i hvalid
      cases h
      refine ⟨hvalid, ?_, rfl, rfl⟩
      have := Int.emod_lt_of_pos ((t.minute : Int) - offset) (b := minutesPerDay) (by decide)
      have := Int.emod_nonneg ((t.minute : Int) - offset) (b := minutesPerDay) (by decide)
      simp only
      omega
    · cases h

/-- Whatever is read is a timestamp with its parts in their ranges. -/
theorem isValid_of_parse {t : Timestamp} (h : parse s = .ok t) : t.IsValid := by
  simp only [parse, bind_eq_ok, check_eq_ok, Prod.exists] at h
  obtain ⟨year, s₁, -, s₂, -, month, s₃, -, s₄, -, day, s₅, -, s₆, -, hour, s₇, -, s₈, -, minute, s₉,
    -, s₁₀, -, second, s₁₁, hsecond, nanosecond, s₁₂, hnanosecond, offset, s₁₃, -, -, h⟩ := h
  obtain ⟨hdate, hminute, hsec, hnano⟩ := ofLocal_ok h
  exact ⟨hdate, hminute, hsec ▸ (readField_ok hsecond).2, hnano ▸ readFraction_ok hnanosecond⟩

end Timestamp
end PipelineRegistry.Calendar
