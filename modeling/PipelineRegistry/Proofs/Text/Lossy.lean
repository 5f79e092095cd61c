import Mathlib
import PipelineRegistry.Text.Lossy

/-! # A text is shown as it is

Whatever stands behind it, the encoding of a character is read as this character: its first byte gives
the bounds of the second, which it meets because it is the shortest encoding and no surrogate. -/

namespace PipelineRegistry.Text

theorem lossyFrom_cons (begun : Option Begun) (b : UInt8) (bs : List UInt8) :
    lossyFrom begun (b :: bs) =
      (meetByte begun b.toNat).1 ++ lossyFrom (meetByte begun b.toNat).2 bs := by
  cases begun <;> rfl

theorem meetByte_last {bits low high n : Nat} (h : low ≤ n ∧ n ≤ high) :
    meetByte (some ⟨bits, 1, low, high⟩) n = ([Char.ofNat (bits * 64 + (n - 0x80))], none) := by
  simp only [meetByte, if_pos h, if_true]

theorem meetByte_more {bits missing low high n : Nat} (hmissing : missing ≠ 1)
    (h : low ≤ n ∧ n ≤ high) : meetByte (some ⟨bits, missing, low, high⟩) n =
      ([], some ⟨bits * 64 + (n - 0x80), missing - 1, 0x80, 0xbf⟩) := by
  simp only [meetByte, if_pos h, if_neg hmissing]

theorem meetFirst_two {n : Nat} (h : 0xc2 ≤ n ∧ n ≤ 0xdf) :
    meetFirst n = ([], some ⟨n - 0xc0, 1, 0x80, 0xbf⟩) := by
  rw [meetFirst, if_neg (by omega), if_pos h]

theorem meetFirst_three {n : Nat} (h : 0xe0 ≤ n ∧ n ≤ 0xef) : meetFirst n = ([], some
    ⟨n - 0xe0, 2, if n = 0xe0 then 0xa0 else 0x80, if n = 0xed then 0x9f else 0xbf⟩) := by
  rw [meetFirst, if_neg (by omega), if_neg (by omega), if_pos h]

theorem meetFirst_four {n : Nat} (h : 0xf0 ≤ n ∧ n ≤ 0xf4) : meetFirst n = ([], some
    ⟨n - 0xf0, 3, if n = 0xf0 then 0x90 else 0x80, if n = 0xf4 then 0x8f else 0xbf⟩) := by
  rw [meetFirst, if_neg (by omega), if_neg (by omega), if_neg (by omega), if_pos h]

/-- A character that is written is shown. -/
theorem lossyFrom_encode (c : Char) (bs : List UInt8) :
    lossyFrom none (String.utf8EncodeChar c ++ bs) = c :: lossyFrom none bs := by
  have hvalid : c.val.toNat < 0xd800 ∨ 0xdfff < c.val.toNat ∧ c.val.toNat < 0x110000 := c.valid
  have hc : ∀ n, n = c.val.toNat → Char.ofNat n = c := by
    rintro n rfl
    exact Char.ofNat_toNat c
  have hbyte : ∀ n, n < 256 → (UInt8.ofNat n).toNat = n := by
    intro n hn
    rw [UInt8.toNat_ofNat', Nat.mod_eq_of_lt hn]
  have htail : ∀ n, 0x80 ≤ n % 64 + 128 ∧ n % 64 + 128 ≤ 0xbf := by omega
  unfold String.utf8EncodeChar
  generalize c.val.toNat = v at hvalid hc
  simp only
  split
  case isTrue hone =>
    simp only [List.cons_append, List.nil_append, lossyFrom_cons, meetByte]
    rw [hbyte v (by omega), meetFirst, if_pos (by omega), hc v rfl]
    rfl
  split
  case isTrue htwo =>
    have hlead : 0xc2 ≤ v / 64 % 32 + 192 ∧ v / 64 % 32 + 192 ≤ 0xdf := by omega
    simp (disch := omega) only [List.cons_append, List.nil_append, lossyFrom_cons, hbyte]
    simp only [meetByte.eq_1, meetFirst_two hlead, meetByte_last (htail _)]
    rw [hc _ (by omega)]
    rfl
  split
  case isTrue hthree =>
    have hlead : 0xe0 ≤ v / 4096 % 16 + 224 ∧ v / 4096 % 16 + 224 ≤ 0xef := by omega
    have hsecond : (if v / 4096 % 16 + 224 = 0xe0 then 0xa0 else 0x80) ≤ v / 64 % 64 + 128 ∧
        v / 64 % 64 + 128 ≤ if v / 4096 % 16 + 224 = 0xed then 0x9f else 0xbf := by
      constructor <;> split <;> omega
    simp (disch := omega) only [List.cons_append, List.nil_append, lossyFrom_cons, hbyte]
    simp only [meetByte.eq_1, meetFirst_three hlead, meetByte_more (show 2 ≠ 1 by decide) hsecond,
      meetByte_last (htail _)]
    rw [hc _ (by omega)]
    rfl
  case isFalse hfour =>
    have hlead : 0xf0 ≤ v / 262144 % 8 + 240 ∧ v / 262144 % 8 + 240 ≤ 0xf4 := by omega
    have hsecond : (if v / 262144 % 8 + 240 = 0xf0 then 0x90 else 0x80) ≤ v / 4096 % 64 + 128 ∧
        v / 4096 % 64 + 128 ≤ if v / 262144 % 8 + 240 = 0xf4 then 0x8f else 0xbf := by
      constructor <;> split <;> omega
    simp (disch := omega) only [List.cons_append, List.nil_append, lossyFrom_cons, hbyte]
    simp only [meetByte.eq_1, meetFirst_four hlead, meetByte_more (show 3 ≠ 1 by decide) hsecond,
      meetByte_more (show 2 ≠ 1 by decide) (htail _), meetByte_last (htail _)]
    rw [hc _ (by omega)]
    rfl

theorem lossyFrom_flatMap_encode (cs : List Char) :
    lossyFrom none (cs.flatMap String.utf8EncodeChar) = cs := by
  induction cs with
  | nil => rfl
  | cons c cs ih => rw [List.flatMap_cons, lossyFrom_encode, ih]

/-- A text is shown as it is. -/
theorem lossy_toUTF8 (s : String) : lossy s.toUTF8.data.toList = s := by
  have hbytes : s.toUTF8.data.toList = s.toList.flatMap String.utf8EncodeChar := by
    rw [String.toUTF8_eq_toByteArray, ← String.utf8Encode_toList, List.utf8Encode,
      List.data_toByteArray]
  rw [lossy, hbytes, lossyFrom_flatMap_encode, String.ofList_toList]

end PipelineRegistry.Text
