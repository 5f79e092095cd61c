import Mathlib
import PipelineRegistry.Json.Token
import PipelineRegistry.Json.Writer
import PipelineRegistry.Proofs.Json.Number

/-! # A text is cut into the tokens that it spells

`SpellsTokens ts s` says that `s` is a text of the tokens `ts`: each of them is written in one of the
ways in which it can be written, and there is any white space before, between and behind them.  A string
may be written with any escapes.  Whatever way is taken, the text is cut into these tokens, as long as no
two numbers stand side by side. -/

namespace PipelineRegistry.Json

open Text

/-! ### Strings -/

/-- How a piece of a string can be written. -/
inductive SpellsPiece : Piece → List Char → Prop
  | plain {c : Char} (hquote : c ≠ '"') (hslash : c ≠ '\\') (hcontrol : ¬c.toNat < 0x20) :
      SpellsPiece (.char c) [c]
  | letter {e c : Char} (h : letterEscape? e = some c) : SpellsPiece (.char c) ['\\', e]
  | unit {h₁ h₂ h₃ h₄ : Char} {n : Nat} (h : codeUnit? h₁ h₂ h₃ h₄ = some n) :
      SpellsPiece (.unit n) ['\\', 'u', h₁, h₂, h₃, h₄]

/-- How the pieces of a string can be written. -/
inductive SpellsPieces : List Piece → List Char → Prop
  | nil : SpellsPieces [] []
  | cons {p : Piece} {ps : List Piece} {x y : List Char} (hp : SpellsPiece p x)
      (hps : SpellsPieces ps y) : SpellsPieces (p :: ps) (x ++ y)

theorem scanString_spellsPiece {p : Piece} {x : List Char} (hx : SpellsPiece p x) (rest : List Char) :
    scanString (x ++ rest) = p.before (scanString rest) := by
  cases hx with
  | plain hquote hslash hcontrol =>
      rw [List.singleton_append, scanString.eq_def]
      simp only [if_neg hquote, if_neg hslash, if_neg hcontrol]
  | @letter e c h =>
      have hne : e ≠ 'u' := by
        rintro rfl
        cases h
      change scanString ('\\' :: e :: rest) = _
      rw [scanString.eq_def]
      simp only [if_neg hne, h]
      rfl
  | @unit h₁ h₂ h₃ h₄ n h =>
      change scanString ('\\' :: 'u' :: h₁ :: h₂ :: h₃ :: h₄ :: rest) = _
      rw [scanString.eq_def]
      simp only [if_true, h]
      rfl

theorem scanString_spellsPieces {ps : List Piece} {x : List Char} (hx : SpellsPieces ps x)
    (rest : List Char) : scanString (x ++ '"' :: rest) = (ps, .closed rest) := by
  induction hx with
  | nil =>
      rw [List.nil_append, scanString.eq_def]
      rfl
  | cons hp _ ih =>
      rw [List.append_assoc, scanString_spellsPiece hp, ih]
      rfl

/-- The 16-bit units of a character. -/
def units (c : Char) : List Nat :=
  if c.toNat < 0x10000 then [c.toNat]
  else [0xD800 + (c.toNat - 0x10000) / 0x400, 0xDC00 + (c.toNat - 0x10000) % 0x400]

/-- The pieces stand for the text: each of its characters is there as it is or by its units. -/
inductive Renders : List Char → List Piece → Prop
  | nil : Renders [] []
  | char (c : Char) {s : List Char} {ps : List Piece} (h : Renders s ps) :
      Renders (c :: s) (.char c :: ps)
  | units (c : Char) {s : List Char} {ps : List Piece} (h : Renders s ps) :
      Renders (c :: s) ((units c).map .unit ++ ps)

/-- No character is half of a pair. -/
theorem toNat_not_surrogate (c : Char) : c.toNat < 0xD800 ∨ 0xE000 ≤ c.toNat ∧ c.toNat < 0x110000 := by
  have h := c.valid
  simp only [UInt32.isValidChar, Nat.isValidChar] at h
  change c.val.toNat < _ ∨ _ ≤ c.val.toNat ∧ c.val.toNat < _
  omega

theorem pieceText_units (stop : Stop) (c : Char) (ps : List Piece) :
    pieceText stop ((units c).map .unit ++ ps) = (c :: ·) <$> pieceText stop ps := by
  have hvalid := toNat_not_surrogate c
  unfold units
  split
  · have htrail : isTrail c.toNat = false := by
      simp only [isTrail, Bool.and_eq_false_iff, decide_eq_false_iff_not]
      omega
    have hlead : isLead c.toNat = false := by
      simp only [isLead, Bool.and_eq_false_iff, decide_eq_false_iff_not]
      omega
    rw [List.map_singleton, List.singleton_append, pieceText.eq_def]
    simp only [htrail, hlead, Char.ofNat_toNat]
    rfl
  · rename_i hbig
    have hhigh : (c.toNat - 0x10000) / 0x400 < 0x400 := by omega
    have hlow : (c.toNat - 0x10000) % 0x400 < 0x400 := Nat.mod_lt _ (by decide)
    generalize hlead : 0xD800 + (c.toNat - 0x10000) / 0x400 = lead
    generalize htrail : 0xDC00 + (c.toNat - 0x10000) % 0x400 = trail
    have hnot : isTrail lead = false := by
      simp only [isTrail, Bool.and_eq_false_iff, decide_eq_false_iff_not]
      omega
    have hfirst : isLead lead = true := by
      simp only [isLead, Bool.and_eq_true, decide_eq_true_eq]
      omega
    have hsecond : isTrail trail = true := by
      simp only [isTrail, Bool.and_eq_true, decide_eq_true_eq]
      omega
    have hpair : pairChar lead trail = c := by
      rw [pairChar]
      convert Char.ofNat_toNat c using 2
      omega
    rw [List.map_cons, List.map_singleton, List.cons_append, List.singleton_append, pieceText.eq_def]
    simp only [hnot, hfirst, hsecond, hpair]
    rfl

theorem pieceText_renders {s : List Char} {ps : List Piece} (h : Renders s ps) (rest : List Char) :
    pieceText (.closed rest) ps = .ok s := by
  induction h with
  | nil => rfl
  | char c _ ih =>
      rw [pieceText, ih]
      rfl
  | units c _ ih =>
      rw [pieceText_units, ih]
      rfl

/-- The text of a closed string does not depend on what follows it. -/
theorem pieceText_closed (rest : List Char) (ps : List Piece) :
    pieceText (.closed rest) ps = pieceText (.closed []) ps := by
  fun_induction pieceText (.closed []) ps <;> rw [pieceText.eq_def] <;> simp_all [Stop.afterLead]

/-! ### Single tokens -/

/-- How a token can be written. -/
inductive Token.Spells : Token → List Char → Prop
  | openBrace : Spells .openBrace ['\x7b']
  | closeBrace : Spells .closeBrace ['\x7d']
  | openBracket : Spells .openBracket ['[']
  | closeBracket : Spells .closeBracket [']']
  | colon : Spells .colon [':']
  | comma : Spells .comma [',']
  | null : Spells .null "null".toList
  | bool (b : Bool) : Spells (.bool b) (word b)
  | number {n : Numeral} {x : List Char} (hn : n.WellFormed) (hx : n.Spells x) :
      Spells (.number n.toNumber) x
  /-- A string of characters, each of which is written as it is or as an escape. -/
  | text {s : String} {ps : List Piece} {x : List Char} (hs : Renders s.toList ps)
      (hx : SpellsPieces ps x) : Spells (.string (.ok s)) ('"' :: (x ++ ['"']))
  /-- Any string at all; the escapes in it may be halves of pairs and stand for no text. -/
  | string {ps : List Piece} {x : List Char} (hx : SpellsPieces ps x) :
      Spells (.string ((pieceText (.closed []) ps).map String.ofList)) ('"' :: (x ++ ['"']))

variable {c : Char} {s rest x w : List Char} {t : Token} {ts : List Token}

theorem tokens_of_nextToken? (h : nextToken? s = some (t, rest)) : tokens s = t :: tokens rest := by
  rw [tokens.eq_def]
  split
  · rename_i hnone
    rw [hnone] at h
    cases h
  · rename_i hsome
    rw [hsome] at h
    cases h
    rfl

theorem tokens_of_none (h : nextToken? s = none) : tokens s = [] := by
  rw [tokens.eq_def]
  split
  · rfl
  · rename_i hsome
    rw [hsome] at h
    cases h

theorem tokens_nil : tokens [] = [] := tokens_of_none rfl

theorem tokens_lexFrom (hc : isSpace c = false) (h : lexFrom c s = (t, rest)) :
    tokens (c :: s) = t :: tokens rest := by
  refine tokens_of_nextToken? ?_
  rw [nextToken?, List.dropWhile_cons, hc]
  simp only [Bool.false_eq_true, if_false, h]

theorem lexString_spells {ps : List Piece} (hx : SpellsPieces ps x) (rest : List Char) :
    lexString (x ++ '"' :: rest) =
      (.string ((pieceText (.closed []) ps).map String.ofList), rest) := by
  rw [lexString, scanString_spellsPieces hx]
  simp only [pieceText_closed rest]

theorem lexFrom_numeral (hc : c = '-' ∨ isDigit c) (s : List Char) :
    lexFrom c s = lexNumber (c :: s) := by
  unfold lexFrom
  split
  case h_11 => exact if_pos (by simpa using hc)
  -- no other token begins with a digit or a sign
  all_goals exact absurd hc (by decide)

theorem tokens_numeral {n : Numeral} (hn : n.WellFormed) (hx : n.Spells x) (hs : NoNumeral s) :
    tokens (x ++ s) = .number n.toNumber :: tokens s := by
  have hscan := Numeral.scan_spells hn hx hs
  obtain ⟨c, text, rfl, hc⟩ := hx.exists_cons hn
  rw [List.cons_append] at hscan ⊢
  refine tokens_lexFrom ?_ ?_
  · cases hspace : isSpace c with
    | false => rfl
    | true =>
        simp only [isSpace, Bool.or_eq_true, decide_eq_true_eq] at hspace
        rcases hspace with ((rfl | rfl) | rfl) | rfl <;> exact absurd hc (by decide)
  · rw [lexFrom_numeral hc, lexNumber, hscan]

/-- Whether a token is a number. -/
def Token.isNumber : Token → Bool
  | .number _ => true
  | _ => false

/-- A written token is taken off a text; behind a number nothing may follow that could belong to it. -/
theorem tokens_spells (hx : t.Spells x) (hs : t.isNumber → NoNumeral s) :
    tokens (x ++ s) = t :: tokens s := by
  cases hx with
  | number hn hx => exact tokens_numeral hn hx (hs rfl)
  | @text text ps x hrenders hx =>
      rw [List.cons_append, List.append_assoc, List.singleton_append]
      refine tokens_lexFrom (by decide) ((lexString_spells hx s).trans ?_)
      rw [pieceText_renders hrenders, Except.map, String.ofList_toList]
  | string hx =>
      rw [List.cons_append, List.append_assoc, List.singleton_append]
      exact tokens_lexFrom (by decide) (lexString_spells hx s)
  | bool b => cases b <;> exact tokens_lexFrom (by decide) rfl
  -- marks and null
  | _ => exact tokens_lexFrom (by decide) rfl

/-- Nothing but a number begins like a part of a number. -/
theorem Token.Spells.noNumeral (hx : t.Spells x) (ht : t.isNumber = false) (s : List Char) :
    NoNumeral (x ++ s) := by
  cases hx with
  | number hn hx => cases ht
  | bool b => cases b <;> exact NoNumeral.cons (by decide)
  | _ => exact NoNumeral.cons (by decide)

/-! ### Texts -/

/-- White space, or nothing. -/
def IsBlank (w : List Char) : Prop := ∀ c ∈ w, isSpace c

theorem isBlank_singleton (hc : isSpace c) : IsBlank [c] := List.forall_mem_singleton.mpr hc

/-- The text consists of the tokens with white space around them. -/
inductive SpellsTokens : List Token → List Char → Prop
  | nil {w : List Char} (hw : IsBlank w) : SpellsTokens [] w
  | cons {w x s : List Char} {t : Token} {ts : List Token} (hw : IsBlank w) (hx : t.Spells x)
      (hs : SpellsTokens ts s) : SpellsTokens (t :: ts) (w ++ (x ++ s))

theorem tokens_blank (hw : IsBlank w) (s : List Char) : tokens (w ++ s) = tokens s := by
  have hnext : nextToken? (w ++ s) = nextToken? s := by
    rw [nextToken?, List.dropWhile_append_of_pos hw]
    rfl
  cases h : nextToken? s with
  | none => rw [tokens_of_none (hnext.trans h), tokens_of_none h]
  | some next => rw [tokens_of_nextToken? (hnext.trans h), tokens_of_nextToken? h]

theorem IsBlank.noNumeral (hw : IsBlank w) (hs : NoNumeral s) : NoNumeral (w ++ s) := by
  cases w with
  | nil => exact hs
  | cons c w =>
      have hc := hw c List.mem_cons_self
      simp only [isSpace, Bool.or_eq_true, decide_eq_true_eq] at hc
      rcases hc with ((rfl | rfl) | rfl) | rfl <;> exact NoNumeral.cons (by decide)

namespace SpellsTokens

theorem append_blank (hw : IsBlank w) (h : SpellsTokens ts s) : SpellsTokens ts (w ++ s) := by
  have happend : ∀ {w'}, IsBlank w' → IsBlank (w ++ w') := fun hw' c hc =>
    (List.mem_append.mp hc).elim (hw c) (hw' c)
  cases h with
  | nil hw' => exact .nil (happend hw')
  | cons hw' hx hs =>
      rw [← List.append_assoc]
      exact .cons (happend hw') hx hs

/-- A token with no white space in front of it. -/
theorem token (hx : t.Spells x) (h : SpellsTokens ts s) : SpellsTokens (t :: ts) (x ++ s) :=
  .cons (w := []) nofun hx h

theorem noNumeral (h : SpellsTokens ts s) (hts : ∀ t ∈ ts.head?, t.isNumber = false) :
    NoNumeral s := by
  cases h with
  | nil hw =>
      have hnone := hw.noNumeral NoNumeral.nil
      rwa [List.append_nil] at hnone
  | cons hw hx hs => exact hw.noNumeral (hx.noNumeral (hts _ rfl) _)

end SpellsTokens

/-- At most one of two tokens is a number. -/
def Token.Apart (t t' : Token) : Prop := t.isNumber → t'.isNumber = false

/-- A text is cut into the tokens that it spells. -/
theorem tokens_of_spellsTokens (h : SpellsTokens ts s) (hts : ts.IsChain Token.Apart) :
    tokens s = ts := by
  induction h with
  | nil hw =>
      have hblank := tokens_blank hw []
      rwa [List.append_nil, tokens_nil] at hblank
  | cons hw hx hs ih =>
      obtain ⟨hhead, hchain⟩ := List.isChain_cons.mp hts
      rw [tokens_blank hw, tokens_spells hx fun ht => hs.noNumeral fun t' ht' => hhead t' ht' ht,
        ih hchain]

end PipelineRegistry.Json
