import Mathlib
import PipelineRegistry.Json.Reader
import PipelineRegistry.Proofs.Json.Token

/-! # Values are read from their tokens

The machine that reads tokens delivers each value in its place once it has taken the tokens of the
value, whatever is around it.  At the top that place is the end of the text.  So every text of a value
is read as that value (`read_of_spells`), and the form in which values are written is one of these
texts. -/

namespace PipelineRegistry.Json

/-! ### The tokens of a value -/

namespace Reading

/-- Nothing of the value is cut off. -/
inductive Complete : Reading → Prop
  | null : Complete .null
  | bool (b : Bool) : Complete (.bool b)
  | number (n : Number) : Complete (.number n)
  | string (s : Except Malformation String) : Complete (.string s)
  | array {items : List Reading} (h : ∀ v ∈ items, Complete v) : Complete (.array items .closed)
  | object {members : List (Key × Reading)} (h : ∀ m ∈ members, Complete m.2) :
      Complete (.object members .closed)

mutual

/-- The tokens of a complete value. -/
def tokens : Reading → List Token
  | null => [.null]
  | bool b => [.bool b]
  | number n => [.number n]
  | string s => [.string s]
  | array [] _ => [.openBracket, .closeBracket]
  | array (item :: items) _ => .openBracket :: tokens item ++ tokensOfItems items
  | object [] _ => [.openBrace, .closeBrace]
  | object ((key, v) :: members) _ =>
    .openBrace :: .string key :: .colon :: tokens v ++ tokensOfMembers members
  | cut fault => [.bad fault]

/-- The tokens of the items behind the first one, and the closing bracket. -/
def tokensOfItems : List Reading → List Token
  | [] => [.closeBracket]
  | item :: items => .comma :: tokens item ++ tokensOfItems items

/-- The tokens of the members behind the first one, and the closing brace. -/
def tokensOfMembers : List (Key × Reading) → List Token
  | [] => [.closeBrace]
  | (key, v) :: members => .comma :: .string key :: .colon :: tokens v ++ tokensOfMembers members

end

/-- Whatever follows a token that is no number, they are apart. -/
theorem isChain_cons {t : Token} (ht : t.isNumber = false) {ts : List Token}
    (hts : ts.IsChain Token.Apart) : (t :: ts).IsChain Token.Apart := by
  refine List.isChain_cons.mpr ⟨?_, hts⟩
  intro t' _ h
  rw [ht] at h
  cases h

mutual

/-- The numbers of a value have other tokens between them. -/
theorem isChain_tokens (v : Reading) {ts : List Token} (hts : ts.IsChain Token.Apart)
    (hhead : ∀ t ∈ ts.head?, t.isNumber = false) : (v.tokens ++ ts).IsChain Token.Apart := by
  match v with
  | null => exact isChain_cons rfl hts
  | bool b => exact isChain_cons rfl hts
  | number n => exact List.isChain_cons.mpr ⟨fun t ht _ => hhead t ht, hts⟩
  | string s => exact isChain_cons rfl hts
  | array [] _ => exact isChain_cons rfl (isChain_cons rfl hts)
  | array (item :: items) _ =>
      rw [tokens, List.cons_append, List.cons_append, List.append_assoc]
      obtain ⟨hitems, hnext⟩ := isChain_tokensOfItems items hts
      exact isChain_cons rfl (isChain_tokens item hitems hnext)
  | object [] _ => exact isChain_cons rfl (isChain_cons rfl hts)
  | object ((key, v) :: members) _ =>
      simp only [tokens, List.cons_append, List.append_assoc]
      obtain ⟨hmembers, hnext⟩ := isChain_tokensOfMembers members hts
      exact isChain_cons rfl (isChain_cons rfl (isChain_cons rfl (isChain_tokens v hmembers hnext)))
  | cut fault => exact isChain_cons rfl hts

theorem isChain_tokensOfItems (items : List Reading) {ts : List Token}
    (hts : ts.IsChain Token.Apart) : (tokensOfItems items ++ ts).IsChain Token.Apart ∧
      ∀ t ∈ (tokensOfItems items ++ ts).head?, t.isNumber = false := by
  match items with
  | [] => exact ⟨isChain_cons rfl hts, by rintro _ ⟨⟩; rfl⟩
  | item :: items =>
      rw [tokensOfItems, List.cons_append, List.cons_append, List.append_assoc]
      obtain ⟨hitems, hnext⟩ := isChain_tokensOfItems items hts
      exact ⟨isChain_cons rfl (isChain_tokens item hitems hnext), by rintro _ ⟨⟩; rfl⟩

theorem isChain_tokensOfMembers (members : List (Key × Reading)) {ts : List Token}
    (hts : ts.IsChain Token.Apart) : (tokensOfMembers members ++ ts).IsChain Token.Apart ∧
      ∀ t ∈ (tokensOfMembers members ++ ts).head?, t.isNumber = false := by
  match members with
  | [] => exact ⟨isChain_cons rfl hts, by rintro _ ⟨⟩; rfl⟩
  | (key, v) :: members =>
      simp only [tokensOfMembers, List.cons_append, List.append_assoc]
      obtain ⟨hmembers, hnext⟩ := isChain_tokensOfMembers members hts
      exact ⟨isChain_cons rfl (isChain_cons rfl (isChain_cons rfl (isChain_tokens v hmembers hnext))),
        by rintro _ ⟨⟩; rfl⟩

end

/-- The text spells the value: it consists of its tokens with white space around them. -/
def Spells (v : Reading) (s : List Char) : Prop := SpellsTokens v.tokens s

end Reading

/-! ### The machine -/

namespace State

open Reading

theorem step_value {t : Token} (ht : t ≠ .closeBracket) (context : List Frame) :
    step (.value context) t = beginValue context t := by
  unfold step
  split <;> simp_all

theorem step_firstItem {t : Token} (ht : t ≠ .closeBracket) (context : List Frame) :
    step (.firstItem context) t = beginValue (.item [] :: context) t := by
  unfold step
  split <;> simp_all

mutual

/-- A state in which a value begins delivers the value once it has taken all its tokens. -/
theorem foldl_tokens (v : Reading) (hv : v.Complete) (context : List Frame) (state : State)
    (hstate : ∀ t, t ≠ .closeBracket → step state t = beginValue context t) :
    v.tokens.foldl step state = deliver v context := by
  match v with
  | .null => exact hstate _ nofun
  | .bool b => exact hstate _ nofun
  | .number n => exact hstate _ nofun
  | .string s => exact hstate _ nofun
  | .array [] _ =>
      cases hv
      rw [Reading.tokens, List.foldl_cons, hstate .openBracket nofun]
      rfl
  | .array (item :: items) _ =>
      obtain ⟨hitem, hitems⟩ : item.Complete ∧ ∀ v ∈ items, v.Complete := by
        cases hv with
        | array h => exact List.forall_mem_cons.mp h
      cases hv
      rw [Reading.tokens, List.cons_append, List.foldl_cons, hstate .openBracket nofun,
        List.foldl_append]
      have hfirst := foldl_tokens item hitem (.item [] :: context) (.firstItem context)
        fun _ ht => step_firstItem ht context
      have hrest := foldl_tokensOfItems items hitems [item] context
      exact (congrArg (fun state => (tokensOfItems items).foldl step state) hfirst).trans hrest
  | .object [] _ =>
      cases hv
      rw [Reading.tokens, List.foldl_cons, hstate .openBrace nofun]
      rfl
  | .object ((key, v) :: members) _ =>
      obtain ⟨hvalue, hmembers⟩ : v.Complete ∧ ∀ m ∈ members, m.2.Complete := by
        cases hv with
        | object h => exact List.forall_mem_cons.mp h
      cases hv
      simp only [Reading.tokens, List.cons_append, List.foldl_cons, List.foldl_append]
      rw [hstate .openBrace nofun]
      have hfirst := foldl_tokens v hvalue (.member [] key :: context)
        (.value (.member [] key :: context)) fun _ ht => step_value ht _
      have hrest := foldl_tokensOfMembers members hmembers [(key, v)] context
      exact (congrArg (fun state => (tokensOfMembers members).foldl step state) hfirst).trans hrest

theorem foldl_tokensOfItems (items : List Reading) (hitems : ∀ v ∈ items, v.Complete)
    (before : List Reading) (context : List Frame) :
    (tokensOfItems items).foldl step (.afterItem before context) =
      deliver (.array (before.reverse ++ items) .closed) context := by
  match items with
  | [] =>
      rw [List.append_nil]
      rfl
  | item :: items =>
      obtain ⟨hitem, hitems⟩ := List.forall_mem_cons.mp hitems
      rw [tokensOfItems, List.cons_append, List.foldl_cons, List.foldl_append]
      have hfirst := foldl_tokens item hitem (.item before :: context)
        (.value (.item before :: context)) fun _ ht => step_value ht _
      have hrest := foldl_tokensOfItems items hitems (item :: before) context
      rw [List.reverse_cons, List.append_assoc] at hrest
      exact (congrArg (fun state => (tokensOfItems items).foldl step state) hfirst).trans hrest

theorem foldl_tokensOfMembers (members : List (Key × Reading))
    (hmembers : ∀ m ∈ members, m.2.Complete) (before : List (Key × Reading)) (context : List Frame) :
    (tokensOfMembers members).foldl step (.afterMember before context) =
      deliver (.object (before.reverse ++ members) .closed) context := by
  match members with
  | [] =>
      rw [List.append_nil]
      rfl
  | (key, v) :: members =>
      obtain ⟨hvalue, hmembers⟩ := List.forall_mem_cons.mp hmembers
      simp only [tokensOfMembers, List.cons_append, List.foldl_cons, List.foldl_append]
      have hfirst := foldl_tokens v hvalue (.member before key :: context)
        (.value (.member before key :: context)) fun _ ht => step_value ht _
      have hrest := foldl_tokensOfMembers members hmembers ((key, v) :: before) context
      rw [List.reverse_cons, List.append_assoc] at hrest
      exact (congrArg (fun state => (tokensOfMembers members).foldl step state) hfirst).trans hrest

end

end State

/-- A text of a value is read as the value, and nothing follows it. -/
theorem read_of_spells {v : Reading} {s : List Char} (hv : v.Complete) (hs : v.Spells s) :
    read s = (v, false) := by
  have hchain := v.isChain_tokens .nil nofun
  rw [List.append_nil] at hchain
  rw [read, tokens_of_spellsTokens hs hchain,
    State.foldl_tokens v hv [] _ fun _ ht => State.step_value ht []]
  rfl

/-! ### Written values -/

mutual

/-- What a written value is read as. -/
def Reading.ofJson : Json → Reading
  | Json.null => .null
  | Json.bool b => .bool b
  | Json.number n => .number n.reread
  | Json.string s => .string (.ok s)
  | Json.array items => .array (ofItems items) .closed
  | Json.object members => .object (ofMembers members) .closed

/-- What written items are read as. -/
def Reading.ofItems : List Json → List Reading
  | [] => []
  | item :: items => ofJson item :: ofItems items

/-- What written members are read as. -/
def Reading.ofMembers : List (String × Json) → List (Key × Reading)
  | [] => []
  | (key, value) :: members => (.ok key, ofJson value) :: ofMembers members

end

namespace Reading

theorem ofItems_eq (items : List Json) : ofItems items = items.map ofJson := by
  induction items with
  | nil => rfl
  | cons item items ih => rw [ofItems, ih, List.map_cons]

theorem ofMembers_eq (members : List (String × Json)) :
    ofMembers members = members.map fun m => (.ok m.1, ofJson m.2) := by
  induction members with
  | nil => rfl
  | cons m members ih => rw [ofMembers, ih, List.map_cons]

mutual

theorem complete_ofJson (j : Json) : (ofJson j).Complete := by
  match j with
  | .null => exact .null
  | .bool b => exact .bool b
  | .number n => exact .number _
  | .string s => exact .string _
  | .array items => exact .array (complete_ofItems items)
  | .object members => exact .object (complete_ofMembers members)

theorem complete_ofItems (items : List Json) : ∀ v ∈ ofItems items, v.Complete := by
  match items with
  | [] => exact nofun
  | item :: items =>
      exact List.forall_mem_cons.mpr ⟨complete_ofJson item, complete_ofItems items⟩

theorem complete_ofMembers (members : List (String × Json)) :
    ∀ m ∈ ofMembers members, m.2.Complete := by
  match members with
  | [] => exact nofun
  | (_, value) :: members =>
      exact List.forall_mem_cons.mpr ⟨complete_ofJson value, complete_ofMembers members⟩

end

end Reading

theorem codeUnit?_hexDigit : ∀ n < 0x20,
    codeUnit? '0' '0' (hexDigit (n / 16)) (hexDigit (n % 16)) = some n := by decide

/-- A character is written as it is or as an escape that stands for it. -/
theorem spells_escape (c : Char) : SpellsPiece (.char c) (escape c) ∨
    units c = [c.toNat] ∧ SpellsPiece (.unit c.toNat) (escape c) := by
  unfold escape
  split
  case h_8 hquote hslash _ _ _ _ _ =>
    split
    · rename_i hlt
      exact .inr ⟨if_pos (hlt.trans (by decide)), .unit (codeUnit?_hexDigit _ hlt)⟩
    · rename_i hge
      exact .inl (.plain hquote hslash hge)
  -- the characters that are escaped by a letter
  all_goals exact .inl (.letter rfl)

theorem spells_escapes (s : List Char) :
    ∃ ps, Renders s ps ∧ SpellsPieces ps (s.flatMap escape) := by
  induction s with
  | nil => exact ⟨[], .nil, .nil⟩
  | cons c s ih =>
      obtain ⟨ps, hrenders, hspells⟩ := ih
      rw [List.flatMap_cons]
      rcases spells_escape c with h | ⟨hunits, h⟩
      · exact ⟨_, .char c hrenders, .cons h hspells⟩
      · have hunit := Renders.units c hrenders
        rw [hunits] at hunit
        exact ⟨_, hunit, .cons h hspells⟩

theorem spells_quote (s : String) : Token.Spells (.string (.ok s)) (quote s) := by
  obtain ⟨ps, hrenders, hspells⟩ := spells_escapes s.toList
  exact .text hrenders hspells

theorem spells_number (n : Number) : Token.Spells (.number n.reread) n.text :=
  n.toNumber_numeral ▸ .number n.wellFormed_numeral n.spells_numeral

theorem isBlank_newLine (depth : Nat) : IsBlank (newLine depth) := by
  intro c hc
  rcases List.mem_cons.mp hc with rfl | hc
  · decide
  · rw [List.eq_of_mem_replicate hc]
    decide

section

open Reading SpellsTokens

mutual

/-- The form with a line per item and member is a text of the value. -/
theorem spells_prettyAt (depth : Nat) (j : Json) {ts : List Token} {s : List Char}
    (hs : SpellsTokens ts s) :
    SpellsTokens ((ofJson j).tokens ++ ts) (prettyAt depth j ++ s) := by
  match j with
  | .null => exact token .null hs
  | .bool b => exact token (.bool b) hs
  | .number n => exact token (spells_number n) hs
  | .string text => exact token (spells_quote text) hs
  | .array [] =>
      simp only [prettyAt, ofJson, ofItems, Reading.tokens, List.cons_append, List.nil_append]
      exact token .openBracket (token .closeBracket hs)
  | .array (item :: items) =>
      simp only [prettyAt, ofJson, ofItems, Reading.tokens, List.cons_append, List.append_assoc]
      exact token .openBracket (append_blank (isBlank_newLine _)
        (spells_prettyAt _ item (spells_prettyItems depth items hs)))
  | .object [] =>
      simp only [prettyAt, ofJson, ofMembers, Reading.tokens, List.cons_append, List.nil_append]
      exact token .openBrace (token .closeBrace hs)
  | .object ((key, value) :: members) =>
      simp only [prettyAt, ofJson, ofMembers, Reading.tokens, List.cons_append, List.append_assoc]
      exact token .openBrace (append_blank (isBlank_newLine _) (token (spells_quote key)
        (token .colon (append_blank (isBlank_singleton rfl)
          (spells_prettyAt _ value (spells_prettyMembers depth members hs))))))

theorem spells_prettyItems (depth : Nat) (items : List Json) {ts : List Token} {s : List Char}
    (hs : SpellsTokens ts s) :
    SpellsTokens (tokensOfItems (ofItems items) ++ ts) (prettyItems depth items ++ s) := by
  match items with
  | [] =>
      simp only [prettyItems, List.append_assoc]
      exact append_blank (isBlank_newLine _) (token .closeBracket hs)
  | item :: items =>
      simp only [prettyItems, ofItems, tokensOfItems, List.cons_append, List.append_assoc]
      exact token .comma (append_blank (isBlank_newLine _)
        (spells_prettyAt _ item (spells_prettyItems depth items hs)))

theorem spells_prettyMembers (depth : Nat) (members : List (String × Json)) {ts : List Token}
    {s : List Char} (hs : SpellsTokens ts s) :
    SpellsTokens (tokensOfMembers (ofMembers members) ++ ts) (prettyMembers depth members ++ s) := by
  match members with
  | [] =>
      simp only [prettyMembers, List.append_assoc]
      exact append_blank (isBlank_newLine _) (token .closeBrace hs)
  | (key, value) :: members =>
      simp only [prettyMembers, ofMembers, tokensOfMembers, List.cons_append, List.append_assoc]
      exact token .comma (append_blank (isBlank_newLine _) (token (spells_quote key)
        (token .colon (append_blank (isBlank_singleton rfl)
          (spells_prettyAt _ value (spells_prettyMembers depth members hs))))))

end

mutual

/-- The form without white space is a text of the value. -/
theorem spells_compact_append (j : Json) {ts : List Token} {s : List Char}
    (hs : SpellsTokens ts s) : SpellsTokens ((ofJson j).tokens ++ ts) (compact j ++ s) := by
  match j with
  | .null => exact token .null hs
  | .bool b => exact token (.bool b) hs
  | .number n => exact token (spells_number n) hs
  | .string text => exact token (spells_quote text) hs
  | .array [] =>
      simp only [compact, ofJson, ofItems, Reading.tokens, List.cons_append, List.nil_append]
      exact token .openBracket (token .closeBracket hs)
  | .array (item :: items) =>
      simp only [compact, ofJson, ofItems, Reading.tokens, List.cons_append, List.append_assoc]
      exact token .openBracket (spells_compact_append item (spells_compactItems items hs))
  | .object [] =>
      simp only [compact, ofJson, ofMembers, Reading.tokens, List.cons_append, List.nil_append]
      exact token .openBrace (token .closeBrace hs)
  | .object ((key, value) :: members) =>
      simp only [compact, ofJson, ofMembers, Reading.tokens, List.cons_append, List.append_assoc]
      exact token .openBrace (token (spells_quote key)
        (token .colon (spells_compact_append value (spells_compactMembers members hs))))

theorem spells_compactItems (items : List Json) {ts : List Token} {s : List Char}
    (hs : SpellsTokens ts s) :
    SpellsTokens (tokensOfItems (ofItems items) ++ ts) (compactItems items ++ s) := by
  match items with
  | [] => exact token .closeBracket hs
  | item :: items =>
      simp only [compactItems, ofItems, tokensOfItems, List.cons_append, List.append_assoc]
      exact token .comma (spells_compact_append item (spells_compactItems items hs))

theorem spells_compactMembers (members : List (String × Json)) {ts : List Token} {s : List Char}
    (hs : SpellsTokens ts s) :
    SpellsTokens (tokensOfMembers (ofMembers members) ++ ts) (compactMembers members ++ s) := by
  match members with
  | [] => exact token .closeBrace hs
  | (key, value) :: members =>
      simp only [compactMembers, ofMembers, tokensOfMembers, List.cons_append, List.append_assoc]
      exact token .comma (token (spells_quote key)
        (token .colon (spells_compact_append value (spells_compactMembers members hs))))

end

end

theorem spells_pretty (j : Json) : (Reading.ofJson j).Spells j.pretty := by
  have h := spells_prettyAt 0 j (.nil (w := []) nofun)
  rwa [List.append_nil, List.append_nil] at h

/-- A value that has been written is read back, and nothing follows it. -/
theorem read_pretty (j : Json) : read j.pretty = (Reading.ofJson j, false) :=
  read_of_spells (Reading.complete_ofJson j) (spells_pretty j)

theorem spells_compact (j : Json) : (Reading.ofJson j).Spells j.compact := by
  have h := spells_compact_append j (.nil (w := []) nofun)
  rwa [List.append_nil, List.append_nil] at h

theorem read_compact (j : Json) : read j.compact = (Reading.ofJson j, false) :=
  read_of_spells (Reading.complete_ofJson j) (spells_compact j)

end PipelineRegistry.Json
