import PipelineRegistry.Json.Number

/-! # Tokens of a JSON text

A text is cut into tokens with white space between them.  Strings and numbers are resolved here: a
string token carries its text, or the report that a reader who needs the text has to make when its
surrogates do not pair up.  Where the text is not even the start of a token, one last token carries
the fault and nothing follows it. -/

namespace PipelineRegistry.Json
open Text

/-- A smallest part of a JSON text. -/
inductive Token where
  | openBrace
  | closeBrace
  | openBracket
  | closeBracket
  | colon
  | comma
  | null
  | bool (b : Bool)
  | number (n : Number)
  | string (s : Except Malformation String)
  /-- A string that is never closed or holds what a string cannot hold. -/
  | badString (fault : Fault)
  /-- Anything else that begins no token. -/
  | bad (fault : Fault)
deriving Repr

/-! ### Strings -/

/-- A part of a string between its quotes. -/
inductive Piece where
  | char (c : Char)
  /-- A 16-bit unit given by its number in hexadecimal. -/
  | unit (n : Nat)
deriving DecidableEq, Repr

/-- Where and why the scan of a string stops. -/
inductive Stop where
  /-- At the closing quote; `rest` follows it. -/
  | closed (rest : List Char)
  /-- At the end of the text. -/
  | ended
  /-- At a control character. -/
  | control
  /-- At a backslash with a character that makes no escape. -/
  | badEscape
  /-- At an escape with something other than four hexadecimal digits. -/
  | badUnit
deriving DecidableEq, Repr

/-- What is reported about a string that stops before its closing quote. -/
def Stop.malformation : Stop → Malformation
  | closed _ => .unfinishedSurrogate
  | ended => .endInString
  | control => .controlCharacter
  | badEscape | badUnit => .invalidEscape

/-- What is reported when a string stops right behind the first half of a pair. -/
def Stop.afterLead : Stop → Malformation
  | ended => .endInString
  | badUnit => .invalidEscape
  | closed _ | control | badEscape => .unfinishedSurrogate

/-- The value of a hexadecimal digit. -/
def hexValue? (c : Char) : Option Nat :=
  if isDigit c then some (digitValue c)
  else if 'a' ≤ c ∧ c ≤ 'f' then some (c.toNat - 'a'.toNat + 10)
  else if 'A' ≤ c ∧ c ≤ 'F' then some (c.toNat - 'A'.toNat + 10)
  else none

/-- The number that four hexadecimal digits stand for. -/
def codeUnit? (a b c d : Char) : Option Nat := do
  return (((← hexValue? a) * 16 + (← hexValue? b)) * 16 + (← hexValue? c)) * 16 + (← hexValue? d)

/-- The character that a backslash and a letter stand for. -/
def letterEscape? (c : Char) : Option Char :=
  match c with
  | '"' => some '"'
  | '\\' => some '\\'
  | '/' => some '/'
  | 'b' => some '\x08'
  | 'f' => some '\x0c'
  | 'n' => some '\n'
  | 'r' => some '\r'
  | 't' => some '\t'
  | _ => none

/-- Puts a piece in front of what the scan of the rest gave. -/
def Piece.before (p : Piece) (scanned : List Piece × Stop) : List Piece × Stop :=
  (p :: scanned.1, scanned.2)

/-- Scans a string behind its opening quote. -/
def scanString : List Char → List Piece × Stop
  | [] => ([], .ended)
  | c :: rest =>
    if c = '"' then ([], .closed rest)
    else if c = '\\' then
      match rest with
      | [] => ([], .ended)
      | e :: more =>
        if e = 'u' then
          match more with
          | h₁ :: h₂ :: h₃ :: h₄ :: tail =>
            match codeUnit? h₁ h₂ h₃ h₄ with
            | some n => (Piece.unit n).before (scanString tail)
            | none => ([], .badUnit)
          | short => ([], if (short.map Char.utf8Size).foldl (· + ·) 0 < 4 then .ended else .badUnit)
        else
          match letterEscape? e with
          | some d => (Piece.char d).before (scanString more)
          | none => ([], .badEscape)
    else if c.toNat < 0x20 then ([], .control)
    else (Piece.char c).before (scanString rest)

/-- Whether a unit is the first half of a pair. -/
def isLead (n : Nat) : Bool := 0xD800 ≤ n && n < 0xDC00

/-- Whether a unit is the second half of a pair. -/
def isTrail (n : Nat) : Bool := 0xDC00 ≤ n && n < 0xE000

/-- The character that a pair of units stands for. -/
def pairChar (lead trail : Nat) : Char :=
  Char.ofNat (0x10000 + (lead - 0xD800) * 0x400 + (trail - 0xDC00))

/-- The text of a string that stops at `stop`, or the first thing that is wrong with it. -/
def pieceText (stop : Stop) : List Piece → Except Malformation (List Char)
  | [] => match stop with
    | .closed _ => .ok []
    | _ => .error stop.malformation
  | .char c :: ps => (c :: ·) <$> pieceText stop ps
  | .unit n :: ps =>
    if isTrail n then .error .loneSurrogate
    else if isLead n then
      match ps with
      | [] => .error stop.afterLead
      | .char _ :: _ => .error .unfinishedSurrogate
      | .unit m :: more =>
        if isTrail m then (pairChar n m :: ·) <$> pieceText stop more else .error .loneSurrogate
    else (Char.ofNat n :: ·) <$> pieceText stop ps

/-- What is reported about a string that stops at `stop` when its text is needed. -/
def readReport (stop : Stop) (pieces : List Piece) : Malformation :=
  match pieceText stop pieces with
  | .error m => m
  | .ok _ => stop.malformation

/-- The string token behind an opening quote, and what follows it. -/
def lexString (s : List Char) : Token × List Char :=
  match scanString s with
  | (pieces, .closed rest) => (.string ((pieceText (.closed rest) pieces).map String.ofList), rest)
  | (pieces, stop) => (.badString ⟨readReport stop pieces, stop.malformation⟩, [])

/-! ### Numbers and words -/

/-- The number token at the start of a text, and what follows it. -/
def lexNumber (s : List Char) : Token × List Char :=
  match Numeral.scan s with
  | .ok (n, rest) => (.number n.toNumber, rest)
  | .error m => (.bad ⟨m, .invalidNumber⟩, [])

/-- What follows `word` at the start of a text. -/
def scanWord : List Char → List Char → Except Malformation (List Char)
  | [], s => .ok s
  | _ :: _, [] => .error .endInValue
  | w :: word, c :: s => if c = w then scanWord word s else .error .expectedWord

/-- The token that `word` stands for, and what follows it. -/
def lexWord (word : String) (token : Token) (s : List Char) : Token × List Char :=
  match scanWord word.toList s with
  | .ok rest => (token, rest)
  | .error m => (.bad (.same m), [])

/-! ### All tokens -/

/-- Whether a character may stand between tokens. -/
def isSpace (c : Char) : Bool := c = ' ' || c = '\t' || c = '\n' || c = '\r'

/-- The token that begins with `c`, and what follows it. -/
def lexFrom (c : Char) (rest : List Char) : Token × List Char :=
  match c with
  | '\x7b' => (.openBrace, rest)
  | '\x7d' => (.closeBrace, rest)
  | '[' => (.openBracket, rest)
  | ']' => (.closeBracket, rest)
  | ':' => (.colon, rest)
  | ',' => (.comma, rest)
  | '"' => lexString rest
  | 'n' => lexWord "ull" .null rest
  | 't' => lexWord "rue" (.bool true) rest
  | 'f' => lexWord "alse" (.bool false) rest
  | _ => if c = '-' || isDigit c then lexNumber (c :: rest)
    else (.bad (.same .expectedValue), [])

/-- The first token of a text and what follows it. -/
def nextToken? (s : List Char) : Option (Token × List Char) :=
  match s.dropWhile isSpace with
  | [] => none
  | c :: rest => some (lexFrom c rest)

theorem length_of_scanString_closed {s rest : List Char} (h : (scanString s).2 = .closed rest) :
    rest.length < s.length := by
  fun_induction scanString s <;> simp_all [Piece.before] <;> grind

theorem length_lexString_le (s : List Char) : (lexString s).2.length ≤ s.length := by
  unfold lexString
  split
  · rename_i ps rest h
    exact Nat.le_of_lt (length_of_scanString_closed (by rw [h]))
  · simp

theorem length_scanWord_le {word s rest : List Char} (h : scanWord word s = .ok rest) :
    rest.length ≤ s.length := by
  fun_induction scanWord word s <;> grind

theorem length_lexWord_le (word : String) (t : Token) (s : List Char) :
    (lexWord word t s).2.length ≤ s.length := by
  unfold lexWord
  split
  · rename_i h
    exact length_scanWord_le h
  · simp

theorem length_lexNumber_lt {s : List Char} (h : s ≠ []) :
    (lexNumber s).2.length < s.length := by
  unfold lexNumber
  split
  · rename_i h
    exact Numeral.length_scan_lt h
  · exact List.length_pos_iff.2 h

theorem length_lexFrom_le (c : Char) (rest : List Char) :
    (lexFrom c rest).2.length ≤ rest.length := by
  unfold lexFrom
  split <;> try simp
  · exact length_lexString_le rest
  · exact length_lexWord_le _ _ rest
  · exact length_lexWord_le _ _ rest
  · exact length_lexWord_le _ _ rest
  · split
    · exact Nat.le_of_lt_succ (length_lexNumber_lt (List.cons_ne_nil c rest))
    · simp

/-- What follows a token is shorter than the text it was taken from. -/
theorem length_lt_of_nextToken? {s rest : List Char} {t : Token}
    (h : nextToken? s = some (t, rest)) : rest.length < s.length := by
  unfold nextToken? at h
  have hle := (List.dropWhile_sublist isSpace (l := s)).length_le
  split at h
  · simp at h
  · rename_i c more hs
    have := length_lexFrom_le c more
    have heq : lexFrom c more = (t, rest) := by simpa using h
    rw [heq] at this
    rw [hs, List.length_cons] at hle
    exact Nat.lt_of_le_of_lt this hle

/-- The tokens of a text. -/
def tokens (s : List Char) : List Token :=
  match _h : nextToken? s with
  | none => []
  | some (t, rest) => t :: tokens rest
termination_by s.length
decreasing_by exact length_lt_of_nextToken? _h

end PipelineRegistry.Json
