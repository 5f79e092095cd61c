import PipelineRegistry.Calendar.Timestamp
import PipelineRegistry.Text.Blank

/-! # Reading timestamps

The accepted form is year, month and day with `-` between them, `T`, `t` or white space, then hour,
minute and second with `:` between them, an optional fraction and an offset from universal time:
`Z`, `z`, `UTC`, or a sign with hours and minutes.  White space is allowed in front of most parts.

A text is read from left to right, and each number is checked against its range as soon as it has
been read, so the first fault of the text is the one reported. -/

namespace PipelineRegistry.Calendar
open Text

/-- Why a text is not a timestamp. -/
inductive DateError where
  /-- A number is outside its range. -/
  | outOfRange
  /-- No instant that can be recorded has this local time. -/
  | impossible
  /-- A character stands where none like it may stand. -/
  | invalid
  /-- The text ends too early. -/
  | tooShort
  /-- Something follows the timestamp. -/
  | trailing
deriving DecidableEq, Repr

/-- The wording of a fault. -/
def DateError.message : DateError → String
  | .outOfRange => "input is out of range"
  | .impossible => "no possible date and time matching input"
  | .invalid => "input contains invalid characters"
  | .tooShort => "premature end of input"
  | .trailing => "trailing input"

namespace Timestamp

/-- Reads a number of at least one and at most `places` digits. -/
def readNumber (places : Nat) (s : List Char) : Except DateError (Nat × List Char) :=
  match s, (s.take places).takeWhile isDigit with
  | [], _ => .error .tooShort
  | _, [] => .error .invalid
  | _, ds => .ok (value ds, s.drop ds.length)

/-- Reads a number of one or two digits between `low` and `high`, after white space. -/
def readField (low high : Nat) (s : List Char) : Except DateError (Nat × List Char) := do
  let (n, rest) ← readNumber 2 (skipBlanks s)
  if low ≤ n ∧ n ≤ high then return (n, rest) else throw .outOfRange

/-- Reads the character `c` after white space. -/
def readMark (c : Char) (s : List Char) : Except DateError (List Char) :=
  match skipBlanks s with
  | [] => .error .tooShort
  | d :: rest => if d = c then .ok rest else .error .invalid

/-- Reads a year: at most four digits, or a sign and any number of digits. -/
def readYear (s : List Char) : Except DateError (Int × List Char) :=
  match skipBlanks s with
  | '-' :: rest => do
    let (n, rest) ← readNumber rest.length rest
    if n ≤ 2147483648 then return (-(n : Int), rest) else throw .outOfRange
  | '+' :: rest => do
    let (n, rest) ← readNumber rest.length rest
    if n < 2147483648 then return ((n : Int), rest) else throw .outOfRange
  | rest => do
    let (n, rest) ← readNumber 4 rest
    return ((n : Int), rest)

/-- Reads what stands between date and time; white space is left to the hour. -/
def readSeparator (s : List Char) : Except DateError (List Char) :=
  match s with
  | [] => .error .tooShort
  | c :: rest =>
    if c = 'T' ∨ c = 't' then .ok rest else if isBlank c then .ok s else .error .invalid

/-- Reads an optional fraction of a second; digits after the ninth are passed over. -/
def readFraction (s : List Char) : Except DateError (Nat × List Char) :=
  match s with
  | '.' :: rest => do
    let (n, behind) ← readNumber 9 rest
    return (n * Nat.pow 10 (9 - (rest.length - behind.length)), behind.dropWhile isDigit)
  | _ => .ok (0, s)

/-- Reads the two digits of the hours of an offset. -/
def readOffsetHours (s : List Char) : Except DateError (Nat × List Char) :=
  match s with
  | [] => .error .tooShort
  | [c] => .error (if c.utf8Size < 2 then .tooShort else .invalid)
  | c :: d :: rest =>
    if isDigit c && isDigit d then .ok (value [c, d], rest) else .error .invalid

/-- Reads the two digits of the minutes of an offset. -/
def readOffsetMinutes (s : List Char) : Except DateError (Nat × List Char) := do
  let (n, rest) ← readOffsetHours s
  if n < 60 then return (n, rest) else throw .outOfRange

/-- Reads hours and minutes of an offset, with colons and white space between them. -/
def readOffsetMagnitude (s : List Char) : Except DateError (Nat × List Char) := do
  let (hours, rest) ← readOffsetHours s
  let (minutes, rest) ← readOffsetMinutes (rest.dropWhile fun c => c = ':' || isBlank c)
  return (hours * 60 + minutes, rest)

/-- Reads the offset from universal time, in minutes. -/
def readOffset (s : List Char) : Except DateError (Int × List Char) :=
  if (s.take 3).map Char.toLower = ['u', 't', 'c'] then .ok (0, s.drop 3)
  else match s with
    | [] => .error .tooShort
    | c :: rest =>
      if c = 'Z' ∨ c = 'z' then .ok (0, rest)
      else if c = '+' then do
        let (n, rest) ← readOffsetMagnitude rest
        return ((n : Int), rest)
      else if c = '-' ∨ c = '\u2212' then do
        let (n, rest) ← readOffsetMagnitude rest
        return (-(n : Int), rest)
      else .error .invalid

/-- The instant at which clocks that are `offset` minutes ahead of universal time show `t`. -/
def ofLocal (t : Timestamp) (offset : Int) : Except DateError Timestamp :=
  if offset.natAbs ≥ minutesPerDay ∨ ¬ t.date.IsValid then .error .outOfRange
  else
    let minute := (t.minute : Int) - offset
    let date := if minute < 0 then t.date.previous
      else if minute < minutesPerDay then t.date else t.date.next
    if date.IsValid then .ok { t with date, minute := (minute % minutesPerDay).toNat }
    else .error .impossible

/-- Reads a timestamp. -/
def parse (s : List Char) : Except DateError Timestamp := do
  let (year, s) ← readYear s
  let s ← readMark '-' s
  let (month, s) ← readField 1 12 s
  let s ← readMark '-' s
  let (day, s) ← readField 1 31 s
  let s ← readSeparator s
  let (hour, s) ← readField 0 23 s
  let s ← readMark ':' s
  let (minute, s) ← readField 0 59 s
  let s ← readMark ':' s
  let (second, s) ← readField 0 60 s
  let (nanosecond, s) ← readFraction s
  let (offset, s) ← readOffset (skipBlanks s)
  if skipBlanks s ≠ [] then throw .trailing
  ofLocal ⟨⟨year, month, day⟩, hour * 60 + minute, second, nanosecond⟩ offset

end Timestamp
end PipelineRegistry.Calendar
