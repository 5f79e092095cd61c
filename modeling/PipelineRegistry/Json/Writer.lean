import PipelineRegistry.Json.Basic

/-! # Writing JSON

Two written forms of a value: `compact` without any white space, and `pretty` with every item and
member on a line of its own, two more spaces in front of it per level, a space behind each colon,
and empty arrays and objects as `[]` and a pair of braces.

In strings the quote, the backslash and the characters below U+0020 are escaped, the usual ones by
their letter and the others by number; every other character is written as it is. -/

namespace PipelineRegistry.Json
open Text

/-- A hexadecimal digit in lower case. -/
def hexDigit (n : Nat) : Char := Nat.digitChar n

/-- How one character is written inside a string. -/
def escape (c : Char) : List Char :=
  match c with
  | '"' => ['\\', '"']
  | '\\' => ['\\', '\\']
  | '\x08' => ['\\', 'b']
  | '\x0c' => ['\\', 'f']
  | '\n' => ['\\', 'n']
  | '\r' => ['\\', 'r']
  | '\t' => ['\\', 't']
  | _ => if c.toNat < 0x20 then
      ['\\', 'u', '0', '0', hexDigit (c.toNat / 16), hexDigit (c.toNat % 16)]
    else [c]

/-- A string with its quotes. -/
def quote (s : String) : List Char := '"' :: s.toList.flatMap escape ++ ['"']

/-- The written form of a truth value. -/
def word (b : Bool) : List Char := if b then "true".toList else "false".toList

/-- A new line at nesting depth `depth`. -/
def newLine (depth : Nat) : List Char := '\n' :: List.replicate (2 * depth) ' '

mutual

/-- The form without white space. -/
def compact : Json → List Char
  | null => "null".toList
  | bool b => word b
  | number n => n.text
  | string s => quote s
  | array [] => ['[', ']']
  | array (item :: items) => '[' :: compact item ++ compactItems items
  | object [] => ['\x7b', '\x7d']
  | object ((key, value) :: members) =>
    '\x7b' :: quote key ++ ':' :: compact value ++ compactMembers members

/-- The items behind the first one, and the closing bracket. -/
def compactItems : List Json → List Char
  | [] => [']']
  | item :: items => ',' :: compact item ++ compactItems items

/-- The members behind the first one, and the closing brace. -/
def compactMembers : List (String × Json) → List Char
  | [] => ['\x7d']
  | (key, value) :: members =>
    ',' :: quote key ++ ':' :: compact value ++ compactMembers members

end

mutual

/-- The form with a line per item and member, for a value at nesting depth `depth`. -/
def prettyAt (depth : Nat) : Json → List Char
  | null => "null".toList
  | bool b => word b
  | number n => n.text
  | string s => quote s
  | array [] => ['[', ']']
  | array (item :: items) =>
    '[' :: newLine (depth + 1) ++ prettyAt (depth + 1) item ++ prettyItems depth items
  | object [] => ['\x7b', '\x7d']
  | object ((key, value) :: members) =>
    '\x7b' :: newLine (depth + 1) ++ quote key ++ ':' :: ' ' :: prettyAt (depth + 1) value ++
      prettyMembers depth members

/-- The items behind the first one, and the closing bracket. -/
def prettyItems (depth : Nat) : List Json → List Char
  | [] => newLine depth ++ [']']
  | item :: items =>
    ',' :: newLine (depth + 1) ++ prettyAt (depth + 1) item ++ prettyItems depth items

/-- The members behind the first one, and the closing brace. -/
def prettyMembers (depth : Nat) : List (String × Json) → List Char
  | [] => newLine depth ++ ['\x7d']
  | (key, value) :: members =>
    ',' :: newLine (depth + 1) ++ quote key ++ ':' :: ' ' :: prettyAt (depth + 1) value ++
      prettyMembers depth members

end

/-- The form with a line per item and member. -/
def pretty (j : Json) : List Char := prettyAt 0 j

end PipelineRegistry.Json
