import PipelineRegistry.Text.Printable

/-! # Quoted text in messages

A text is shown between double quotes.  Quotes and backslashes get a backslash, the usual control
characters their letter, and every other character without a printed form is written as `\u`
followed by its number in hexadecimal between braces. -/

namespace PipelineRegistry.Text

/-- The number of a character in hexadecimal, lower case and without leading zeros. -/
def hexadecimal (c : Char) : String := String.ofList (Nat.toDigits 16 c.toNat)

/-- How one character is shown between quotes. -/
def escape (c : Char) : String :=
  match c with
  | '\x00' => "\\0"
  | '\t' => "\\t"
  | '\r' => "\\r"
  | '\n' => "\\n"
  | '\\' => "\\\\"
  | '"' => "\\\""
  | _ => if isPrintable c then c.toString else "\\u\x7b" ++ hexadecimal c ++ "\x7d"

/-- The text between quotes. -/
def quoted (s : String) : String := "\"" ++ String.join (s.toList.map escape) ++ "\""

end PipelineRegistry.Text
