/-! # Styles of text on a terminal

A styled text stands between the sequence that begins its style and the one that ends all styles.  A
text that ends all styles itself takes up its style again.  Where colours are not wanted a text
stays as it is. -/

namespace PipelineRegistry.CommandLine

/-- A style of text. -/
inductive Style where
  | green
  | yellow
  | bold
  | dimmed
deriving DecidableEq, Repr

/-- The sequence that begins a style. -/
def Style.opening : Style → String
  | green => "\x1b[32m"
  | yellow => "\x1b[33m"
  | bold => "\x1b[1m"
  | dimmed => "\x1b[2m"

/-- The sequence that ends all styles. -/
def Style.closing : String := "\x1b[0m"

/-- Takes up a style again wherever a text ends all styles. -/
def Style.resumed (style : Style) : List Char → List Char
  | '\x1b' :: '[' :: '0' :: 'm' :: cs =>
    closing.toList ++ style.opening.toList ++ style.resumed cs
  | c :: cs => c :: style.resumed cs
  | [] => []

/-- A text in a style. -/
def Style.apply (style : Style) (colours : Bool) (s : String) : String :=
  if colours then style.opening ++ String.ofList (style.resumed s.toList) ++ closing else s

/-- Whether colours are wanted, after three variables of the environment.  `force` asks for them unless
it is `0`; otherwise any `refusal` forbids them, and a terminal has them unless `wish` is `0`. -/
def wantsColours (force refusal wish : Option String) (isTerminal : Bool) : Bool :=
  if force.any (· ≠ "0") then true
  else if refusal.isSome then false
  else isTerminal && wish.all (· ≠ "0")

end PipelineRegistry.CommandLine
