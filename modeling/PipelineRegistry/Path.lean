import PipelineRegistry.Text.Lossy

/-! # Paths

A path is a string of bytes, read as `/`-separated components.  Repeated separators and `.`
components stand for nothing, except that a relative path may begin with one `.`.  The functions
here are purely textual: `parent`, `fileName`, `join` and `withFileName` never look at a disk, and
they cut or extend the bytes of the path they are given instead of normalising it.  Two spellings of
the same components are different paths, which `agrees` does not tell apart. -/

namespace PipelineRegistry

/-- A path as its bytes, which need not be UTF-8. -/
structure Path where
  bytes : List UInt8
deriving DecidableEq, Repr

namespace Path

/-- The separator between components. -/
def separator : UInt8 := 0x2f

/-- The byte of a dot. -/
def dot : UInt8 := 0x2e

/-- The path written as `s`. -/
def ofString (s : String) : Path := ⟨s.toUTF8.data.toList⟩

/-- The path as text, unless its bytes are not UTF-8. -/
def text? (p : Path) : Option String := String.fromUTF8? ⟨p.bytes.toArray⟩

/-- The path as it is shown in messages, where bytes that are not UTF-8 become U+FFFD. -/
def display (p : Path) : String := Text.lossy p.bytes

/-- Whether the path has no bytes at all. -/
def isEmpty (p : Path) : Bool := p.bytes.isEmpty

/-- Splits bytes at every separator: one piece more than there are separators. -/
def pieces : List UInt8 → List (List UInt8)
  | [] => [[]]
  | b :: rest =>
    if b = separator then [] :: pieces rest
    else match pieces rest with
      | [] => [[b]]
      | piece :: others => (b :: piece) :: others

/-- Writes pieces with separators between them. -/
def joined : List (List UInt8) → List UInt8
  | [] => []
  | [piece] => piece
  | piece :: others => piece ++ separator :: joined others

/-- The part in front of the components: `/`, a leading `.`, or nothing. -/
def anchor (p : Path) : List UInt8 :=
  match p.bytes with
  | [] => []
  | [b] => if b = separator ∨ b = dot then [b] else []
  | b :: c :: _ => if b = separator ∨ (b = dot ∧ c = separator) then [b] else []

/-- The pieces behind the anchor. -/
def body (p : Path) : List (List UInt8) := pieces (p.bytes.drop p.anchor.length)

/-- Whether a piece stands for nothing. -/
def isSkipped (piece : List UInt8) : Bool := piece = [] ∨ piece = [dot]

/-- Cuts the pieces that stand for nothing off the end. -/
def trimmed (ps : List (List UInt8)) : List (List UInt8) := (ps.reverse.dropWhile isSkipped).reverse

/-- The components: the part in front, and the pieces behind it that stand for something. -/
def components (p : Path) : List UInt8 × List (List UInt8) :=
  (p.anchor, p.body.filter (!isSkipped ·))

/-- Whether two paths have the same components. -/
def agrees (p q : Path) : Bool := p.components == q.components

/-- The last component behind the anchor. -/
def last? (p : Path) : Option (List UInt8) := (trimmed p.body).getLast?

/-- The path without its last component; the root and the empty path have none. -/
def parent (p : Path) : Option Path :=
  match trimmed p.body with
  | [] => if p.anchor = [dot] then some ⟨[]⟩ else none
  | ps => some ⟨p.anchor ++ joined (trimmed ps.dropLast)⟩

/-- The last component, if it is a name and not `..`. -/
def fileName (p : Path) : Option (List UInt8) := p.last?.filter (· ≠ [dot, dot])

/-- Appends `q`: separated by `/` unless the left side is empty or ends in one; an absolute `q`
replaces the left side. -/
def join (p q : Path) : Path :=
  if q.bytes.head? = some separator then q
  else if p.bytes = [] ∨ p.bytes.getLast? = some separator then ⟨p.bytes ++ q.bytes⟩
  else ⟨p.bytes ++ separator :: q.bytes⟩

/-- Puts `name` in the place of the file name, or appends it where there is no file name. -/
def withFileName (p : Path) (name : List UInt8) : Path :=
  match p.fileName, p.parent with
  | some _, some dir => join dir ⟨name⟩
  | _, _ => join p ⟨name⟩

end Path
end PipelineRegistry
