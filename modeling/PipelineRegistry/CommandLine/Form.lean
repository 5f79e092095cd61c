import PipelineRegistry.Entity
import PipelineRegistry.Slots
import PipelineRegistry.Text.Digits

/-! # Forms of commands

A command is called by one word or two: the area that it works in and what it does there.  The words
determine its form: which options it takes, and how many positional arguments of which kind. -/

namespace PipelineRegistry.CommandLine
open Text

/-- The kinds of entities that commands work on. -/
inductive Area where
  | group
  | project
  | pipeline
deriving DecidableEq, Repr

/-- The word for an area. -/
def Area.word : Area → String
  | group => "group"
  | project => "project"
  | pipeline => "pipeline"

/-- All areas. -/
def Area.all : List Area := [group, project, pipeline]

/-- What can be done in an area. -/
inductive Verb where
  | add
  | remove
  | rename
  | tag
  | describe
deriving DecidableEq, Repr

/-- The word for what is done. -/
def Verb.word : Verb → String
  | add => "add"
  | remove => "rm"
  | rename => "rename"
  | tag => "tag"
  | describe => "describe"

/-- All that can be done. -/
def Verb.all : List Verb := [add, remove, rename, tag, describe]

/-- The forms of commands. -/
inductive Form where
  | on (area : Area) (verb : Verb)
  | tree
deriving DecidableEq, Repr

/-- The word for the report on the whole registry. -/
def treeWord : String := "tree"

/-- The words that call a command of a form. -/
def Form.words : Form → List String
  | on area verb => [area.word, verb.word]
  | tree => [treeWord]

/-! ### Values -/

/-- Reads an identifier: digits, perhaps behind one plus sign. -/
def readId? (s : String) : Option UInt64 :=
  let ds := match s.toList with
    | '+' :: rest => rest
    | ds => ds
  if ds ≠ [] ∧ ds.all isDigit ∧ value ds < UInt64.size then some (value ds).toUInt64 else none

/-- Reads a path, which may not be empty. -/
def readPath? (s : String) : Option Path := if s = "" then none else some (.ofString s)

/-- A positional argument. -/
inductive Positional where
  | id (n : UInt64)
  | text (s : String)
deriving DecidableEq, Repr

/-- The kinds of positional arguments. -/
inductive Positional.Kind where
  | id
  | text
deriving DecidableEq, Repr

/-- Reads a positional argument. -/
def Positional.Kind.read? : Kind → String → Option Positional
  | id, s => .id <$> readId? s
  | text, s => some (.text s)

/-! ### Options -/

/-- The options of all commands. -/
inductive Opt where
  | home
  | tag
  | description
  | group
  | project
  | pipelineId
  | name
  | easefile
  | pipelineFile
  | hard
  | json
deriving DecidableEq, Repr

namespace Opt

/-- The name of an option behind two dashes. -/
def word : Opt → String
  | home => "home"
  | tag => "tag"
  | description => "description"
  | group => "group"
  | project => "project"
  | pipelineId => "pipeline-id"
  | name => "name"
  | easefile => "easefile"
  | pipelineFile => "pipeline-file"
  | hard => "hard"
  | json => "json"

/-- The letter of an option behind one dash. -/
def letter? : Opt → Option Char
  | tag => some 't'
  | description => some 'd'
  | group => some 'g'
  | project => some 'p'
  | name => some 'n'
  | home | pipelineId | easefile | pipelineFile | hard | json => none

/-- Whether an option stands alone. -/
def isFlag : Opt → Bool
  | hard | json => true
  | home | tag | description | group | project | pipelineId | name | easefile | pipelineFile => false

/-- The type of the value of an option. -/
@[reducible] def Value : Opt → Type
  | home | easefile | pipelineFile => Path
  | tag | description | pipelineId | name => String
  | group | project => UInt64
  | hard | json => Unit

/-- Reads the value of an option. -/
def read? : (o : Opt) → String → Option o.Value
  | home, s | easefile, s | pipelineFile, s => readPath? s
  | tag, s | description, s | pipelineId, s | name, s => some s
  | group, s | project, s => readId? s
  | hard, _ | json, _ => some ()

end Opt

/-! ### What a form takes -/

namespace Form

/-- The options of a form. -/
def options : Form → List Opt
  | on .group .add => [.tag, .description]
  | on .project .add => [.group, .tag, .description]
  | on .pipeline .add =>
    [.project, .pipelineId, .name, .easefile, .pipelineFile, .tag, .description]
  | on .group .remove => [.hard]
  | on .project .remove => [.group, .hard]
  | on .pipeline .remove => []
  | on _ .rename | on _ .tag | on _ .describe => []
  | tree => [.json]

/-- The positional arguments by which an entity of an area is addressed. -/
def address : Area → List Positional.Kind
  | .group | .project => [.id]
  | .pipeline => [.id, .id]

/-- The positional arguments of a form. -/
def positionals : Form → List Positional.Kind
  | on .pipeline .add => []
  | on _ .add => [.text]
  | on area .remove => address area
  | on area .rename | on area .tag | on area .describe => address area ++ [.text]
  | tree => []

end Form
end PipelineRegistry.CommandLine
