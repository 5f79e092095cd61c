import PipelineRegistry.Json.Token

/-! # Reading JSON

A text is read into a `Reading`: the value it stands for, as far as it can be read.  Where the text
breaks off or goes wrong, the reading ends in a `cut` with the fault, and every array and object
that was open at that place is marked as unended with the same fault.  Whoever interprets a reading
in the order of the text therefore meets its own objections and the faults of the text in the order
in which they stand there.

The reader is a machine that takes one token at a time.  Open arrays and objects are kept in a list
of frames, so that nesting has no limit. -/

namespace PipelineRegistry.Json

/-- How the items of an array or the members of an object end. -/
inductive Ending where
  | closed
  /-- The text cannot be read on behind the last item or member. -/
  | cut (fault : Fault)
deriving DecidableEq, Repr

/-- A key: its text, or the report to be made when its text is needed. -/
abbrev Key := Except Malformation String

/-- A value as far as it could be read. -/
inductive Reading where
  | null
  | bool (b : Bool)
  | number (n : Number)
  | string (s : Except Malformation String)
  | array (items : List Reading) (ending : Ending)
  | object (members : List (Key × Reading)) (ending : Ending)
  /-- No value could be read here. -/
  | cut (fault : Fault)

/-- An array or object around the place that is being read; what was read before stands last
first. -/
inductive Frame where
  | item (items : List Reading)
  | member (members : List (Key × Reading)) (key : Key)

/-- What the reader expects next, and what it has read. -/
inductive State where
  /-- A value. -/
  | value (context : List Frame)
  /-- The first item of an array, or its end. -/
  | firstItem (context : List Frame)
  /-- A comma behind an item, or the end of the array. -/
  | afterItem (items : List Reading) (context : List Frame)
  /-- The first key of an object, or its end. -/
  | firstKey (context : List Frame)
  /-- The key behind a comma. -/
  | nextKey (members : List (Key × Reading)) (context : List Frame)
  /-- The colon behind a key. -/
  | colon (members : List (Key × Reading)) (key : Key) (context : List Frame)
  /-- A comma behind a member, or the end of the object. -/
  | afterMember (members : List (Key × Reading)) (context : List Frame)
  /-- Nothing: the value is complete or cut off; `more` tells whether more tokens followed. -/
  | done (value : Reading) (more : Bool)

/-- The whole value when the text cannot be read on behind `v`. -/
def Reading.enclose (fault : Fault) (v : Reading) : List Frame → Reading
  | [] => v
  | .item items :: context => enclose fault (.array (v :: items).reverse (.cut fault)) context
  | .member members key :: context =>
    enclose fault (.object ((key, v) :: members).reverse (.cut fault)) context

/-- The whole value when the text cannot be read on where a value should be. -/
def Reading.cutAtValue (fault : Fault) (context : List Frame) : Reading :=
  enclose fault (.cut fault) context

/-- The whole value when the text cannot be read on behind the items of an array. -/
def Reading.cutInArray (fault : Fault) (items : List Reading) (context : List Frame) : Reading :=
  enclose fault (.array items.reverse (.cut fault)) context

/-- The whole value when the text cannot be read on behind the members of an object. -/
def Reading.cutInObject (fault : Fault) (members : List (Key × Reading)) (context : List Frame) :
    Reading :=
  enclose fault (.object members.reverse (.cut fault)) context

namespace State

/-- Puts a complete value in its place. -/
def deliver (v : Reading) : List Frame → State
  | [] => .done v false
  | .item items :: context => .afterItem (v :: items) context
  | .member members key :: context => .afterMember ((key, v) :: members) context

/-- Takes the first token of a value. -/
def beginValue (context : List Frame) : Token → State
  | .null => deliver .null context
  | .bool b => deliver (.bool b) context
  | .number n => deliver (.number n) context
  | .string s => deliver (.string s) context
  | .openBracket => .firstItem context
  | .openBrace => .firstKey context
  | .badString fault | .bad fault => .done (.cutAtValue fault context) false
  | .closeBrace | .closeBracket | .colon | .comma =>
    .done (.cutAtValue (.same .expectedValue) context) false

/-- Takes a key. -/
def beginMember (members : List (Key × Reading)) (context : List Frame) : Token → State
  | .string key => .colon members key context
  | .badString fault => .done (.cutInObject fault members context) false
  | _ => .done (.cutInObject (.same .keyNotString) members context) false

/-- Takes one token. -/
def step : State → Token → State
  | .value (.item items :: context), .closeBracket =>
    .done (.cutInArray ⟨.trailingComma, .expectedValue⟩ items context) false
  | .value context, t => beginValue context t
  | .firstItem context, .closeBracket => deliver (.array [] .closed) context
  | .firstItem context, t => beginValue (.item [] :: context) t
  | .afterItem items context, .comma => .value (.item items :: context)
  | .afterItem items context, .closeBracket => deliver (.array items.reverse .closed) context
  | .afterItem items context, _ =>
    .done (.cutInArray (.same .expectedCommaOrBracket) items context) false
  | .firstKey context, .closeBrace => deliver (.object [] .closed) context
  | .firstKey context, t => beginMember [] context t
  | .nextKey members context, .closeBrace =>
    .done (.cutInObject ⟨.trailingComma, .keyNotString⟩ members context) false
  | .nextKey members context, t => beginMember members context t
  | .colon members key context, .colon => .value (.member members key :: context)
  | .colon members key context, _ =>
    .done (.cutAtValue (.same .expectedColon) (.member members key :: context)) false
  | .afterMember members context, .comma => .nextKey members context
  | .afterMember members context, .closeBrace =>
    deliver (.object members.reverse .closed) context
  | .afterMember members context, _ =>
    .done (.cutInObject (.same .expectedCommaOrBrace) members context) false
  | .done v _, _ => .done v true

/-- The value that was read when the text ends, and whether anything followed it. -/
def finish : State → Reading × Bool
  | .value context => (.cutAtValue (.same .endInValue) context, false)
  | .firstItem context => (.cutInArray (.same .endInList) [] context, false)
  | .afterItem items context => (.cutInArray (.same .endInList) items context, false)
  | .firstKey context => (.cutInObject (.same .endInObject) [] context, false)
  | .nextKey members context => (.cutInObject ⟨.endInValue, .endInObject⟩ members context, false)
  | .colon members key context =>
    (.cutAtValue (.same .endInObject) (.member members key :: context), false)
  | .afterMember members context => (.cutInObject (.same .endInObject) members context, false)
  | .done v more => (v, more)

end State

/-- The value a text begins with, and whether anything follows it. -/
def read (s : List Char) : Reading × Bool := ((tokens s).foldl State.step (.value [])).finish

end PipelineRegistry.Json
