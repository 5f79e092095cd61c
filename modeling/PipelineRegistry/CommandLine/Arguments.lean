import PipelineRegistry.CommandLine.Command

/-! # Reading arguments

Arguments are read one after the other.  Words lead from the top by way of an area to a form; options
belong to the place where they are met, and `--home` is an option of every place.  An option is
written `--name value`, `--name=value`, `-l value`, `-lvalue` or `-l=value`, and a flag `--name`.  A
value that is an argument of its own may not begin with a dash, unless it is a single dash.  Behind
`--` every argument is positional.

Reading stops at the first argument that has no meaning where it stands, and at a request for help
or for the version. -/

namespace PipelineRegistry.CommandLine

/-- Why no command results. -/
inductive Stop where
  | usage
  | help
  | version
deriving DecidableEq, Repr

/-- How far the words have led. -/
inductive Place where
  | top
  | inside (area : Area)
  | at (form : Form)
  /-- Help on help, behind which no word has a meaning. -/
  | help
deriving DecidableEq, Repr

/-- The word that asks for help. -/
def helpWord : String := "help"

/-- The word that asks for the version. -/
def versionWord : String := "version"

namespace Place

/-- The place to which a word leads. -/
def next? : Place → String → Option Place
  | top, word =>
    if word = treeWord then some (.at .tree) else .inside <$> Area.all.find? (·.word = word)
  | inside area, word => (fun verb => .at (.on area verb)) <$> Verb.all.find? (·.word = word)
  | .at _, _ | help, _ => none

/-- The place on which a word asks for help. -/
def topic? (place : Place) (word : String) : Option Place :=
  match place with
  | .at _ | help => none
  | top | inside _ => if word = helpWord then some help else place.next? word

/-- The options of a place. -/
def options : Place → List Opt
  | top | inside _ | help => [.home]
  | .at form => .home :: form.options

/-- The kind of the positional argument with a number. -/
def positional? : Place → Nat → Option Positional.Kind
  | top, _ | inside _, _ | help, _ => none
  | .at form, i => form.positionals[i]?

end Place

/-- What has been read. -/
structure Scan where
  place : Place
  /-- The options of this place. -/
  options : Slots Opt.Value
  positionals : List Positional
  /-- The option whose value comes next. -/
  pending : Option Opt
  /-- Whether `--` has been met. -/
  isEscaped : Bool
  /-- Whether help has been asked for; the words that follow say on what. -/
  isHelping : Bool
  /-- The home directory given at a place that has been left, the last one counting. -/
  outerHome : Option Path
  /-- Whether a place has been left without a home directory. -/
  isHomeOpen : Bool

namespace Scan

/-- Nothing has been read. -/
def start : Scan := ⟨.top, .empty, [], none, false, false, none, false⟩

/-- The home directory that has been given last. -/
def home? (s : Scan) : Option Path := (s.options .home).or s.outerHome

/-- Whether some place is without a home directory. -/
def needsHome (s : Scan) : Bool := s.isHomeOpen || (s.options .home).isNone

/-- Moves on to a place. -/
def enter (s : Scan) (place : Place) : Scan :=
  { s with place, options := .empty, outerHome := s.home?, isHomeOpen := s.needsHome }

/-- Notes the value of an option. -/
def note (s : Scan) (o : Opt) (text : String) : Except Stop Scan :=
  if (s.options o).isSome then .error .usage
  else match o.read? text with
    | none => .error .usage
    | some v => .ok { s with options := s.options.set o v, pending := none }

/-- Notes a positional argument. -/
def notePositional (s : Scan) (arg : String) : Except Stop Scan :=
  match (s.place.positional? s.positionals.length).bind (·.read? arg) with
  | none => .error .usage
  | some v => .ok { s with positionals := s.positionals ++ [v] }

/-- Meets an option with a value if one is attached to it. -/
def meetOption (s : Scan) (o : Opt) : Option (List Char) → Except Stop Scan
  | some attached => if o.isFlag then .error .usage else s.note o (String.ofList attached)
  | none => if o.isFlag then s.note o "" else .ok { s with pending := some o }

/-- Divides what stands behind two dashes at the first equals sign. -/
def divide (cs : List Char) : String × Option (List Char) :=
  (String.ofList (cs.takeWhile (· ≠ '=')),
    match cs.dropWhile (· ≠ '=') with
    | [] => none
    | _ :: attached => some attached)

/-- The first equals sign divides, whatever follows it. -/
theorem divide_append {name : List Char} (h : '=' ∉ name) (attached : List Char) :
    divide (name ++ '=' :: attached) = (String.ofList name, some attached) := by
  have hn : ∀ c ∈ name, decide (c ≠ '=') = true := fun c hc =>
    decide_eq_true fun e => h (e ▸ hc)
  simp only [divide, List.takeWhile_append_of_pos hn, List.dropWhile_append_of_pos hn]
  simp

/-- Without an equals sign all is name. -/
theorem divide_of_not_mem {name : List Char} (h : '=' ∉ name) :
    divide name = (String.ofList name, none) := by
  have hn : ∀ c ∈ name, decide (c ≠ '=') = true := fun c hc =>
    decide_eq_true fun e => h (e ▸ hc)
  rw [← List.append_nil name]
  simp only [divide, List.takeWhile_append_of_pos hn, List.dropWhile_append_of_pos hn]
  simp

/-- Meets what stands behind two dashes. -/
def meetLong (s : Scan) (cs : List Char) : Except Stop Scan :=
  let (name, attached) := divide cs
  if name = helpWord ∧ attached = none then .error .help
  else if name = versionWord ∧ attached = none ∧ s.place = .top then .error .version
  else match s.place.options.find? (·.word = name) with
    | none => .error .usage
    | some o => s.meetOption o attached

/-- Meets the letter `c` behind one dash and what follows it. -/
def meetShort (s : Scan) (c : Char) (rest : List Char) : Except Stop Scan :=
  if c = 'h' then .error .help
  else if c = 'V' ∧ s.place = .top then .error .version
  else match s.place.options.find? (·.letter? = some c) with
    | none => .error .usage
    | some o => s.meetOption o (match rest with
      | [] => none
      | '=' :: attached => some attached
      | attached => some attached)

/-- Meets an argument that is no option. -/
def meetWord (s : Scan) (arg : String) : Except Stop Scan :=
  match s.place with
  | .at _ => s.notePositional arg
  | place =>
    if arg = helpWord then .ok { s with isHelping := true }
    else match place.next? arg with
      | none => .error .usage
      | some next => .ok (s.enter next)

/-- Meets a word that says on what help is asked for. -/
def meetTopic (s : Scan) (arg : String) : Except Stop Scan :=
  match s.place.topic? arg with
  | none => .error .usage
  | some topic => .ok (s.enter topic)

/-- Reads one argument. -/
def step (s : Scan) (arg : String) : Except Stop Scan :=
  if s.isHelping then s.meetTopic arg
  else match s.pending, s.isEscaped, arg.toList with
    | some o, _, cs => if cs.head? = some '-' ∧ cs ≠ ['-'] then .error .usage else s.note o arg
    | none, true, _ => s.notePositional arg
    | none, false, ['-', '-'] => .ok { s with isEscaped := true }
    | none, false, '-' :: '-' :: cs => s.meetLong cs
    | none, false, '-' :: c :: rest => s.meetShort c rest
    | none, false, _ => s.meetWord arg

/-- The invocation that has been read once no argument is left.  `environment` is the home
directory that the environment gives; it counts where the arguments give none, and may not be empty
where some place would look at it. -/
def finish (environment : Option Path) (s : Scan) : Except Stop Invocation :=
  if s.isHelping then .error .help
  else match s.place, s.pending with
    | .at form, none =>
      match Command.ofArguments? s.options form s.positionals with
      | none => .error .usage
      | some command =>
        if s.needsHome ∧ environment.any (·.isEmpty) then .error .usage
        else .ok ⟨s.home?.or environment, command⟩
    | _, _ => .error .usage

end Scan

/-- Reads the arguments of the tool. -/
def readArguments (environment : Option Path) (args : List String) : Except Stop Invocation := do
  (← args.foldlM Scan.step .start).finish environment

end PipelineRegistry.CommandLine
