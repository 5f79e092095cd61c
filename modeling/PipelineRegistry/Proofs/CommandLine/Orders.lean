import Mathlib
import PipelineRegistry.CommandLine.Run
import PipelineRegistry.Proofs.CommandLine.Spelling
import PipelineRegistry.Storage.Session

/-! # What orders ask for

An order is a command that is given at a time.  `Order.Asks` says for each subcommand which operation of
the registry it stands for and where each of its fields goes; `Command.Called` and `Opt.Begun` say by which
words a subcommand is called and how its options are written.  None of them speaks of the functions and
tables by which the tool finds its way; that the tool goes the same way is `Order.asks_iff`,
`Command.called_iff` and `Setting.spelled_iff`. -/

namespace PipelineRegistry.CommandLine

open Calendar

/-- A command and the time at which it is given. -/
structure Order where
  now : Timestamp
  command : Command

namespace Order

/-- The call of an open handle that an order stands for.  A pipeline is registered with the time of the
order, and every operation is performed at this time.  `tree` is a look at the registry. -/
inductive Asks : Order → Call → Prop
  | addGroup {now : Timestamp} {name : String} {tag description : Option String} :
      Asks ⟨now, .change (.addGroup { name, tag, description })⟩
        ⟨now, .change (.createGroup { name, tag, description })⟩
  | addProject {now : Timestamp} {group : GroupId} {name : String}
      {tag description : Option String} :
      Asks ⟨now, .change (.addProject { group, name, tag, description })⟩
        ⟨now, .change (.createProject { group, name, tag, description })⟩
  | addPipeline {now : Timestamp} {project : ProjectId} {pipeline : PipelineId} {name : String}
      {easefile pipelineFile : Path} {tag description : Option String} :
      Asks ⟨now, .change
          (.addPipeline { project, pipeline, name, easefile, pipelineFile, tag, description })⟩
        ⟨now, .change (.createPointer
          { project, pipeline, name, easefile, pipelineFile, tag, description, created := now })⟩
  | removeGroup {now : Timestamp} {group : GroupId} {hard : Bool} :
      Asks ⟨now, .change (.removeGroup group hard)⟩ ⟨now, .change (.deleteGroup group hard)⟩
  | removeProject {now : Timestamp} {group : GroupId} {project : ProjectId} {hard : Bool} :
      Asks ⟨now, .change (.removeProject group project hard)⟩
        ⟨now, .change (.deleteProject group project hard)⟩
  | removePipeline {now : Timestamp} {project : ProjectId} {pointer : PointerId} :
      Asks ⟨now, .change (.removePipeline project pointer)⟩
        ⟨now, .change (.deletePointer project pointer)⟩
  | renameGroup {now : Timestamp} {group : GroupId} {name : String} :
      Asks ⟨now, .change (.editGroup group (.rename name))⟩
        ⟨now, .change (.editGroup group (.rename name))⟩
  | tagGroup {now : Timestamp} {group : GroupId} {tag : String} :
      Asks ⟨now, .change (.editGroup group (.tag tag))⟩
        ⟨now, .change (.editGroup group (.tag tag))⟩
  | describeGroup {now : Timestamp} {group : GroupId} {description : String} :
      Asks ⟨now, .change (.editGroup group (.describe description))⟩
        ⟨now, .change (.editGroup group (.describe description))⟩
  | renameProject {now : Timestamp} {project : ProjectId} {name : String} :
      Asks ⟨now, .change (.editProject project (.rename name))⟩
        ⟨now, .change (.editProject project (.rename name))⟩
  | tagProject {now : Timestamp} {project : ProjectId} {tag : String} :
      Asks ⟨now, .change (.editProject project (.tag tag))⟩
        ⟨now, .change (.editProject project (.tag tag))⟩
  | describeProject {now : Timestamp} {project : ProjectId} {description : String} :
      Asks ⟨now, .change (.editProject project (.describe description))⟩
        ⟨now, .change (.editProject project (.describe description))⟩
  | renamePipeline {now : Timestamp} {project : ProjectId} {pointer : PointerId} {name : String} :
      Asks ⟨now, .change (.editPipeline project pointer (.rename name))⟩
        ⟨now, .change (.editPointer project pointer (.rename name))⟩
  | tagPipeline {now : Timestamp} {project : ProjectId} {pointer : PointerId} {tag : String} :
      Asks ⟨now, .change (.editPipeline project pointer (.tag tag))⟩
        ⟨now, .change (.editPointer project pointer (.tag tag))⟩
  | describePipeline {now : Timestamp} {project : ProjectId} {pointer : PointerId}
      {description : String} :
      Asks ⟨now, .change (.editPipeline project pointer (.describe description))⟩
        ⟨now, .change (.editPointer project pointer (.describe description))⟩
  | tree {now : Timestamp} {json : Bool} : Asks ⟨now, .tree json⟩ ⟨now, .read⟩

/-- The call that the tool makes for an order. -/
def call (order : Order) : Call where
  now := order.now
  request := match order.command with
    | .change c => .change (c.operation order.now)
    | .tree _ => .read

theorem asks_change (now : Timestamp) (c : Change) :
    Asks ⟨now, .change c⟩ ⟨now, .change (c.operation now)⟩ := by
  cases c with
  | addGroup request => exact .addGroup
  | addProject request => exact .addProject
  | addPipeline registration => exact .addPipeline
  | removeGroup g hard => exact .removeGroup
  | removeProject g p hard => exact .removeProject
  | removePipeline p q => exact .removePipeline
  | editGroup g edit =>
      cases edit with
      | rename name => exact .renameGroup
      | tag value => exact .tagGroup
      | describe value => exact .describeGroup
  | editProject p edit =>
      cases edit with
      | rename name => exact .renameProject
      | tag value => exact .tagProject
      | describe value => exact .describeProject
  | editPipeline p q edit =>
      cases edit with
      | rename name => exact .renamePipeline
      | tag value => exact .tagPipeline
      | describe value => exact .describePipeline

/-- An order asks for one call, and the tool makes this call. -/
theorem asks_iff {order : Order} {call : Call} : order.Asks call ↔ call = order.call := by
  constructor
  · intro h
    cases h <;> rfl
  · rintro rfl
    obtain ⟨now, command⟩ := order
    cases command with
    | change c => exact asks_change now c
    | tree json => exact .tree

theorem forall₂_asks_iff {orders : List Order} {calls : List Call} :
    orders.Forall₂ Asks calls ↔ calls = orders.map call := by
  have hasks : Asks = fun order call => order.call = call := by
    funext order call
    exact propext (asks_iff.trans eq_comm)
  rw [hasks, ← List.forall₂_map_left_iff, List.forall₂_eq_eq_eq, eq_comm]

end Order

/-! ### Arguments -/

/-- The words that call a command. -/
inductive Command.Called : Command → List String → Prop
  | addGroup {request : NewGroup} : Called (.change (.addGroup request)) ["group", "add"]
  | removeGroup {g : GroupId} {hard : Bool} :
      Called (.change (.removeGroup g hard)) ["group", "rm"]
  | renameGroup {g : GroupId} {name : String} :
      Called (.change (.editGroup g (.rename name))) ["group", "rename"]
  | tagGroup {g : GroupId} {tag : String} :
      Called (.change (.editGroup g (.tag tag))) ["group", "tag"]
  | describeGroup {g : GroupId} {description : String} :
      Called (.change (.editGroup g (.describe description))) ["group", "describe"]
  | addProject {request : NewProject} :
      Called (.change (.addProject request)) ["project", "add"]
  | removeProject {g : GroupId} {p : ProjectId} {hard : Bool} :
      Called (.change (.removeProject g p hard)) ["project", "rm"]
  | renameProject {p : ProjectId} {name : String} :
      Called (.change (.editProject p (.rename name))) ["project", "rename"]
  | tagProject {p : ProjectId} {tag : String} :
      Called (.change (.editProject p (.tag tag))) ["project", "tag"]
  | describeProject {p : ProjectId} {description : String} :
      Called (.change (.editProject p (.describe description))) ["project", "describe"]
  | addPipeline {registration : Registration} :
      Called (.change (.addPipeline registration)) ["pipeline", "add"]
  | removePipeline {p : ProjectId} {q : PointerId} :
      Called (.change (.removePipeline p q)) ["pipeline", "rm"]
  | renamePipeline {p : ProjectId} {q : PointerId} {name : String} :
      Called (.change (.editPipeline p q (.rename name))) ["pipeline", "rename"]
  | tagPipeline {p : ProjectId} {q : PointerId} {tag : String} :
      Called (.change (.editPipeline p q (.tag tag))) ["pipeline", "tag"]
  | describePipeline {p : ProjectId} {q : PointerId} {description : String} :
      Called (.change (.editPipeline p q (.describe description))) ["pipeline", "describe"]
  | tree {json : Bool} : Called (.tree json) ["tree"]

theorem Change.called (c : Change) : (Command.change c).Called c.form.words := by
  cases c with
  | addGroup request => exact .addGroup
  | addProject request => exact .addProject
  | addPipeline registration => exact .addPipeline
  | removeGroup g hard => exact .removeGroup
  | removeProject g p hard => exact .removeProject
  | removePipeline p q => exact .removePipeline
  | editGroup g edit =>
      cases edit with
      | rename name => exact .renameGroup
      | tag value => exact .tagGroup
      | describe value => exact .describeGroup
  | editProject p edit =>
      cases edit with
      | rename name => exact .renameProject
      | tag value => exact .tagProject
      | describe value => exact .describeProject
  | editPipeline p q edit =>
      cases edit with
      | rename name => exact .renamePipeline
      | tag value => exact .tagPipeline
      | describe value => exact .describePipeline

/-- The words that call a command are those of its form. -/
theorem Command.called_iff {c : Command} {words : List String} :
    c.Called words ↔ words = c.form.words := by
  constructor
  · intro h
    cases h <;> rfl
  · rintro rfl
    cases c with
    | change c => exact c.called
    | tree json => exact .tree

/-- The argument that gives an option begins like this, and ends with the text of its value.  A flag is
given by its name alone. -/
inductive Opt.Begun : Opt → String → Prop
  | home : Begun .home "--home="
  | tag : Begun .tag "--tag="
  | description : Begun .description "--description="
  | group : Begun .group "--group="
  | project : Begun .project "--project="
  | pipelineId : Begun .pipelineId "--pipeline-id="
  | name : Begun .name "--name="
  | easefile : Begun .easefile "--easefile="
  | pipelineFile : Begun .pipelineFile "--pipeline-file="
  | hard : Begun .hard "--hard"
  | json : Begun .json "--json"

/-- The argument gives the option its value. -/
def Setting.Spelled (x : Setting) (arg : String) : Prop :=
  ∃ start text, x.option.Begun start ∧ x.option.text? x.value = some text ∧ arg = start ++ text

/-- An option is spelled as the argument for it. -/
theorem Setting.spelled_iff {x : Setting} {arg : String} :
    x.Spelled arg ↔ x.argument? = some arg := by
  rw [Setting.argument?, Option.map_eq_some_iff]
  obtain ⟨option, value⟩ := x
  constructor
  · rintro ⟨start, text, hstart, htext, rfl⟩
    refine ⟨text, htext, ?_⟩
    cases hstart with
    | hard | json =>
        cases htext
        rfl
    | _ => rfl
  · rintro ⟨text, htext, rfl⟩
    cases option with
    | home => exact ⟨_, text, .home, htext, rfl⟩
    | tag => exact ⟨_, text, .tag, htext, rfl⟩
    | description => exact ⟨_, text, .description, htext, rfl⟩
    | group => exact ⟨_, text, .group, htext, rfl⟩
    | project => exact ⟨_, text, .project, htext, rfl⟩
    | pipelineId => exact ⟨_, text, .pipelineId, htext, rfl⟩
    | name => exact ⟨_, text, .name, htext, rfl⟩
    | easefile => exact ⟨_, text, .easefile, htext, rfl⟩
    | pipelineFile => exact ⟨_, text, .pipelineFile, htext, rfl⟩
    | hard =>
        cases htext
        exact ⟨_, "", .hard, rfl, rfl⟩
    | json =>
        cases htext
        exact ⟨_, "", .json, rfl, rfl⟩

/-- The arguments mean a command on the registry below `home`. -/
def Environment.Understands (e : Environment) (home : Path) (args : List String) (c : Command) :
    Prop :=
  ∃ invocation, readArguments e.registryHome args = .ok invocation ∧ invocation.command = c ∧
    invocation.home.or e.userHome = some home

/-- The arguments spell a command on the registry below `home`: they are the words that call it, its
options and its positional arguments.  The environment may give an empty home directory nowhere. -/
def Environment.Spells (e : Environment) (home : Path) (args : List String) (c : Command) : Prop :=
  ∃ (given : Option Path) (settings : List Setting) (words options : List String),
    c.Called words ∧ Invocation.Gives ⟨given, c⟩ settings ∧
    settings.Forall₂ Setting.Spelled options ∧
    args = words ++ options ++ "--" :: c.positionals.map Positional.argument ∧
    (given.or e.registryHome).or e.userHome = some home ∧ e.registryHome.any Path.isEmpty = false

variable {e : Environment} {home home' : Path} {args : List String} {command command' : Command}

/-- Arguments mean one command at most, for the registry below one directory. -/
theorem Environment.Understands.unique (hargs : e.Understands home args command)
    (hargs' : e.Understands home' args command') : home' = home ∧ command' = command := by
  obtain ⟨invocation, hread, rfl, hhome⟩ := hargs
  obtain ⟨invocation', hread', rfl, hhome'⟩ := hargs'
  obtain rfl : invocation = invocation' := Except.ok.inj (hread.symm.trans hread')
  exact ⟨Option.some_inj.mp (hhome'.symm.trans hhome), rfl⟩

/-- What is spelled is understood. -/
theorem Environment.Spells.understands (hargs : e.Spells home args command) :
    e.Understands home args command := by
  obtain ⟨given, settings, words, options, hwords, hgives, hoptions, rfl, hhome, hempty⟩ := hargs
  obtain rfl := Command.called_iff.mp hwords
  have hoptions : settings.mapM Setting.argument? = some options :=
    Chain.mapM_eq_some.mpr (hoptions.imp fun _ _ => Setting.spelled_iff.mp)
  refine ⟨⟨given.or e.registryHome, command⟩, ?_, rfl, hhome⟩
  rw [hgives.readArguments_eq (congrArg (Option.map _) hoptions), hempty]
  rfl

end PipelineRegistry.CommandLine
