import Mathlib
import PipelineRegistry.CommandLine.Arguments
import PipelineRegistry.Proofs.Chain
import PipelineRegistry.Proofs.Path
import PipelineRegistry.Proofs.Text.Digits

/-! # Invocations are read back as they were spelled

An invocation is spelled by the words of its form, then its options in any order, each as one
argument, and then its positional arguments behind `--`.  An option may be left out where it has the
value that it stands for without.  What is spelled so is read step by step: the words lead to the form,
each option fills the slot of its own, and the positional arguments are taken in their order.  So the
same invocation is read again, whatever its texts look like. -/

namespace PipelineRegistry.CommandLine

open Text

/-! ### Values -/

/-- The text of an identifier. -/
def idText (n : UInt64) : String := String.ofList (digits n.toNat)

theorem readId?_idText (n : UInt64) : readId? (idText n) = some n := by
  have hall : ∀ c ∈ digits n.toNat, isDigit c := fun c hc => isDigit_of_mem_digits hc
  have hvalid : digits n.toNat ≠ [] ∧ (digits n.toNat).all isDigit ∧
      value (digits n.toNat) < UInt64.size := by
    refine ⟨digits_ne_nil, List.all_eq_true.mpr hall, ?_⟩
    rw [value_digits]
    exact n.toNat_lt
  unfold readId?
  extract_lets ds
  have hds : ds = digits n.toNat := by
    subst ds
    rw [idText, String.toList_ofList]
    split
    · rename_i rest hdigits
      -- no digit is a plus sign
      have hplus := hall '+' (by rw [hdigits]; exact List.mem_cons_self)
      exact absurd hplus (by decide)
    · rfl
  rw [← hds] at hvalid
  rw [if_pos hvalid, hds, value_digits]
  exact congrArg some (UInt64.ofNat_toNat (x := n))

namespace Opt

/-- All options. -/
def all : List Opt :=
  [home, tag, description, group, project, pipelineId, name, easefile, pipelineFile, hard, json]

/-- The text of a value of an option.  A path that is empty or not UTF-8 has none. -/
def text? : (o : Opt) → o.Value → Option String
  | home, p | easefile, p | pipelineFile, p => p.text?.filter (· ≠ "")
  | tag, s | description, s | pipelineId, s | name, s => some s
  | group, n | project, n => some (idText n)
  | hard, _ | json, _ => some ""

variable {o : Opt} {v : o.Value} {s : String}

theorem readPath?_of_text? {p : Path} (h : p.text?.filter (· ≠ "") = some s) :
    readPath? s = some p := by
  obtain ⟨htext, hne⟩ := Option.filter_eq_some_iff.mp h
  rw [readPath?, if_neg (by simpa using hne), Path.ofString_of_text? htext]

theorem read?_of_text? (h : o.text? v = some s) : o.read? s = some v := by
  cases o with
  | home | easefile | pipelineFile => exact readPath?_of_text? h
  | tag | description | pipelineId | name =>
      obtain rfl := Option.some_inj.mp h
      rfl
  | group | project =>
      obtain rfl := Option.some_inj.mp h
      exact readId?_idText v
  | hard | json => rfl

theorem isSome_text?_path {p : Path} (h : p.text?.isSome ∧ p.isEmpty = false) :
    (p.text?.filter (· ≠ "")).isSome := by
  obtain ⟨hsome, hfull⟩ := h
  obtain ⟨s, hs⟩ := Option.isSome_iff_exists.mp hsome
  have hne : s ≠ "" := by
    rintro rfl
    rw [← Path.ofString_of_text? hs] at hfull
    exact absurd hfull (by decide)
  rw [hs, Option.filter_some_pos (by simpa using hne)]
  rfl

theorem word_injective {o o' : Opt} (h : o.word = o'.word) : o = o' := by
  cases o <;> cases o' <;> first | rfl | exact absurd h (by decide)

theorem find?_word {os : List Opt} (ho : o ∈ os) : os.find? (·.word = o.word) = some o := by
  induction os with
  | nil => cases ho
  | cons o' os ih =>
      by_cases h : o' = o
      · rw [h, List.find?_cons_of_pos (by simp)]
      · rw [List.find?_cons_of_neg (by simpa using fun hword => h (word_injective hword))]
        exact ih ((List.mem_cons.mp ho).resolve_left (Ne.symm h))

theorem equals_not_mem_word (o : Opt) : '=' ∉ o.word.toList := by
  cases o <;> decide

theorem word_ne_nil (o : Opt) : o.word.toList ≠ [] := by
  cases o <;> decide

theorem word_ne_help (o : Opt) : o.word ≠ helpWord := by
  cases o <;> decide

theorem word_ne_version (o : Opt) : o.word ≠ versionWord := by
  cases o <;> decide

end Opt

/-- An option with its value. -/
structure Setting where
  option : Opt
  value : option.Value

/-- An option as one argument: with its value behind an equals sign, or alone where it is a flag. -/
def Setting.argument? (x : Setting) : Option String :=
  (x.option.text? x.value).map fun s =>
    if x.option.isFlag then "--" ++ x.option.word else "--" ++ x.option.word ++ "=" ++ s

namespace Positional

/-- The text of a positional argument. -/
def argument : Positional → String
  | id n => idText n
  | text s => s

/-- The kind of a positional argument. -/
def kind : Positional → Kind
  | id _ => .id
  | text _ => .text

theorem read?_argument (p : Positional) : p.kind.read? p.argument = some p := by
  cases p with
  | id n => exact congrArg (Option.map Positional.id) (readId?_idText n)
  | text s => rfl

end Positional

/-! ### Invocations -/

/-- The verb of an edit. -/
def editVerb : Edit → Verb
  | .rename _ => .rename
  | .tag _ => .tag
  | .describe _ => .describe

/-- The text that an edit puts in. -/
def editText : Edit → String
  | .rename value | .tag value | .describe value => value

/-- A flag that stands for `true`. -/
def flag (isSet : Bool) : Option Unit := if isSet then some () else none

namespace Change

/-- The form that calls for a change. -/
def form : Change → Form
  | addGroup _ => .on .group .add
  | addProject _ => .on .project .add
  | addPipeline _ => .on .pipeline .add
  | removeGroup _ _ => .on .group .remove
  | removeProject _ _ _ => .on .project .remove
  | removePipeline _ _ => .on .pipeline .remove
  | editGroup _ edit => .on .group (editVerb edit)
  | editProject _ edit => .on .project (editVerb edit)
  | editPipeline _ _ edit => .on .pipeline (editVerb edit)

/-- What a change has in positional arguments, in their order. -/
def positionals : Change → List Positional
  | addGroup request => [.text request.name]
  | addProject request => [.text request.name]
  | addPipeline _ => []
  | removeGroup g _ => [.id g]
  | removeProject _ p _ => [.id p]
  | removePipeline p q => [.id p, .id q]
  | editGroup g edit => [.id g, .text (editText edit)]
  | editProject p edit => [.id p, .text (editText edit)]
  | editPipeline p q edit => [.id p, .id q, .text (editText edit)]

/-- What a change has in options. -/
def option : Change → Slots Opt.Value
  | addGroup request, .tag => request.tag
  | addGroup request, .description => request.description
  | addProject request, .group => some request.group
  | addProject request, .tag => request.tag
  | addProject request, .description => request.description
  | addPipeline registration, .project => some registration.project
  | addPipeline registration, .pipelineId => some registration.pipeline
  | addPipeline registration, .name => some registration.name
  | addPipeline registration, .easefile => some registration.easefile
  | addPipeline registration, .pipelineFile => some registration.pipelineFile
  | addPipeline registration, .tag => registration.tag
  | addPipeline registration, .description => registration.description
  | removeGroup _ hard, .hard => flag hard
  | removeProject g _ _, .group => some g
  | removeProject _ _ hard, .hard => flag hard
  | _, _ => none

end Change

namespace Command

/-- The form that calls for a command. -/
def form : Command → Form
  | change c => c.form
  | tree _ => .tree

/-- What a command has in positional arguments. -/
def positionals : Command → List Positional
  | change c => c.positionals
  | tree _ => []

/-- What a command has in options. -/
def option : Command → Slots Opt.Value
  | change c, o => c.option o
  | tree json, .json => flag json
  | tree _, _ => none

end Command

/-- What an option stands for where it is left out. -/
def Form.default? : Form → Slots Opt.Value
  | .on .project .add, .group => some 0
  | .on .pipeline .add, .project => some 0
  | _, _ => none

namespace Invocation

/-- What an invocation has in options. -/
def option (i : Invocation) : Slots Opt.Value
  | .home => i.home
  | o => i.command.option o

/-- The paths of an invocation. -/
def paths (i : Invocation) : List Path :=
  (i.option .home).toList ++ (i.option .easefile).toList ++ (i.option .pipelineFile).toList

/-- The paths of the invocation can be given as arguments: they are text, and they are not empty.
Arguments are texts throughout this library.  A system that hands over bytes can also pass a path that
is not UTF-8 as the value of an option; such a path is no argument here. -/
def Expressible (i : Invocation) : Prop := ∀ p ∈ i.paths, p.text?.isSome ∧ p.isEmpty = false

instance (i : Invocation) : Decidable i.Expressible :=
  inferInstanceAs (Decidable (∀ p ∈ i.paths, p.text?.isSome ∧ p.isEmpty = false))

/-- The settings give the options of the invocation, each once and in any order.  What is left out has
the value that it stands for then. -/
structure Gives (i : Invocation) (settings : List Setting) : Prop where
  once : (settings.map Setting.option).Nodup
  given : ∀ x ∈ settings, i.option x.option = some x.value
  omitted : ∀ o v, i.option o = some v →
    o ∈ settings.map Setting.option ∨ i.command.form.default? o = some v

/-- The invocation as arguments, with its options as given. -/
def arguments? (i : Invocation) (settings : List Setting) : Option (List String) :=
  (settings.mapM Setting.argument?).map fun options =>
    i.command.form.words ++ options ++ "--" :: i.command.positionals.map Positional.argument

end Invocation

/-! ### Reading step by step -/

namespace Scan

/-- The scan that has been led to a form, with what it has read there. -/
def reached (form : Form) (options : Slots Opt.Value) (isEscaped : Bool)
    (positionals : List Positional) : Scan :=
  ⟨.at form, options, positionals, none, isEscaped, false, none, true⟩

variable {form : Form} {options : Slots Opt.Value} {positionals : List Positional}

theorem foldlM_words (form : Form) :
    form.words.foldlM step start = .ok (reached form .empty false []) := by
  cases form with
  | on area verb => cases area <;> cases verb <;> rfl
  | tree => rfl

variable {o : Opt} {v : o.Value} {s : String}

theorem note_reached (hnew : options o = none) (hs : o.text? v = some s) :
    (reached form options false positionals).note o s =
      .ok (reached form (options.set o v) false positionals) := by
  rw [note]
  change (if (options o).isSome then _ else _) = _
  rw [hnew, if_neg (by simp), Opt.read?_of_text? hs]
  rfl

/-- An option of the form with its value behind an equals sign. -/
theorem meetLong_value (ho : o ∈ Opt.home :: form.options) (hvalue : o.isFlag = false)
    (hnew : options o = none) (hs : o.text? v = some s) :
    (reached form options false positionals).meetLong (o.word.toList ++ '=' :: s.toList) =
      .ok (reached form (options.set o v) false positionals) := by
  have hfind : (reached form options false positionals).place.options.find? (·.word = o.word) =
      some o := Opt.find?_word ho
  rw [meetLong, divide_append o.equals_not_mem_word]
  simp only [String.ofList_toList, reduceCtorEq, and_false, false_and, if_false, hfind, meetOption,
    hvalue, Bool.false_eq_true]
  exact note_reached hnew hs

/-- A flag of the form. -/
theorem meetLong_flag (ho : o ∈ Opt.home :: form.options) (hflag : o.isFlag)
    (hnew : options o = none) (hs : o.text? v = some s) :
    (reached form options false positionals).meetLong o.word.toList =
      .ok (reached form (options.set o v) false positionals) := by
  have hfind : (reached form options false positionals).place.options.find? (·.word = o.word) =
      some o := Opt.find?_word ho
  have hempty : o.text? v = some "" := by
    cases o <;> first | rfl | cases hflag
  rw [meetLong, divide_of_not_mem o.equals_not_mem_word]
  simp only [String.ofList_toList, o.word_ne_help, o.word_ne_version, false_and, if_false, hfind,
    meetOption, hflag, if_true]
  exact note_reached hnew hempty

theorem step_long (cs : List Char) (hcs : cs ≠ []) :
    step (reached form options false positionals) (String.ofList ('-' :: '-' :: cs)) =
      (reached form options false positionals).meetLong cs := by
  obtain ⟨c, cs, rfl⟩ := List.exists_cons_of_ne_nil hcs
  simp only [step, reached, String.toList_ofList]
  rfl

theorem step_argument {x : Setting} {arg : String} (hx : x.option ∈ Opt.home :: form.options)
    (hnew : options x.option = none) (harg : x.argument? = some arg) :
    step (reached form options false positionals) arg =
      .ok (reached form (options.set x.option x.value) false positionals) := by
  obtain ⟨s, hs, rfl⟩ := Option.map_eq_some_iff.mp harg
  split
  · rename_i hflag
    have harg : "--" ++ x.option.word = String.ofList ('-' :: '-' :: x.option.word.toList) := by
      rw [← String.toList_inj]
      simp
    rw [harg, step_long _ x.option.word_ne_nil]
    exact meetLong_flag hx hflag hnew hs
  · rename_i hflag
    have harg : "--" ++ x.option.word ++ "=" ++ s =
        String.ofList ('-' :: '-' :: (x.option.word.toList ++ '=' :: s.toList)) := by
      rw [← String.toList_inj]
      simp
    rw [harg, step_long _ (by simp)]
    exact meetLong_value hx (Bool.eq_false_iff.mpr hflag) hnew hs

/-- The slots once settings have been put into them. -/
def fill (options : Slots Opt.Value) (settings : List Setting) : Slots Opt.Value :=
  settings.foldl (fun options x => options.set x.option x.value) options

theorem fill_of_not_mem {settings : List Setting} (ho : o ∉ settings.map Setting.option) :
    fill options settings o = options o := by
  induction settings generalizing options with
  | nil => rfl
  | cons x settings ih =>
      rw [List.map_cons, List.mem_cons, not_or] at ho
      exact (ih ho.2).trans (Slots.set_of_ne _ _ (Ne.symm ho.1))

theorem fill_of_mem {settings : List Setting} (honce : (settings.map Setting.option).Nodup)
    {x : Setting} (hx : x ∈ settings) : fill options settings x.option = some x.value := by
  induction settings generalizing options with
  | nil => cases hx
  | cons y settings ih =>
      rw [List.map_cons, List.nodup_cons] at honce
      rcases List.mem_cons.mp hx with rfl | hx
      · exact (fill_of_not_mem honce.1).trans (Slots.set_self _ _ _)
      · exact ih honce.2 hx

/-- Settings of different options are read into their slots. -/
theorem foldlM_settings {settings : List Setting} {args : List String}
    (hmem : ∀ x ∈ settings, x.option ∈ Opt.home :: form.options)
    (honce : (settings.map Setting.option).Nodup)
    (hnew : ∀ x ∈ settings, options x.option = none)
    (hargs : settings.mapM Setting.argument? = some args) :
    args.foldlM step (reached form options false positionals) =
      .ok (reached form (fill options settings) false positionals) := by
  rw [Chain.mapM_eq_some] at hargs
  induction hargs generalizing options with
  | nil => rfl
  | @cons x arg settings args harg _ ih =>
      rw [List.forall_mem_cons] at hmem hnew
      rw [List.map_cons, List.nodup_cons] at honce
      rw [List.foldlM_cons, step_argument hmem.1 hnew.1 harg]
      refine ih hmem.2 honce.2 ?_
      intro y hy
      have hne : x.option ≠ y.option := by
        intro heq
        exact honce.1 (heq ▸ List.mem_map_of_mem hy)
      rw [Slots.set_of_ne _ _ hne]
      exact hnew.2 y hy

theorem step_dashes : step (reached form options false positionals) "--" =
    .ok (reached form options true positionals) := rfl

theorem step_positional {p : Positional} (hp : form.positionals[positionals.length]? = some p.kind) :
    step (reached form options true positionals) p.argument =
      .ok (reached form options true (positionals ++ [p])) := by
  have hread : ((reached form options true positionals).place.positional?
      (reached form options true positionals).positionals.length).bind (·.read? p.argument) =
        some p := (congrArg (Option.bind · _) hp).trans p.read?_argument
  change (reached form options true positionals).notePositional p.argument = _
  rw [notePositional, hread]
  rfl

/-- The positional arguments of a form are read behind the two dashes. -/
theorem foldlM_positionals {ps : List Positional}
    (hps : form.positionals = (positionals ++ ps).map Positional.kind) :
    (ps.map Positional.argument).foldlM step (reached form options true positionals) =
      .ok (reached form options true (positionals ++ ps)) := by
  induction ps generalizing positionals with
  | nil =>
      rw [List.append_nil]
      rfl
  | cons p ps ih =>
      have hp : form.positionals[positionals.length]? = some p.kind := by
        rw [hps]
        simp
      have hrest : form.positionals = ((positionals ++ [p]) ++ ps).map Positional.kind := by
        rwa [List.append_assoc]
      rw [List.map_cons, List.foldlM_cons, step_positional hp, Chain.ok_bind, ih hrest,
        List.append_assoc]
      rfl

end Scan

/-! ### Commands from what has been read -/

theorem isSome_flag (isSet : Bool) : (flag isSet).isSome = isSet := by
  cases isSet <;> rfl

namespace Command

variable {c : Command} {options : Slots Opt.Value}

theorem positionals_form (c : Command) : c.form.positionals = c.positionals.map Positional.kind := by
  cases c with
  | tree json => rfl
  | change c =>
      cases c with
      | editGroup g edit => cases edit <;> rfl
      | editProject p edit => cases edit <;> rfl
      | editPipeline p q edit => cases edit <;> rfl
      | _ => rfl

/-- A command has only options of its form. -/
theorem mem_options {o : Opt} (ho : c.option o ≠ none) : o ∈ c.form.options := by
  cases c with
  | tree json => cases o <;> first | exact absurd rfl ho | simp [form, Form.options]
  | change c =>
      cases c <;> cases o <;> first | exact absurd rfl ho | simp [form, Change.form, Form.options]

/-- The slots hold the options of the command, except for those that have been left out and stand for
what the command has. -/
def HeldIn (c : Command) (options : Slots Opt.Value) : Prop :=
  ∀ o, o ≠ .home → options o = c.option o ∨ options o = none ∧ c.option o = c.form.default? o

namespace HeldIn

theorem eq (h : c.HeldIn options) {o : Opt} (ho : o ≠ .home) (hdefault : c.form.default? o = none) :
    options o = c.option o := by
  rcases h o ho with h | ⟨hnone, hleft⟩
  · exact h
  · rw [hnone, hleft, hdefault]

theorem getD_eq (h : c.HeldIn options) {o : Opt} {v w : o.Value} (ho : o ≠ .home)
    (hdefault : c.form.default? o = some w) (hv : c.option o = some v) :
    (options o).getD w = v := by
  rcases h o ho with h | ⟨hnone, hleft⟩
  · rw [h, hv]
    rfl
  · rw [hnone]
    exact Option.some_inj.mp ((hdefault.symm.trans hleft.symm).trans hv)

theorem tree {json : Bool} (h : (tree json).HeldIn options) :
    ofArguments? options .tree [] = some (.tree json) := by
  have hjson : options .json = flag json := h.eq nofun rfl
  simp only [ofArguments?, hjson, isSome_flag]

theorem addGroup {request : NewGroup} (h : (change (.addGroup request)).HeldIn options) :
    Change.ofArguments? options .group .add [.text request.name] = some (.addGroup request) := by
  have htag : options .tag = request.tag := h.eq nofun rfl
  have hdescription : options .description = request.description := h.eq nofun rfl
  simp only [Change.ofArguments?, htag, hdescription]

theorem addProject {request : NewProject} (h : (change (.addProject request)).HeldIn options) :
    Change.ofArguments? options .project .add [.text request.name] =
      some (.addProject request) := by
  have hgroup : (options .group).getD securedGroupId = request.group := h.getD_eq nofun rfl rfl
  have htag : options .tag = request.tag := h.eq nofun rfl
  have hdescription : options .description = request.description := h.eq nofun rfl
  simp only [Change.ofArguments?, hgroup, htag, hdescription]

theorem addPipeline {registration : Registration}
    (h : (change (.addPipeline registration)).HeldIn options) :
    Change.ofArguments? options .pipeline .add [] = some (.addPipeline registration) := by
  have hproject : (options .project).getD securedProjectId = registration.project :=
    h.getD_eq nofun rfl rfl
  have hpipeline : options .pipelineId = some registration.pipeline := h.eq nofun rfl
  have hname : options .name = some registration.name := h.eq nofun rfl
  have heasefile : options .easefile = some registration.easefile := h.eq nofun rfl
  have hfile : options .pipelineFile = some registration.pipelineFile := h.eq nofun rfl
  have htag : options .tag = registration.tag := h.eq nofun rfl
  have hdescription : options .description = registration.description := h.eq nofun rfl
  simp only [Change.ofArguments?, Change.registration?, hproject, hpipeline, hname, heasefile, hfile,
    htag, hdescription]
  rfl

theorem removeGroup {g : GroupId} {hard : Bool}
    (h : (change (.removeGroup g hard)).HeldIn options) :
    Change.ofArguments? options .group .remove [.id g] = some (.removeGroup g hard) := by
  have hhard : options .hard = flag hard := h.eq nofun rfl
  simp only [Change.ofArguments?, hhard, isSome_flag]

theorem removeProject {g : GroupId} {p : ProjectId} {hard : Bool}
    (h : (change (.removeProject g p hard)).HeldIn options) :
    Change.ofArguments? options .project .remove [.id p] = some (.removeProject g p hard) := by
  have hgroup : options .group = some g := h.eq nofun rfl
  have hhard : options .hard = flag hard := h.eq nofun rfl
  simp only [Change.ofArguments?, hgroup, hhard, isSome_flag]
  rfl

/-- A change is made of its options and its positional arguments. -/
theorem change {c : Change} (h : (change c).HeldIn options) : ofArguments? options
    (Command.change c).form (Command.change c).positionals = some (.change c) := by
  cases c with
  | addGroup request => exact congrArg (Option.map Command.change) h.addGroup
  | addProject request => exact congrArg (Option.map Command.change) h.addProject
  | addPipeline registration => exact congrArg (Option.map Command.change) h.addPipeline
  | removeGroup g hard => exact congrArg (Option.map Command.change) h.removeGroup
  | removeProject g p hard => exact congrArg (Option.map Command.change) h.removeProject
  | removePipeline p q => rfl
  | editGroup g edit => cases edit <;> rfl
  | editProject p edit => cases edit <;> rfl
  | editPipeline p q edit => cases edit <;> rfl

end HeldIn

/-- A command is made of its options and its positional arguments, where what has been left out is what
it stands for then. -/
theorem HeldIn.ofArguments?_eq (h : c.HeldIn options) :
    ofArguments? options c.form c.positionals = some c := by
  cases c with
  | tree json => exact h.tree
  | change c => exact h.change

end Command

namespace Invocation

variable {i : Invocation} {settings : List Setting}

/-- Every option of an invocation that can be expressed can be written. -/
theorem Expressible.isSome_argument? (hi : i.Expressible) {x : Setting}
    (hx : i.option x.option = some x.value) : x.argument?.isSome := by
  obtain ⟨o, v⟩ := x
  have hv : v ∈ (i.option o).toList := Option.mem_toList.mpr hx
  have htext : (o.text? v).isSome := by
    cases o with
    | home =>
        exact Opt.isSome_text?_path (hi v (List.mem_append_left _ (List.mem_append_left _ hv)))
    | easefile =>
        exact Opt.isSome_text?_path (hi v (List.mem_append_left _ (List.mem_append_right _ hv)))
    | pipelineFile => exact Opt.isSome_text?_path (hi v (List.mem_append_right _ hv))
    | _ => rfl
  rw [Setting.argument?, Option.isSome_map]
  exact htext

theorem Gives.exists_arguments? (hgives : i.Gives settings) (hi : i.Expressible) :
    ∃ args, i.arguments? settings = some args := by
  have hsome : (settings.mapM Setting.argument?).isSome :=
    Chain.isSome_mapM.mpr fun x hx => hi.isSome_argument? (hgives.given x hx)
  obtain ⟨options, hoptions⟩ := Option.isSome_iff_exists.mp hsome
  exact ⟨_, congrArg (Option.map _) hoptions⟩

/-- The options of an invocation can be given in some order. -/
theorem exists_gives (i : Invocation) : ∃ settings, i.Gives settings := by
  refine ⟨Opt.all.filterMap fun o => (i.option o).map (Setting.mk o), ?_, ?_, ?_⟩
  · rw [List.map_filterMap]
    refine List.Nodup.filterMap ?_ (by decide)
    intro o o' b hb hb'
    obtain ⟨x, hx, rfl⟩ := Option.map_eq_some_iff.mp hb
    obtain ⟨x', hx', heq⟩ := Option.map_eq_some_iff.mp hb'
    obtain ⟨v, -, rfl⟩ := Option.map_eq_some_iff.mp hx
    obtain ⟨v', -, rfl⟩ := Option.map_eq_some_iff.mp hx'
    exact heq.symm
  · intro x hx
    obtain ⟨o, -, hx⟩ := List.mem_filterMap.mp hx
    obtain ⟨v, hv, rfl⟩ := Option.map_eq_some_iff.mp hx
    exact hv
  · intro o v hv
    refine .inl (List.mem_map.mpr ⟨⟨o, v⟩, List.mem_filterMap.mpr ⟨o, ?_, ?_⟩, rfl⟩)
    · cases o <;> decide
    · rw [hv]
      rfl

theorem option_of_ne {o : Opt} (ho : o ≠ .home) : i.option o = i.command.option o := by
  cases o <;> first | rfl | exact absurd rfl ho

theorem Gives.mem_options (hgives : i.Gives settings) :
    ∀ x ∈ settings, x.option ∈ Opt.home :: i.command.form.options := by
  intro x hx
  by_cases hhome : x.option = .home
  · exact hhome ▸ List.mem_cons_self
  · refine List.mem_cons_of_mem _ (Command.mem_options ?_)
    rw [← option_of_ne hhome, hgives.given x hx]
    exact Option.some_ne_none _

/-- The slots that the settings fill hold the options of the invocation, but for those left out. -/
theorem Gives.fill_eq (hgives : i.Gives settings) (o : Opt) :
    Scan.fill .empty settings o = i.option o ∨
      Scan.fill .empty settings o = none ∧ i.option o = i.command.form.default? o := by
  by_cases ho : o ∈ settings.map Setting.option
  · obtain ⟨x, hx, rfl⟩ := List.mem_map.mp ho
    rw [Scan.fill_of_mem hgives.once hx, hgives.given x hx]
    exact .inl rfl
  · rw [Scan.fill_of_not_mem ho]
    cases hv : i.option o with
    | none => exact .inl rfl
    | some v =>
        rw [(hgives.omitted o v hv).resolve_left ho]
        exact .inr ⟨rfl, rfl⟩

theorem Gives.fill_home (hgives : i.Gives settings) :
    Scan.fill .empty settings .home = i.home := by
  rcases hgives.fill_eq .home with h | ⟨hnone, hleft⟩
  · exact h
  · have hdefault : i.command.form.default? .home = none := by
      generalize i.command.form = form
      rcases form with ⟨_ | _ | _, _ | _ | _ | _ | _⟩ | _ <;> rfl
    rw [hnone]
    exact (hleft.trans hdefault).symm

theorem Gives.foldlM_arguments (hgives : i.Gives settings) {args : List String}
    (hargs : i.arguments? settings = some args) : args.foldlM Scan.step .start =
      .ok (Scan.reached i.command.form (Scan.fill .empty settings) true i.command.positionals) := by
  obtain ⟨options, hoptions, rfl⟩ := Option.map_eq_some_iff.mp hargs
  have hsettings : options.foldlM Scan.step (Scan.reached i.command.form .empty false []) =
      .ok (Scan.reached i.command.form (Scan.fill .empty settings) false []) :=
    Scan.foldlM_settings hgives.mem_options hgives.once (fun _ _ => rfl) hoptions
  have hpositionals : (i.command.positionals.map Positional.argument).foldlM Scan.step
      (Scan.reached i.command.form (Scan.fill .empty settings) true []) =
      .ok (Scan.reached i.command.form (Scan.fill .empty settings) true i.command.positionals) :=
    Scan.foldlM_positionals i.command.positionals_form
  rw [List.foldlM_append, List.foldlM_append, Scan.foldlM_words, Chain.ok_bind, hsettings,
    Chain.ok_bind, List.foldlM_cons, Scan.step_dashes, Chain.ok_bind]
  exact hpositionals

/-- An invocation that is spelled is read again, unless the environment gives an empty home directory,
which is refused where no home directory has been given before the words. -/
theorem Gives.readArguments_eq (hgives : i.Gives settings) {args : List String}
    (hargs : i.arguments? settings = some args) (environment : Option Path) :
    readArguments environment args = if environment.any Path.isEmpty then .error .usage
      else .ok ⟨i.home.or environment, i.command⟩ := by
  have hcommand : Command.ofArguments? (Scan.fill .empty settings) i.command.form
      i.command.positionals = some i.command := by
    refine Command.HeldIn.ofArguments?_eq fun o ho => ?_
    rw [← option_of_ne ho]
    exact hgives.fill_eq o
  rw [readArguments, hgives.foldlM_arguments hargs, Chain.ok_bind]
  simp only [Scan.finish, Scan.reached, hcommand, Scan.needsHome, Scan.home?, hgives.fill_home,
    Option.or_none, Bool.true_or, true_and, Bool.false_eq_true, if_false]

end Invocation

/-- Every invocation whose paths can be given as arguments can be spelled, with its options in any
order and with those left out that stand for what it has.  Whatever its texts are, it is read as itself,
without a home directory as one in the directory that the environment gives.  Two invocations with
different commands are never read as the same; neither are two with different home directories where
the environment gives none.

Arguments are texts here.  The paths of options that the system itself can hand over as other bytes than
UTF-8 are not among them (`Expressible`); the directory of the environment may be any path. -/
theorem invocations_read_back :
    (∀ i : Invocation, i.Expressible → (∃ settings, i.Gives settings) ∧
      ∀ settings, i.Gives settings → ∃ args, i.arguments? settings = some args) ∧
    (∀ (i : Invocation) settings args, i.Gives settings → i.arguments? settings = some args →
      ∀ environment, readArguments environment args =
        if environment.any Path.isEmpty then .error .usage
        else .ok ⟨i.home.or environment, i.command⟩) ∧
    ∀ (i i' : Invocation) settings settings' args args', i.Gives settings → i'.Gives settings' →
      i.arguments? settings = some args → i'.arguments? settings' = some args' →
      (i ≠ i' → readArguments none args ≠ readArguments none args') ∧
      (i.command ≠ i'.command → ∀ environment, environment.any Path.isEmpty = false →
        readArguments environment args ≠ readArguments environment args') := by
  refine ⟨?_, ?_, ?_⟩
  · intro i hi
    exact ⟨i.exists_gives, fun settings hgives => hgives.exists_arguments? hi⟩
  · intro i settings args hgives hargs environment
    exact hgives.readArguments_eq hargs environment
  · intro i i' settings settings' args args' hgives hgives' hargs hargs'
    constructor
    · intro hne hsame
      rw [hgives.readArguments_eq hargs, hgives'.readArguments_eq hargs'] at hsame
      simp only [Option.any_none, Bool.false_eq_true, if_false, Option.or_none] at hsame
      exact hne (Except.ok.inj hsame)
    · intro hne environment henvironment hsame
      rw [hgives.readArguments_eq hargs, hgives'.readArguments_eq hargs', henvironment] at hsame
      exact hne (Invocation.mk.inj (Except.ok.inj hsame)).2

/-- A pipeline whose texts look like options is registered in the project that is meant without one. -/
def dashedInvocation : Invocation :=
  ⟨some (.ofString "a=b"), .change (.addPipeline
    ⟨0, "", "-n", .ofString "--", .ofString "x", some "--tag=x", none⟩)⟩

/-- Its options in some order, without the project. -/
def dashedSettings : List Setting :=
  [⟨.tag, "--tag=x"⟩, ⟨.name, "-n"⟩, ⟨.pipelineFile, .ofString "x"⟩, ⟨.home, .ofString "a=b"⟩,
    ⟨.pipelineId, ""⟩, ⟨.easefile, .ofString "--"⟩]

/-- Its arguments. -/
def dashedArguments : List String :=
  ["pipeline", "add", "--tag=--tag=x", "--name=-n", "--pipeline-file=x", "--home=a=b",
    "--pipeline-id=", "--easefile=--", "--"]

/-- A pointer gets a name that looks like a call for help. -/
def helpInvocation : Invocation :=
  ⟨none, .change (.editPipeline (0 - 1) 0 (.rename "--help"))⟩

/-- Its arguments. -/
def helpArguments : List String :=
  ["pipeline", "rename", "--", "18446744073709551615", "0", "--help"]

theorem dashedSettings_gives : dashedInvocation.Gives dashedSettings where
  once := by decide
  given := by
    intro x hx
    simp only [dashedSettings, List.mem_cons, List.not_mem_nil, or_false] at hx
    rcases hx with rfl | rfl | rfl | rfl | rfl | rfl <;> rfl
  omitted := by
    intro o v hv
    cases o with
    | project =>
        obtain rfl : (0 : ProjectId) = v := Option.some_inj.mp hv
        exact .inr rfl
    | description | group | hard | json => cases hv
    | _ => exact .inl (by decide)

theorem helpSettings_gives : helpInvocation.Gives [] where
  once := List.nodup_nil
  given := nofun
  omitted := by
    intro o v hv
    cases o <;> cases hv

theorem invocations_read_back_dashed :
    (∃ args, dashedInvocation.arguments? dashedSettings = some args) ∧
    readArguments none dashedArguments = .ok dashedInvocation ∧
    readArguments (some (.ofString "home")) helpArguments =
      .ok ⟨some (.ofString "home"), helpInvocation.command⟩ ∧
    readArguments none dashedArguments ≠ readArguments none helpArguments := by
  have hexpressible : dashedInvocation.Expressible := by decide +kernel
  have hdashed : dashedInvocation.arguments? dashedSettings = some dashedArguments := by
    decide +kernel
  have hhelp : helpInvocation.arguments? [] = some helpArguments := by decide +kernel
  obtain ⟨hspelled, hread, hapart⟩ := invocations_read_back
  refine ⟨(hspelled _ hexpressible).2 _ dashedSettings_gives, ?_, ?_, ?_⟩
  · exact hread _ _ _ dashedSettings_gives hdashed none
  · exact (hread _ _ _ helpSettings_gives hhelp _).trans (if_neg (by decide +kernel))
  · exact (hapart _ _ _ _ _ _ dashedSettings_gives helpSettings_gives hdashed hhelp).1 (by decide)

end PipelineRegistry.CommandLine
