import Mathlib
import PipelineRegistry.Proofs.CommandLine.Processes
import PipelineRegistry.Proofs.Registry.Removal

/-! # What a run leaves behind

A run that understands its arguments opens the registry, which seeds a missing document, and then
carries out its command, which writes the document if it succeeds.  So a run that fails has not written
a document that was there, and a document that was not there is either still missing or holds the first
registry.  Whatever else a run is asked for, it does not come near the disk.

As after a failed change, there is one way for a document to appear that nobody has written: where the
path climbs by `..` out of a missing directory, opening makes this directory before it fails. -/

namespace PipelineRegistry

open Calendar

/-! ### Opening -/

section opening

variable {home document : Path} {r : Registry} {h : Handle} {now : Timestamp} {d d₁ : Disk}
  {operation : Operation} {outcome : Outcome}

namespace Handle

theorem openHome_run (home : Path) (now : Timestamp) (d : Disk) :
    (openHome home now : StateM Disk _) d =
      match (Storage.loadOrSeed now (Workspace.document home) : StateM Disk _) d with
      | (.ok r, d') => (.ok ⟨Workspace.document home, some r⟩, d')
      | (.error e, d') => (.error e, d') := by
  rw [openHome, openAt_run, registry_run, fresh]
  generalize (Storage.loadOrSeed now (Workspace.document home) : StateM Disk _) d = loaded
  obtain ⟨_ | _, d'⟩ := loaded <;> rfl

/-- A document that is there is read. -/
theorem openHome_of_isPresent {result : Except RegistryError Handle}
    (hpresent : d.isPresent (Workspace.document home) = true)
    (hopen : (openHome home now : StateM Disk _) d = (result, d₁)) :
    d₁ = d ∧ ∀ h, result = .ok h →
      ∃ r, h = ⟨Workspace.document home, some r⟩ ∧ Mirrored (Workspace.document home) r d := by
  rw [openHome_run, Storage.loadOrSeed_run, if_pos hpresent] at hopen
  generalize hload : (Storage.load (Workspace.document home) : StateM Disk _) d = loaded at hopen
  obtain ⟨loaded, d'⟩ := loaded
  obtain rfl : d = d' := by
    rw [Storage.load_run] at hload
    exact (Prod.mk.inj hload).2
  cases loaded with
  | error e =>
      cases hopen
      exact ⟨rfl, nofun⟩
  | ok r =>
      cases hopen
      refine ⟨rfl, ?_⟩
      rintro h ⟨⟩
      exact ⟨r, rfl, .of_load hload⟩

/-- Where there is no document, the first registry is saved. -/
theorem openHome_of_absent {result : Except RegistryError Handle}
    (habsent : d.isPresent (Workspace.document home) = false)
    (hopen : (openHome home now : StateM Disk _) d = (result, d₁)) :
    ∃ saved : Except RegistryError Unit,
      (Storage.save (Workspace.document home) (.initial now) : StateM Disk _) d = (saved, d₁) ∧
      result = saved.map fun _ => ⟨Workspace.document home, some (.initial now)⟩ := by
  rw [openHome_run, Storage.loadOrSeed_run, habsent, if_neg Bool.false_ne_true] at hopen
  generalize (Storage.save (Workspace.document home) (.initial now) : StateM Disk _) d = saved
    at hopen
  obtain ⟨_ | _, d'⟩ := saved <;> cases hopen <;> exact ⟨_, rfl, rfl⟩

/-- A handle that has been opened remembers a registry that can be written. -/
theorem openHome_ok (hopen : (openHome home now : StateM Disk _) d = (.ok h, d₁)) :
    ∃ r, h = ⟨Workspace.document home, some r⟩ ∧ r.Valid ∧ r.render?.isSome := by
  cases hpresent : d.isPresent (Workspace.document home) with
  | true =>
      obtain ⟨r, rfl, hr⟩ := (openHome_of_isPresent hpresent hopen).2 h rfl
      exact ⟨r, rfl, hr.valid, hr.isSome_render?⟩
  | false =>
      obtain ⟨_ | _, hsave, ⟨⟩⟩ := openHome_of_absent hpresent hopen
      obtain ⟨text, hrender, -⟩ := Storage.read_of_save_ok hsave
      exact ⟨.initial now, rfl, Registry.valid_initial now, Option.isSome_of_eq_some hrender⟩

/-- An operation that changes nothing leaves the disk alone. -/
theorem perform_of_same (hr : r.Valid) (hperform : operation.perform now r = .ok (outcome, r)) :
    ((⟨document, some r⟩ : Handle).perform now operation : StateM Disk _) d =
      ((.ok outcome, ⟨document, some r⟩), d) :=
  exclusively_of_agrees rfl hperform hr.agrees_self now d

end Handle
end opening

namespace CommandLine

variable {env : Environment} {args : List String} {home document : Path} {command : Command}
  {order : Order} {colours hard : Bool} {r : Registry} {d d' d₁ : Disk} {now : Timestamp}
  {h : Handle} {e : RegistryError}

/-! ### Orders -/

theorem consult_tree {json : Bool} (hcommand : order.command = .tree json) :
    (consult ⟨document, some r⟩ order.call : StateM Disk _) d =
      ((.ok (.registry r), ⟨document, some r⟩), d) := by
  rw [consult_call_run, hcommand]
  rfl

/-- The secured project is not removed, and this is no failure. -/
theorem consult_removeProject_secured (hr : r.Valid)
    (hcommand : order.command = .change (.removeProject securedGroupId securedProjectId hard)) :
    (consult ⟨document, some r⟩ order.call : StateM Disk _) d =
      ((.ok (.outcome .nothing), ⟨document, some r⟩), d) := by
  have howner := hr.ownerOf?_securedProject
  obtain ⟨group, hgroup, hmem⟩ := (hr.owner_iff _ _).mp howner
  have hperform : (Operation.deleteProject securedGroupId securedProjectId hard).perform order.now r =
      .ok (.nothing, r) := by
    rw [Operation.perform, Registry.deleteProject_secured hgroup hmem]
    rfl
  rw [consult_call_run, hcommand]
  simp only [Change.operation, Handle.perform_of_same hr hperform]
  rfl

/-- What is left of an order for the registry below `home`, after a process for it that was started on
the disk `d` has ended with a report and the disk `d'`. -/
structure Order.Aftermath (order : Order) (home : Path) (d : Disk) (report : Report) (d' : Disk) :
    Prop where
  /-- A document that was there has its content after a failure. -/
  kept : report.code = 1 → d.isPresent (Workspace.document home) = true →
    d'.read (Workspace.document home) = d.read (Workspace.document home)
  /-- A document that was not there is missing if the registry could not be opened, and otherwise
  holds the first registry. -/
  absent : report.code = 1 → d.isPresent (Workspace.document home) = false →
    (∃ e d₁, (Handle.openHome home order.now : StateM Disk _) d = (.error e, d₁) ∧
      (d.IsTree → d.ClimbsFromDirectories (Workspace.document home) →
        d'.isPresent (Workspace.document home) = false)) ∨
    (∃ h d₁ text, (Handle.openHome home order.now : StateM Disk _) d = (.ok h, d₁) ∧
      (Registry.initial order.now).render? = some text ∧
      d'.read (Workspace.document home) = .ok text.toUTF8)
  tree : ∀ json, order.command = .tree json → d.isPresent (Workspace.document home) = true → d' = d
  secured : ∀ hard, order.command = .change (.removeProject securedGroupId securedProjectId hard) →
    ∀ h d₁, (Handle.openHome home order.now : StateM Disk _) d = (.ok h, d₁) →
      report.code = 0 ∧ d' = d₁
  /-- The process succeeds if the registry can be opened and the call that the order asks for succeeds. -/
  succeeded : report.code = 0 ↔ ∃ call h d₁, order.Asks call ∧
    (Handle.openHome home order.now : StateM Disk _) d = (.ok h, d₁) ∧
      ((consult h call : StateM Disk _) d₁).1.1.isOk

/-- Where the registry cannot be opened, a document that was there is as it was, and where there was
none, there is none. -/
theorem aftermath_of_openHome_error {context : String} {causes : List String}
    (hopen : (Handle.openHome home order.now : StateM Disk _) d = (.error e, d')) :
    order.Aftermath home d (.failure context causes) d' := by
  have hnot : ∀ h d₁, (Handle.openHome home order.now : StateM Disk _) d ≠ (.ok h, d₁) := by
    intro h d₁ hopen'
    rw [hopen] at hopen'
    cases hopen'
  constructor
  case kept =>
    intro _ hpresent
    rw [(Handle.openHome_of_isPresent hpresent hopen).1]
  case absent =>
    intro _ habsent
    refine .inl ⟨e, d', hopen, ?_⟩
    intro htree hclimbs
    obtain ⟨_ | _, hsave, ⟨⟩⟩ := Handle.openHome_of_absent habsent hopen
    exact ((Storage.document_of_save_error hsave).2 htree hclimbs).2.trans habsent
  case tree => exact fun _ _ hpresent => (Handle.openHome_of_isPresent hpresent hopen).1
  case secured => exact fun _ _ h d₁ hopen' => absurd hopen' (hnot h d₁)
  case succeeded =>
    refine ⟨nofun, ?_⟩
    rintro ⟨call, h, d₁, -, hopen', -⟩
    exact absurd hopen' (hnot h d₁)

/-- An order that is reported as a failure keeps the content of the document. -/
theorem read_of_code_report_eq_one {answer : Except RegistryError Answer} {h' : Handle}
    (hrender : r.render?.isSome)
    (hrun : (consult ⟨document, some r⟩ order.call : StateM Disk _) d = ((answer, h'), d'))
    (hfailed : (order.command.report colours document answer).code = 1) {content : ByteArray}
    (hcontent : d.read document = .ok content) : d'.read document = .ok content := by
  cases answer with
  | ok a =>
      rw [(code_report hrender hrun).mpr rfl] at hfailed
      cases hfailed
  | error e =>
      rcases (consult_error_cases hrun).2 with rfl | ⟨working, hsave⟩
      · exact hcontent
      · exact (Storage.document_of_save_error hsave).1 content hcontent

/-- A process that has opened its registry writes the document again only if its command succeeds. -/
theorem aftermath_of_openHome_ok
    (hopen : (Handle.openHome home order.now : StateM Disk _) d = (.ok h, d₁))
    {answer : Except RegistryError Answer} {h' : Handle}
    (hrun : (consult h order.call : StateM Disk _) d₁ = ((answer, h'), d')) :
    order.Aftermath home d (order.command.report colours h.document answer) d' := by
  obtain ⟨r, rfl, hr, hrender⟩ := Handle.openHome_ok hopen
  have hcode : (order.command.report colours (Workspace.document home) answer).code = 0 ↔
      answer.isOk := code_report hrender hrun
  constructor
  case kept =>
    intro hfailed hpresent
    obtain ⟨rfl, hread⟩ := Handle.openHome_of_isPresent hpresent hopen
    obtain ⟨r', -, hr'⟩ := hread _ rfl
    obtain ⟨content, hcontent, -⟩ := hr'.stored
    rw [read_of_code_report_eq_one hrender hrun hfailed hcontent, hcontent]
  case absent =>
    intro hfailed habsent
    obtain ⟨_ | _, hsave, ⟨⟩⟩ := Handle.openHome_of_absent habsent hopen
    obtain ⟨text, htext, hcontent⟩ := Storage.read_of_save_ok hsave
    exact .inr ⟨_, d₁, text, hopen, htext, read_of_code_report_eq_one hrender hrun hfailed hcontent⟩
  case tree =>
    intro json hcommand hpresent
    rw [consult_tree hcommand] at hrun
    cases hrun
    exact (Handle.openHome_of_isPresent hpresent hopen).1
  case secured =>
    intro hard hcommand h₁ d₂ hopen'
    rw [hopen] at hopen'
    cases hopen'
    rw [consult_removeProject_secured hr hcommand] at hrun
    cases hrun
    exact ⟨hcode.mpr rfl, rfl⟩
  case succeeded =>
    rw [hcode]
    constructor
    · intro hok
      refine ⟨order.call, _, d₁, Order.asks_iff.mpr rfl, hopen, ?_⟩
      rwa [hrun]
    · rintro ⟨call, h₁, d₂, hcall, hopen', hok⟩
      rw [hopen] at hopen'
      cases hopen'
      rwa [Order.asks_iff.mp hcall, hrun] at hok

theorem Order.aftermath (order : Order) (colours : Bool) (home : Path) (d : Disk) :
    order.Aftermath home d ((order.process colours home : StateM Disk Report) d).1
      ((order.process colours home : StateM Disk Report) d).2 := by
  rw [process_run]
  generalize hopen : (Handle.openHome home order.now : StateM Disk _) d = opened
  obtain ⟨e | h, d₁⟩ := opened
  · exact aftermath_of_openHome_error hopen
  · simp only [perform_run]
    generalize hrun : (consult h order.call : StateM Disk _) d₁ = ended
    obtain ⟨⟨answer, h'⟩, d'⟩ := ended
    exact aftermath_of_openHome_ok hopen hrun

/-! ### Runs -/

/-- A run that understands no command, or finds no home directory, does nothing but say so. -/
theorem run_of_not_understands (hargs : ∀ home command, ¬ env.Understands home args command)
    (now : Timestamp) : ∃ report : Report, (run env now args : StateM Disk Report) = pure report ∧
      (readArguments env.registryHome args = .error .usage → report.code = 2) ∧
      (report.code = 0 ↔ readArguments env.registryHome args = .error .help ∨
        readArguments env.registryHome args = .error .version) := by
  unfold run
  cases hread : readArguments env.registryHome args with
  | error stop =>
      refine ⟨stop.report, rfl, ?_⟩
      cases stop <;> simp [Stop.report, Report.success]
  | ok invocation =>
      cases hhome : invocation.home.or env.userHome with
      | none =>
          simp only [hhome]
          exact ⟨_, rfl, nofun, nofun, by simp⟩
      | some home => exact absurd ⟨invocation, hread, rfl, hhome⟩ (hargs home invocation.command)

/-- What is left of a run that was started on the disk `d` and has ended with a report and the disk
`d'`. -/
structure Aftermath (env : Environment) (now : Timestamp) (args : List String) (d : Disk)
    (report : Report) (d' : Disk) : Prop where
  usage : readArguments env.registryHome args = .error .usage → report.code = 2 ∧ d' = d
  untouched : (∀ home command, ¬ env.Understands home args command) → d' = d
  understood : ∀ home command, env.Understands home args command →
    (⟨now, command⟩ : Order).Aftermath home d report d'
  /-- Arguments that spell a command are understood. -/
  spelled : ∀ home command, env.Spells home args command → env.Understands home args command
  /-- Requests for help and for the version apart, a run succeeds if it understands its arguments, can
  open the registry and the call that the command asks for succeeds. -/
  succeeded : report.code = 0 ↔ readArguments env.registryHome args = .error .help ∨
    readArguments env.registryHome args = .error .version ∨
    ∃ home command call h d₁, env.Understands home args command ∧
      (⟨now, command⟩ : Order).Asks call ∧
      (Handle.openHome home now : StateM Disk _) d = (.ok h, d₁) ∧
      ((consult h call : StateM Disk _) d₁).1.1.isOk

theorem aftermath_of_understands (hargs : env.Understands home args command) (now : Timestamp)
    (d : Disk) : Aftermath env now args d ((run env now args : StateM Disk Report) d).1
      ((run env now args : StateM Disk Report) d).2 := by
  have hafter := Order.aftermath ⟨now, command⟩ env.colours home d
  rw [← hargs.run_eq now] at hafter
  have hread : ∀ stop, readArguments env.registryHome args ≠ .error stop := by
    obtain ⟨invocation, hread, -⟩ := hargs
    intro stop hstop
    rw [hread] at hstop
    cases hstop
  constructor
  case usage => exact fun husage => absurd husage (hread .usage)
  case untouched => exact fun hno => absurd hargs (hno home command)
  case understood =>
    intro home' command' hargs'
    obtain ⟨rfl, rfl⟩ := hargs.unique hargs'
    exact hafter
  case spelled => exact fun home' command' hspelled => hspelled.understands
  case succeeded =>
    rw [hafter.succeeded]
    constructor
    · rintro ⟨call, h, d₁, hcall, hopen, hok⟩
      exact .inr (.inr ⟨home, command, call, h, d₁, hargs, hcall, hopen, hok⟩)
    · rintro (hhelp | hversion | ⟨home', command', call, h, d₁, hargs', hcall, hopen, hok⟩)
      · exact absurd hhelp (hread .help)
      · exact absurd hversion (hread .version)
      · obtain ⟨rfl, rfl⟩ := hargs.unique hargs'
        exact ⟨call, h, d₁, hcall, hopen, hok⟩

theorem aftermath_of_not_understands (hargs : ∀ home command, ¬ env.Understands home args command)
    (now : Timestamp) (d : Disk) : Aftermath env now args d
      ((run env now args : StateM Disk Report) d).1 ((run env now args : StateM Disk Report) d).2 := by
  obtain ⟨report, hrun, husage, hcode⟩ := run_of_not_understands hargs now
  rw [hrun]
  constructor
  case usage => exact fun hread => ⟨husage hread, rfl⟩
  case untouched => exact fun _ => rfl
  case understood => exact fun home command hargs' => absurd hargs' (hargs home command)
  case spelled => exact fun home command hspelled => hspelled.understands
  case succeeded =>
    rw [show ((pure report : StateM Disk Report) d).1 = report from rfl, hcode]
    constructor
    · rintro (hhelp | hversion)
      · exact .inl hhelp
      · exact .inr (.inl hversion)
    · rintro (hhelp | hversion | ⟨home, command, _, _, _, hargs', -⟩)
      · exact .inl hhelp
      · exact .inr hversion
      · exact absurd hargs' (hargs home command)

/-- Whatever its arguments are, whatever there is on the disk and whatever befalls it: a run that does
not understand its arguments changes nothing; a run that fails leaves a document that was there as it
was, and otherwise no document or the first registry; a report on the registry changes no document; and
a run succeeds if it can open the registry and the call that its command asks for succeeds. -/
theorem aftermath_of_run (env : Environment) (now : Timestamp) (args : List String) (d : Disk) :
    Aftermath env now args d ((run env now args : StateM Disk Report) d).1
      ((run env now args : StateM Disk Report) d).2 := by
  by_cases hargs : ∃ home command, env.Understands home args command
  · obtain ⟨home, command, hargs⟩ := hargs
    exact aftermath_of_understands hargs now d
  · refine aftermath_of_not_understands ?_ now d
    intro home command hargs'
    exact hargs ⟨home, command, hargs'⟩

/-- A home directory that is reached through a directory which is missing. -/
def strayHome : Path := .ofString "home/way/.."

/-- A disk with a document below the home directory itself, where a directory stands in the place of
the draft. -/
def strayHomeDisk : Disk :=
  let home : Path := .ofString "home"
  (((Disk.empty.perform (.createDirectories (Workspace.directory home))).2.perform
    (.write (Workspace.document home) "{}".toUTF8)).2.perform
      (.createDirectories (Workspace.draft (Workspace.document home)))).2

/-- A run that fails to open the registry can make a document appear, and not that of the first
registry: it is found through the directory that the run has made. -/
theorem document_appears_below_home : ∃ now d', strayHomeDisk.IsTree ∧
    (⟨some strayHome, none, false⟩ : Environment).Understands strayHome ["tree"] (.tree false) ∧
    strayHomeDisk.isPresent (Workspace.document strayHome) = false ∧
    ((run ⟨some strayHome, none, false⟩ now ["tree"] : StateM Disk Report) strayHomeDisk).1.code = 1 ∧
    ((run ⟨some strayHome, none, false⟩ now ["tree"] : StateM Disk Report) strayHomeDisk).2 = d' ∧
    (d'.read (Workspace.document strayHome)).toOption = some "{}".toUTF8 ∧
    (Registry.initial now).render? ≠ some "{}" := by
  let now : Timestamp := ⟨⟨2024, 2, 29⟩, 720, 30, 0⟩
  have htree : strayHomeDisk.IsTree := ((Disk.isTree_empty.perform _).perform _).perform _
  have habsent : strayHomeDisk.isPresent (Workspace.document strayHome) = false := by decide +kernel
  have hcode : ((run ⟨some strayHome, none, false⟩ now ["tree"] : StateM Disk Report)
      strayHomeDisk).1.code = 1 := by decide +kernel
  have hread : (((run ⟨some strayHome, none, false⟩ now ["tree"] : StateM Disk Report)
      strayHomeDisk).2.read (Workspace.document strayHome)).toOption = some "{}".toUTF8 := by
    decide +kernel
  have hinitial : (Registry.initial now).render? ≠ some "{}" := by decide +kernel
  exact ⟨now, _, htree, ⟨_, rfl, rfl, rfl⟩, habsent, hcode, rfl, hread, hinitial⟩

end CommandLine
end PipelineRegistry
