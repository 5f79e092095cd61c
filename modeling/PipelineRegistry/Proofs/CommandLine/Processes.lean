import Mathlib
import PipelineRegistry.Proofs.CommandLine.Orders
import PipelineRegistry.Proofs.Storage.Agreement
import PipelineRegistry.Proofs.Storage.Failure

/-! # One process for each command

A run of the tool opens the registry anew for its one command.  What it finds is the registry that a
handle would remember that had been open all the time, because this is what the document holds.  So a
list of commands comes to the same whether each has a process of its own or all are carried out on one
handle: the same successes and failures, and in the end the same disk.

`Served` follows the registry and the disk through a list of orders; both ways of carrying them out go
along it. -/

namespace PipelineRegistry.CommandLine

open Calendar

/-! ### Calls and answers -/

/-- What comes of a call that succeeds: the outcome of an operation, or all that the registry holds, or
nothing when the registry was to be read anew. -/
inductive Answer where
  | outcome (o : Outcome)
  | registry (r : Registry)
  | done

/-- An order and what came of it. -/
abbrev Exchange : Type := Order × Except RegistryError Answer

/-- The report on a command whose call was answered.  Other pairs do not arise, because a change is
answered by an outcome and a look at the registry by the registry. -/
def Command.report (colours : Bool) (document : Path) :
    Command → Except RegistryError Answer → Report
  | change c, .ok (.outcome o) => .success (c.message colours o ++ "\n")
  | change c, .error e => .failure c.context (causes e)
  | tree json, .ok (.registry r) => treeReport colours json document r
  | tree _, .error e => .failure "failed to read registry" (causes e)
  | _, .ok _ => .success ""

/-- The report on an exchange about the registry below a home directory. -/
def Exchange.report (colours : Bool) (home : Path) (x : Exchange) : Report :=
  x.1.command.report colours (Workspace.document home) x.2

section calls

variable {m : Type → Type} [Monad m] [FileSystem m]

/-- Serves a call of an open handle, and gives what comes of it. -/
def consult (h : Handle) (call : Call) : m (Except RegistryError Answer × Handle) :=
  match call.request with
  | .change operation => Prod.map (Except.map .outcome) id <$> h.perform call.now operation
  | .read => Prod.map (Except.map .registry) id <$> h.registry call.now
  | .reset => Prod.map (Except.map fun _ => .done) id <$> h.reset call.now

/-- Serves calls one after the other, and gives what comes of each. -/
def consultAll : List Call → Handle → m (List (Except RegistryError Answer))
  | [], _ => pure []
  | call :: calls, h => do
    let (answer, h) ← consult h call
    return answer :: (← consultAll calls h)

/-- Opens a handle at the time of the first call and serves all of them on it. -/
def converse (home : Path) :
    List Call → m (Except RegistryError (List (Except RegistryError Answer)))
  | [] => pure (.ok [])
  | first :: calls => do
    match ← Handle.openHome home first.now with
    | .error e => pure (.error e)
    | .ok h => return .ok (← consultAll (first :: calls) h)

/-- Starts a process for an order. -/
def Order.process (colours : Bool) (home : Path) (order : Order) : m Report :=
  order.command.run colours order.now home

/-- Starts a process for each order, one after the other. -/
def processAll (colours : Bool) (home : Path) (orders : List Order) : m (List Report) :=
  orders.mapM (·.process colours home)

end calls

/-- The registry below `home` can be opened: its document is accepted, or there is none and the first
registry can be saved. -/
def Opens (home : Path) (now : Timestamp) (d : Disk) : Prop :=
  (∃ r, (Storage.load (Workspace.document home) : StateM Disk _) d = (.ok r, d)) ∨
    d.isPresent (Workspace.document home) = false ∧
      ∃ d₁, (Storage.save (Workspace.document home) (.initial now) : StateM Disk _) d = (.ok (), d₁)

variable {colours : Bool} {home document : Path} {order : Order} {orders : List Order}
  {answer : Except RegistryError Answer} {xs before after : List Exchange} {r r' : Registry}
  {d d₁ d' : Disk} {h : Handle} {now : Timestamp} {e : RegistryError}

/-- A run whose arguments are understood is the process for the command. -/
theorem Environment.Understands.run_eq {env : Environment} {args : List String} {command : Command}
    (hargs : env.Understands home args command) (now : Timestamp) :
    (run env now args : StateM Disk Report) =
      (⟨now, command⟩ : Order).process env.colours home := by
  obtain ⟨invocation, hread, hcommand, hhome⟩ := hargs
  simp only [run, hread, hhome, hcommand]
  rfl

theorem run_of_understands (env : Environment) (args : List String) (order : Order)
    (hcolours : env.colours = colours) (hargs : env.Understands home args order.command) :
    (run env order.now args : StateM Disk Report) = order.process colours home :=
  hcolours ▸ hargs.run_eq order.now

/-! ### One order -/

theorem consult_call_run (order : Order) (h : Handle) (d : Disk) :
    (consult h order.call : StateM Disk _) d = match order.command with
      | .change c => match (h.perform order.now (c.operation order.now) : StateM Disk _) d with
        | ((result, h'), d') => ((result.map .outcome, h'), d')
      | .tree _ => match (h.registry order.now : StateM Disk _) d with
        | ((result, h'), d') => ((result.map .registry, h'), d') := by
  unfold consult Order.call
  cases order.command <;> rfl

/-- A command is performed by the call of its order. -/
theorem perform_run (h : Handle) (d : Disk) :
    (order.command.perform colours order.now h : StateM Disk Report) d =
      match (consult h order.call : StateM Disk _) d with
        | ((answer, _), d') => (order.command.report colours h.document answer, d') := by
  rw [consult_call_run]
  unfold Command.perform
  cases order.command with
  | change c =>
      simp only [bind_run]
      generalize (h.perform order.now (c.operation order.now) : StateM Disk _) d = performed
      obtain ⟨⟨_ | _, h'⟩, d'⟩ := performed <;> rfl
  | tree json =>
      simp only [bind_run]
      generalize (h.registry order.now : StateM Disk _) d = found
      obtain ⟨⟨_ | _, h'⟩, d'⟩ := found <;> rfl

theorem process_run (d : Disk) : (order.process colours home : StateM Disk Report) d =
    match (Handle.openHome home order.now : StateM Disk _) d with
      | (.ok h, d') => (order.command.perform colours order.now h : StateM Disk Report) d'
      | (.error e, d') =>
        (.failure s!"failed to open registry under {home.display}" (causes e), d') := by
  unfold Order.process Command.run
  rw [bind_run]
  generalize (Handle.openHome home order.now : StateM Disk _) d = opened
  obtain ⟨_ | _, d'⟩ := opened <;> rfl

/-- Where the document holds a registry, opening finds it. -/
theorem openHome_of_mirrored (hr : Mirrored (Workspace.document home) r d) (now : Timestamp) :
    (Handle.openHome home now : StateM Disk _) d = (.ok ⟨Workspace.document home, some r⟩, d) := by
  rw [Handle.openHome, Handle.openAt_run, hr.registry_eq]
  rfl

/-- A process makes the call of its order on the registry that the document holds. -/
theorem process_of_mirrored (hr : Mirrored (Workspace.document home) r d) :
    (order.process colours home : StateM Disk Report) d =
      match (consult ⟨Workspace.document home, some r⟩ order.call : StateM Disk _) d with
        | ((answer, _), d') =>
          (order.command.report colours (Workspace.document home) answer, d') := by
  rw [process_run, openHome_of_mirrored hr]
  exact perform_run _ d

/-- An order leaves a registry in memory, and the document holds it. -/
theorem exists_consult (hnow : order.now.IsValid) (hr : Mirrored document r d) :
    ∃ answer r' d', (consult ⟨document, some r⟩ order.call : StateM Disk _) d =
      ((answer, ⟨document, some r'⟩), d') ∧ Mirrored document r' d' := by
  rw [consult_call_run]
  cases order.command with
  | change c =>
      have hoperation : (c.operation order.now).Dated := by
        cases c with
        | addPipeline registration => exact hnow
        | _ => trivial
      obtain ⟨result, r', d', hperform, hr'⟩ := hr.perform hnow hoperation
      simp only [hperform]
      exact ⟨_, r', d', rfl, hr'⟩
  | tree json => exact ⟨_, r, d, rfl, hr⟩

/-- A report says by its code whether the command succeeded. -/
theorem code_report (hrender : r.render?.isSome)
    (hrun : (consult ⟨document, some r⟩ order.call : StateM Disk _) d = ((answer, h), d')) :
    (order.command.report colours document answer).code = 0 ↔ answer.isOk := by
  rw [consult_call_run] at hrun
  cases hcommand : order.command with
  | change c =>
      cases answer with
      | error e => exact ⟨nofun, nofun⟩
      | ok a => cases a <;> exact ⟨fun _ => rfl, fun _ => rfl⟩
  | tree json =>
      rw [hcommand] at hrun
      cases hrun
      refine ⟨fun _ => rfl, fun _ => ?_⟩
      change (treeReport colours json document r).code = 0
      obtain ⟨text, htext⟩ := Option.isSome_iff_exists.mp hrender
      unfold treeReport
      rw [htext]
      split <;> rfl

/-- Where an order fails, nothing has happened to the disk, or a registry could not be saved. -/
theorem consult_error_cases (hrun : (consult ⟨document, some r⟩ order.call : StateM Disk _) d =
      ((.error e, h), d')) : h = ⟨document, some r⟩ ∧ (d' = d ∨ ∃ working,
        (Storage.save document working : StateM Disk _) d = (.error e, d')) := by
  rw [consult_call_run] at hrun
  cases hcommand : order.command with
  | tree json =>
      rw [hcommand] at hrun
      cases hrun
  | change c =>
      simp only [hcommand] at hrun
      generalize hperform : ((⟨document, some r⟩ : Handle).perform order.now
        (c.operation order.now) : StateM Disk _) d = performed at hrun
      obtain ⟨⟨_ | _, h'⟩, d''⟩ := performed <;> cases hrun
      exact Handle.perform_error rfl hperform

/-- An order that fails, and not because the disk refused a step, leaves everything as it was. -/
theorem consult_error (hr : Mirrored (Workspace.document home) r d)
    (hio : ∀ p cause, e ≠ .io p cause)
    (hrun : (consult ⟨Workspace.document home, some r⟩ order.call : StateM Disk _) d =
      ((.error e, h), d')) : h = ⟨Workspace.document home, some r⟩ ∧ d' = d := by
  obtain ⟨rfl, hdisk⟩ := consult_error_cases hrun
  refine ⟨rfl, ?_⟩
  rcases hdisk with rfl | ⟨working, hsave⟩
  · rfl
  · refine Storage.eq_of_save_error ?_ hio hsave
    intro dir hdir
    obtain ⟨dir', last, hlast, hparent, hne⟩ := Workspace.exists_parent_document home
    obtain rfl := Option.some_inj.mp (hparent.symm.trans hdir)
    obtain ⟨content, hread, -⟩ := hr.stored
    exact Disk.isPresent_parent (Disk.isPresent_of_read hread) hlast hparent hne

/-! ### Lists of orders -/

/-- The calls of the orders are answered in this way one after the other, from a registry and a disk that
holds it to others. -/
inductive Served (document : Path) : Registry → Disk → List Exchange → Registry → Disk → Prop
  | nil {r : Registry} {d : Disk} : Served document r d [] r d
  | cons {order : Order} {answer : Except RegistryError Answer} {xs : List Exchange}
      {r r₁ r' : Registry} {d d₁ d' : Disk} :
      (consult ⟨document, some r⟩ order.call : StateM Disk _) d = ((answer, ⟨document, some r₁⟩), d₁) →
      Mirrored document r d → Mirrored document r₁ d₁ → Served document r₁ d₁ xs r' d' →
      Served document r d ((order, answer) :: xs) r' d'

theorem exists_served (hnow : ∀ order ∈ orders, order.now.IsValid) (hr : Mirrored document r d) :
    ∃ xs r' d', xs.map Prod.fst = orders ∧ Served document r d xs r' d' := by
  induction orders generalizing r d with
  | nil => exact ⟨[], r, d, rfl, .nil⟩
  | cons order orders ih =>
      rw [List.forall_mem_cons] at hnow
      obtain ⟨answer, r₁, d₁, hrun, hr₁⟩ := exists_consult hnow.1 hr
      obtain ⟨xs, r', d', horders, hserved⟩ := ih hnow.2 hr₁
      exact ⟨(order, answer) :: xs, r', d', congrArg (order :: ·) horders, .cons hrun hr hr₁ hserved⟩

namespace Served

theorem consultAll (h : Served document r d xs r' d') :
    (CommandLine.consultAll ((xs.map Prod.fst).map Order.call) ⟨document, some r⟩ :
      StateM Disk _) d = (xs.map Prod.snd, d') := by
  induction h with
  | nil => rfl
  | cons hrun _ _ _ ih =>
      simp only [List.map_cons, CommandLine.consultAll, bind_run, hrun, ih]
      rfl

theorem processAll (colours : Bool) (h : Served (Workspace.document home) r d xs r' d') :
    (CommandLine.processAll colours home (xs.map Prod.fst) : StateM Disk _) d =
      (xs.map (Exchange.report colours home), d') := by
  induction h with
  | nil => rfl
  | cons hrun hr _ _ ih =>
      unfold CommandLine.processAll at ih ⊢
      rw [List.map_cons, List.mapM_cons, bind_run, process_of_mirrored hr, hrun, bind_run, ih]
      rfl

theorem code_report (h : Served (Workspace.document home) r d xs r' d') :
    ∀ x ∈ xs, (x.report colours home).code = 0 ↔ x.2.isOk := by
  induction h with
  | nil => exact fun x hx => absurd hx List.not_mem_nil
  | cons hrun hr _ _ ih =>
      exact List.forall_mem_cons.mpr ⟨CommandLine.code_report hr.isSome_render? hrun, ih⟩

/-- An order that fails may be left out. -/
theorem leaveOut (hio : ∀ p cause, e ≠ .io p cause)
    (h : Served (Workspace.document home) r d (before ++ (order, .error e) :: after) r' d') :
    Served (Workspace.document home) r d (before ++ after) r' d' := by
  induction before generalizing r d with
  | nil =>
      cases h with
      | cons hrun hr _ hserved =>
          obtain ⟨hhandle, rfl⟩ := consult_error hr hio hrun
          cases hhandle
          exact hserved
  | cons x before ih =>
      cases h with
      | cons hrun hr hr₁ hserved => exact .cons hrun hr hr₁ (ih hserved)

end Served

/-! ### All orders -/

/-- Where the registry can be opened, it is remembered and in the document afterwards. -/
theorem Opens.openHome (h : Opens home now d) (hnow : now.IsValid) : ∃ r d₁,
    (Handle.openHome home now : StateM Disk _) d =
      (.ok ⟨Workspace.document home, some r⟩, d₁) ∧ Mirrored (Workspace.document home) r d₁ ∧
    ((∃ r, (Storage.load (Workspace.document home) : StateM Disk _) d = (.ok r, d)) → d₁ = d) := by
  rcases h with ⟨r, hload⟩ | ⟨habsent, d₁, hsave⟩
  · have hr := Mirrored.of_load hload
    exact ⟨r, d, openHome_of_mirrored hr now, hr, fun _ => rfl⟩
  · refine ⟨.initial now, d₁, ?_, .of_save (Registry.valid_initial now)
      (Registry.dated_initial hnow) hsave, ?_⟩
    · rw [Handle.openHome, Handle.openAt_run, Handle.registry_run, Handle.fresh]
      simp only [Storage.loadOrSeed_run, habsent, hsave]
      rfl
    · rintro ⟨r, hload⟩
      obtain ⟨content, hread, -⟩ := (Mirrored.of_load hload).stored
      rw [Disk.isPresent_of_read hread] at habsent
      cases habsent

/-- Processes find what they would find if the registry had been opened before. -/
theorem processAll_cons_of_openHome {first : Order}
    (hopen : (Handle.openHome home first.now : StateM Disk _) d =
      (.ok ⟨Workspace.document home, some r⟩, d₁))
    (hr : Mirrored (Workspace.document home) r d₁) :
    (processAll colours home (first :: orders) : StateM Disk _) d =
      (processAll colours home (first :: orders) : StateM Disk _) d₁ := by
  have hfirst : (first.process colours home : StateM Disk _) d =
      (first.process colours home : StateM Disk _) d₁ := by
    rw [process_run, process_run, hopen, openHome_of_mirrored hr]
  unfold processAll
  rw [List.mapM_cons, bind_run, hfirst]
  rfl

/-- What comes of orders for the registry below `home` on the disk `d`: `d₁` is the disk when the
registry has been opened, and `d'` the disk in the end. -/
structure Transcript (colours : Bool) (home : Path) (orders : List Order) (d : Disk)
    (xs : List Exchange) (d₁ d' : Disk) : Prop where
  orders_eq : xs.map Prod.fst = orders
  opened : ∀ first ∈ orders.head?, ((Handle.openHome home first.now : StateM Disk _) d).2 = d₁
  /-- Opening leaves a document that is there alone. -/
  opened_eq : (∃ r, (Storage.load (Workspace.document home) : StateM Disk _) d = (.ok r, d)) → d₁ = d
  /-- The orders ask for calls, which are answered in this way on one handle. -/
  conversed : ∃ calls, (∀ calls', orders.Forall₂ Order.Asks calls' ↔ calls' = calls) ∧
    (converse home calls : StateM Disk _) d = (.ok (xs.map Prod.snd), d')
  processed : (processAll colours home orders : StateM Disk _) d =
    (xs.map (Exchange.report colours home), d')
  succeeded : ∀ x ∈ xs, (x.report colours home).code = 0 ↔ x.2.isOk
  /-- A command that fails, and not because the disk refused a step, may be left out: of the first one
  it only remains that the registry has been opened. -/
  skipped : ∀ before order e after, xs = before ++ (order, .error e) :: after →
    (∀ p cause, e ≠ .io p cause) → ∀ start, start = d₁ ∨ start = d ∧ before ≠ [] →
      (processAll colours home ((before ++ after).map Prod.fst) : StateM Disk _) start =
        ((before ++ after).map (Exchange.report colours home), d')
  /-- A process is a run of the tool with arguments that mean the command. -/
  started : ∀ (env : Environment) (args : List String), ∀ order ∈ orders, env.colours = colours →
    env.Understands home args order.command →
      (run env order.now args : StateM Disk Report) = order.process colours home
  /-- Arguments that spell the command mean it. -/
  spelled : ∀ (env : Environment) (args : List String), ∀ order ∈ orders,
    env.Spells home args order.command → env.Understands home args order.command

theorem transcript_nil (colours : Bool) (home : Path) (d : Disk) :
    Transcript colours home [] d [] d d := by
  constructor
  case orders_eq => rfl
  case opened => rintro _ ⟨⟩
  case opened_eq => exact fun _ => rfl
  case conversed => exact ⟨[], fun _ => List.forall₂_nil_left_iff, rfl⟩
  case processed => rfl
  case succeeded => exact fun x hx => absurd hx List.not_mem_nil
  case skipped =>
    intro before order e after hxs
    exact absurd hxs.symm (List.append_ne_nil_of_right_ne_nil _ (List.cons_ne_nil _ _))
  case started => exact fun env args order _ => run_of_understands env args order
  case spelled => exact fun _ _ _ _ hargs => hargs.understands

/-- Answered calls on the handle that is opened first are a transcript of their orders. -/
theorem Served.transcript {first : Order}
    (h : Served (Workspace.document home) r d₁ xs r' d') (horders : xs.map Prod.fst = first :: orders)
    (hopen : (Handle.openHome home first.now : StateM Disk _) d =
      (.ok ⟨Workspace.document home, some r⟩, d₁))
    (hr : Mirrored (Workspace.document home) r d₁)
    (hsame : (∃ r, (Storage.load (Workspace.document home) : StateM Disk _) d = (.ok r, d)) → d₁ = d)
    (colours : Bool) : Transcript colours home (first :: orders) d xs d₁ d' := by
  constructor
  case orders_eq => exact horders
  case opened =>
    rintro _ ⟨⟩
    rw [hopen]
  case opened_eq => exact hsame
  case conversed =>
    have hconsulted := h.consultAll
    rw [horders] at hconsulted
    refine ⟨(first :: orders).map Order.call, fun _ => Order.forall₂_asks_iff, ?_⟩
    have hnow : first.call.now = first.now := rfl
    rw [List.map_cons, converse, bind_run, hnow, hopen]
    rw [List.map_cons] at hconsulted
    simp only [bind_run, hconsulted]
    rfl
  case processed =>
    have hprocessed := h.processAll colours
    rw [horders] at hprocessed
    rw [processAll_cons_of_openHome hopen hr, hprocessed]
  case succeeded => exact h.code_report
  case skipped =>
    rintro before order e after rfl hio start hstart
    have hskipped := (h.leaveOut hio).processAll colours
    rcases hstart with rfl | ⟨rfl, hne⟩
    · exact hskipped
    · obtain ⟨x, before, rfl⟩ := List.exists_cons_of_ne_nil hne
      obtain ⟨rfl, -⟩ := List.cons.inj horders
      rw [← hskipped]
      exact processAll_cons_of_openHome hopen hr
  case started => exact fun env args order _ => run_of_understands env args order
  case spelled => exact fun _ _ _ _ hargs => hargs.understands

/-- Commands that are run one after the other, each by a process of its own, succeed and fail as the
operations that they stand for on one handle that has been opened once, and leave the same disk. -/
theorem exists_transcript (colours : Bool) (hnow : ∀ order ∈ orders, order.now.IsValid)
    (hopens : ∀ first ∈ orders.head?, Opens home first.now d) :
    ∃ xs d₁ d', Transcript colours home orders d xs d₁ d' := by
  cases orders with
  | nil => exact ⟨[], d, d, transcript_nil colours home d⟩
  | cons first orders =>
      obtain ⟨r, d₁, hopen, hr, hsame⟩ :=
        (hopens first rfl).openHome (hnow first List.mem_cons_self)
      obtain ⟨xs, r', d', horders, hserved⟩ := exists_served hnow hr
      exact ⟨xs, d₁, d', hserved.transcript horders hopen hr hsame colours⟩

/-- A group, a project in it and a pipeline, an edit of a group that is not there, another name for the
pipeline, the removal of the group without its project, that of the secured project, and a look. -/
def someOrders (now : Timestamp) : List Order :=
  let registration : Registration :=
    ⟨1, "nightly", "main", .ofString "Easefile", .ofString "main.pipe", some "ci", none⟩
  let changes : List Change := [.addGroup ⟨"team", none, none⟩, .addProject ⟨1, "build", none, none⟩,
    .addPipeline registration, .editGroup 7 (.tag "lost"), .editPipeline 1 0 (.rename "trunk"),
    .removeGroup 1 false, .removeProject 0 0 true]
  (changes.map Command.change ++ [Command.tree true]).map (⟨now, ·⟩)

/-- What these orders come to: one fails, and the look shows the project in the secured group, with its
pipeline. -/
def isSomeAnswers (now : Timestamp) : List (Except RegistryError Answer) → Bool
  | [.ok (.outcome (.group _)), .ok (.outcome (.project _)), .ok (.outcome (.pointer _)), .error _,
      .ok (.outcome (.pointer _)), .ok (.outcome (.group _)), .ok (.outcome .nothing),
      .ok (.registry r)] =>
    r.groups.toList.map Group.name = ["other"] ∧
    r.projects.map (fun p => (p.id, p.name)) = [(0, "other"), (1, "build")] ∧
    r.pointers.map (fun q => (q.projectId, q.pipeline, q.name, q.tag, q.created)) =
      [(1, "nightly", "trunk", some "ci", now)]
  | _ => false

theorem exists_transcript_some : ∃ xs d₁ d', Transcript false (.ofString "home")
    (someOrders ⟨⟨2024, 2, 29⟩, 720, 30, 0⟩) .empty xs d₁ d' ∧
    isSomeAnswers ⟨⟨2024, 2, 29⟩, 720, 30, 0⟩ (xs.map Prod.snd) := by
  have hnow : ∀ order ∈ someOrders ⟨⟨2024, 2, 29⟩, 720, 30, 0⟩, order.now.IsValid := by
    intro order horder
    obtain ⟨command, -, rfl⟩ := List.mem_map.mp horder
    have hvalid : Timestamp.IsValid ⟨⟨2024, 2, 29⟩, 720, 30, 0⟩ := by decide
    exact hvalid
  have habsent : Disk.empty.isPresent (Workspace.document (.ofString "home")) = false := by
    decide +kernel
  have hsave : ((Storage.save (Workspace.document (.ofString "home"))
      (.initial ⟨⟨2024, 2, 29⟩, 720, 30, 0⟩) : StateM Disk _) .empty).1 = .ok () := by decide +kernel
  obtain ⟨xs, d₁, d', htranscript⟩ := exists_transcript false hnow (by
    rintro _ ⟨⟩
    exact .inr ⟨habsent, _, Prod.ext hsave rfl⟩)
  obtain ⟨calls, hasked, hconversed⟩ := htranscript.conversed
  obtain rfl := (hasked _).mp (Order.forall₂_asks_iff.mpr rfl)
  have hanswers : ((converse (.ofString "home") ((someOrders ⟨⟨2024, 2, 29⟩, 720, 30, 0⟩).map
      Order.call) : StateM Disk _) .empty).1.toOption.any
        (isSomeAnswers ⟨⟨2024, 2, 29⟩, 720, 30, 0⟩) = true := by
    decide +kernel
  rw [hconversed] at hanswers
  exact ⟨xs, d₁, d', htranscript, hanswers⟩

end PipelineRegistry.CommandLine
