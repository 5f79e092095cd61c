import Mathlib
import PipelineRegistry.Proofs.CommandLine.Processes
import PipelineRegistry.Proofs.Storage.Fleet

/-! # A document that is refused stays as it is

A document whose content is not a registry is refused by everyone who reads it: by a handle that is
opened, by a handle that has read nothing, and by the tool.  Nothing is remembered then and nothing is
written, so that the same document is refused again and again until somebody puts a registry in its
place; and then it is read as if it had never been refused. -/

namespace PipelineRegistry

open Calendar Storage

variable {document : Path} {content : ByteArray} {e : RegistryError} {d d' : Disk} {r : Registry}
  {h : Handle} {now : Timestamp} {call : Call}

/-- Reading the document fails with `e`. -/
structure Refused (document : Path) (e : RegistryError) (d : Disk) : Prop where
  read : ∃ content, d.read document = .ok content ∧ interpret document content = .error e

/-- A refused document is corrupted, or it is not a text. -/
theorem Refused.error_eq (hd : Refused document e d) :
    (∃ cause, e = .storageCorruption document cause) ∨ e = .io document .notUtf8 := by
  obtain ⟨content, -, hcontent⟩ := hd.read
  unfold interpret at hcontent
  split at hcontent
  · cases hcontent
    exact .inr rfl
  · rename_i text _
    cases hparse : Registry.parse text with
    | error cause =>
        rw [hparse] at hcontent
        cases hcontent
        exact .inl ⟨cause, rfl⟩
    | ok r =>
        rw [hparse] at hcontent
        cases hcontent

theorem Refused.loadOrSeed_eq (hd : Refused document e d) (now : Timestamp) :
    (loadOrSeed now document : StateM Disk _) d = (.error e, d) := by
  obtain ⟨content, hread, hcontent⟩ := hd.read
  rw [loadOrSeed_run, if_pos (Disk.isPresent_of_read hread), load_run, hread]
  exact Prod.ext hcontent rfl

/-! ### Handles -/

namespace Handle

theorem registry_of_refused (hd : Refused h.document e d) (hmemory : h.memory = none)
    (now : Timestamp) : (h.registry now : StateM Disk _) d = ((.error e, h), d) := by
  rw [registry_run, hmemory]
  simp only [hd.loadOrSeed_eq]

theorem forget_of_memory_eq_none (hmemory : h.memory = none) : h.forget = h := by
  rw [forget, ← hmemory]

theorem respond_of_refused (hd : Refused h.document e d) (hmemory : h.memory = none) (call : Call) :
    (h.respond call : StateM Disk _) d = ((.error e, h), d) := by
  have hregistry := registry_of_refused hd hmemory call.now
  rw [respond_run]
  cases call.request with
  | change operation =>
      simp only [perform, exclusively_run, hregistry]
      rfl
  | read =>
      simp only [hregistry]
      rfl
  | reset =>
      simp only [reset_run, forget_of_memory_eq_none hmemory, hregistry]
      rfl

end Handle

namespace Fleet

variable {ι : Type} [DecidableEq ι] {f : Fleet ι} {event : Event ι}

theorem serve_of_refused (hd : Refused f.document e d) (hcall : event.call?.isSome)
    (hmemory : f.memory event.name = none) :
    (f.serve event : StateM Disk _) d = ((.error e, f), d) := by
  have hcalled : ∀ name call, f.memory name = none →
      (f.serve (.called name call) : StateM Disk _) d = ((.error e, f), d) := by
    intro name call hname
    rw [serve_called, Handle.respond_of_refused hd hname]
    simp only [handle, remember_memory]
  cases event with
  | opened name now =>
      rw [serve_opened]
      exact hcalled _ _ hmemory
  | closed name => cases hcall
  | called name call => exact hcalled _ _ hmemory

end Fleet

/-! ### Accesses -/

namespace CommandLine

/-- Something is done with a handle, or the tool is run. -/
inductive Access (ι : Type) where
  | event (event : Event ι)
  | run (env : Environment) (now : Timestamp) (args : List String)

/-- What comes of an access. -/
inductive Response where
  | answer (answer : Except RegistryError Unit)
  | report (report : Report)

section accesses

variable {ι : Type} [DecidableEq ι] {m : Type → Type} [Monad m] [FileSystem m]

/-- Makes an access. -/
def Access.perform (f : Fleet ι) : Access ι → m (Response × Fleet ι)
  | event e => Prod.map Response.answer id <$> f.serve e
  | run env now args => return (.report (← CommandLine.run env now args), f)

/-- Makes accesses one after the other. -/
def accessAll (f : Fleet ι) : List (Access ι) → m (List Response × Fleet ι)
  | [] => pure ([], f)
  | access :: accesses => do
    let (response, f) ← access.perform f
    let (responses, f) ← accessAll f accesses
    pure (response :: responses, f)

end accesses

variable {ι : Type} {f : Fleet ι} {access : Access ι} {accesses : List (Access ι)}

/-- The access has to read the document: a handle is opened, or called while it remembers nothing, or
the arguments mean a command on the registry in the document. -/
def Access.Reads (f : Fleet ι) : Access ι → Prop
  | event e => e.call?.isSome ∧ f.memory e.name = none
  | run env _ args => ∃ home command, env.Understands home args command ∧
      Workspace.document home = f.document

/-- The access fails with `e`. -/
def Access.Fails (e : RegistryError) : Access ι → Response → Prop
  | event _, response => response = .answer (.error e)
  | run env _ args, response => ∃ home command, env.Understands home args command ∧
      response = .report (.failure s!"failed to open registry under {home.display}" (causes e))

variable [DecidableEq ι]

theorem Access.perform_event (f : Fleet ι) (event : Event ι) (d : Disk) :
    ((Access.event event).perform f : StateM Disk _) d =
      match (f.serve event : StateM Disk _) d with
      | ((answer, f'), d') => ((.answer answer, f'), d') := rfl

theorem Access.perform_run (f : Fleet ι) (env : Environment) (now : Timestamp) (args : List String)
    (d : Disk) : ((Access.run env now args).perform f : StateM Disk _) d =
      match (CommandLine.run env now args : StateM Disk Report) d with
      | (report, d') => ((.report report, f), d') := rfl

/-- A run that finds its document refused says so and does nothing else. -/
theorem run_of_refused {env : Environment} {args : List String} {home : Path} {command : Command}
    (hargs : env.Understands home args command) (hd : Refused (Workspace.document home) e d)
    (now : Timestamp) : (run env now args : StateM Disk Report) d =
      (.failure s!"failed to open registry under {home.display}" (causes e), d) := by
  have hopen : (Handle.openHome home now : StateM Disk _) d = (.error e, d) := by
    rw [Handle.openHome, Handle.openAt_run, Handle.registry_of_refused hd rfl]
    rfl
  rw [hargs.run_eq now, process_run]
  simp only [hopen]

theorem perform_of_refused (hd : Refused f.document e d) (haccess : access.Reads f) :
    ∃ response, (access.perform f : StateM Disk _) d = ((response, f), d) ∧
      access.Fails e response := by
  cases access with
  | event event =>
      obtain ⟨hcall, hmemory⟩ := haccess
      refine ⟨.answer (.error e), ?_, rfl⟩
      rw [Access.perform_event, Fleet.serve_of_refused hd hcall hmemory]
  | run env now args =>
      obtain ⟨home, command, hargs, hhome⟩ := haccess
      refine ⟨_, ?_, home, command, hargs, rfl⟩
      rw [← hhome] at hd
      rw [Access.perform_run, run_of_refused hargs hd]

theorem accessAll_of_refused (hd : Refused f.document e d)
    (haccesses : ∀ access ∈ accesses, access.Reads f) :
    ∃ responses, (accessAll f accesses : StateM Disk _) d = ((responses, f), d) ∧
      accesses.Forall₂ (Access.Fails e) responses := by
  induction accesses with
  | nil => exact ⟨[], rfl, .nil⟩
  | cons access accesses ih =>
      rw [List.forall_mem_cons] at haccesses
      obtain ⟨response, hrun, hfails⟩ := perform_of_refused hd haccesses.1
      obtain ⟨responses, hrest, hall⟩ := ih haccesses.2
      refine ⟨response :: responses, ?_, .cons hfails hall⟩
      unfold accessAll
      rw [bind_run, hrun]
      simp only [bind_run, hrest]
      rfl

/-- Whoever reads the document next finds `r`. -/
structure Finds (f : Fleet ι) (r : Registry) (d : Disk) : Prop where
  opened : ∀ name now,
    (f.serve (.opened name now) : StateM Disk _) d = ((.ok (), f.remember name (some r)), d)
  called : ∀ name call, f.memory name = none → (f.serve (.called name call) : StateM Disk _) d =
    ((f.remember name (some r)).serve (.called name call) : StateM Disk _) d
  run : ∀ env now args home command, env.Understands home args command →
    Workspace.document home = f.document → (run env now args : StateM Disk Report) d =
      (command.perform env.colours now ⟨f.document, some r⟩ : StateM Disk Report) d

theorem finds_of_mirrored (hr : Mirrored f.document r d) : Finds f r d := by
  constructor
  case opened => exact Fleet.serve_opened_of_mirrored hr
  case called =>
    intro name call hmemory
    have hrespond := Handle.respond_of_mirrored hr call
    have hhandle : f.handle name = Handle.fresh f.document := by
      rw [Fleet.handle, hmemory, Handle.fresh]
    rw [Fleet.serve_called, Fleet.serve_called, Fleet.handle_remember, hhandle, hrespond]
    simp only [Fleet.remember_remember]
  case run =>
    intro env now args home command hargs hhome
    rw [← hhome] at hr
    rw [hargs.run_eq now, process_run]
    simp only [openHome_of_mirrored hr, hhome]

/-- However a refused document is accessed, by handles that remember nothing or by the tool: each access
fails, and says that the document is corrupted or not a text; the handles go on remembering nothing,
and the disk is left exactly as it is.  As soon as a registry has been put in the place of the document
from outside, the next access finds it. -/
theorem accesses_refused {f : Fleet ι} {content : ByteArray} {accesses : List (Access ι)} {d : Disk}
    {e : RegistryError} (hread : d.read f.document = .ok content)
    (hcontent : interpret f.document content = .error e)
    (haccesses : ∀ access ∈ accesses, access.Reads f) :
    ((∃ cause, e = .storageCorruption f.document cause) ∨ e = .io f.document .notUtf8) ∧
    ∃ responses f', (accessAll f accesses : StateM Disk _) d = ((responses, f'), d) ∧ f' = f ∧
      accesses.Forall₂ (Access.Fails e) responses ∧
      ∀ r d', (load f.document : StateM Disk _) d' = (.ok r, d') → Finds f' r d' := by
  have hd : Refused f.document e d := ⟨content, hread, hcontent⟩
  obtain ⟨responses, hrun, hfails⟩ := accessAll_of_refused hd haccesses
  refine ⟨hd.error_eq, responses, f, hrun, rfl, hfails, ?_⟩
  intro r d' hload
  exact finds_of_mirrored (.of_load hload)

/-- The home directory of a run whose document is refused. -/
def refusedHome : Path := .ofString "home"

/-- A disk on which the document is an empty record. -/
def refusedDisk : Disk :=
  ((Disk.empty.perform (.createDirectories (.ofString "home/.easeci/workspace"))).2.perform
    (.write (Workspace.document refusedHome) "{}".toUTF8)).2

/-- A handle is opened, another one is told to add a group and is reset, and the tool is run. -/
def refusedAccesses (now : Timestamp) : List (Access Bool) :=
  [.event (.opened false now), .event (.called true ⟨now, .change (.createGroup ⟨"team", none, none⟩)⟩),
    .event (.called true ⟨now, .reset⟩), .run ⟨none, some refusedHome, false⟩ now ["tree"]]

theorem accesses_refused_empty : ∃ now responses f', (accessAll
      (Fleet.idle (Workspace.document refusedHome)) (refusedAccesses now) : StateM Disk _) refusedDisk =
        ((responses, f'), refusedDisk) ∧ f' = Fleet.idle (Workspace.document refusedHome) ∧
    (refusedAccesses now).Forall₂ (Access.Fails (.storageCorruption (Workspace.document refusedHome)
      (.unreadable (.missingField "projectGroups")))) responses := by
  let now : Timestamp := ⟨⟨2024, 2, 29⟩, 720, 30, 0⟩
  have hread : refusedDisk.read (Workspace.document refusedHome) = .ok "{}".toUTF8 := by
    decide +kernel
  have hcontent : interpret (Workspace.document refusedHome) "{}".toUTF8 = .error (.storageCorruption
      (Workspace.document refusedHome) (.unreadable (.missingField "projectGroups"))) := by
    decide +kernel
  have hargs : Environment.Understands ⟨none, some refusedHome, false⟩ refusedHome ["tree"]
      (.tree false) := ⟨_, rfl, rfl, rfl⟩
  have haccesses : ∀ access ∈ refusedAccesses now,
      access.Reads (Fleet.idle (Workspace.document refusedHome)) := by
    intro access haccess
    simp only [refusedAccesses, List.mem_cons, List.not_mem_nil, or_false] at haccess
    rcases haccess with rfl | rfl | rfl | rfl
    · exact ⟨rfl, rfl⟩
    · exact ⟨rfl, rfl⟩
    · exact ⟨rfl, rfl⟩
    · exact ⟨_, _, hargs, rfl⟩
  obtain ⟨-, responses, f', hrun, hidle, hfails, -⟩ :=
    accesses_refused (f := Fleet.idle (Workspace.document refusedHome)) hread hcontent haccesses
  exact ⟨now, responses, f', hrun, hidle, hfails⟩

end CommandLine
end PipelineRegistry
