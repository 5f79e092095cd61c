import Mathlib
import PipelineRegistry.Proofs.Registry.Agreement
import PipelineRegistry.Proofs.Registry.Names
import PipelineRegistry.Proofs.Registry.Removal
import PipelineRegistry.Proofs.Storage.Save

/-! # Removals through a handle

What a handle answers when a project or a group is to be removed, and what it remembers afterwards, as
long as the changed registry can be saved. -/

namespace PipelineRegistry

open Calendar

/-! ### Operations that can be saved -/

namespace Registry

variable {r r' : Registry} {now : Timestamp} {operation : Operation}

/-- What a successful operation answers, and the registry after it. -/
theorem answer_of_ok {outcome : Outcome} (h : operation.perform now r = .ok (outcome, r')) :
    (operation.perform now r).map Prod.fst = .ok outcome ∧ r.after now operation = r' := by
  rw [after, h]
  exact ⟨rfl, rfl⟩

theorem answer_of_error {e : RegistryError} (h : operation.perform now r = .error e) :
    (operation.perform now r).map Prod.fst = .error e ∧ r.after now operation = r := by
  rw [after, h]
  exact ⟨rfl, rfl⟩

theorem Valid.after (hr : r.Valid) (now : Timestamp) (operation : Operation) :
    (r.after now operation).Valid := by
  unfold Registry.after
  split
  · rename_i hperform
    exact hr.perform hperform
  · exact hr

end Registry

namespace Handle

/-- What the operation makes of the registry in memory can be committed. -/
def CanCommit (h : Handle) (now : Timestamp) (operation : Operation) (d : Disk) : Prop :=
  ∀ r ∈ h.memory, ∀ changed ∈ (operation.perform now r).toOption,
    ((h.commit r changed.2 : StateM Disk _) d).1.isOk

instance (h : Handle) (now : Timestamp) (operation : Operation) (d : Disk) :
    Decidable (h.CanCommit now operation d) :=
  inferInstanceAs (Decidable (∀ r ∈ h.memory, ∀ changed ∈ (operation.perform now r).toOption,
    ((h.commit r changed.2 : StateM Disk _) d).1.isOk))

variable {h : Handle} {r : Registry} {now : Timestamp} {operation : Operation} {d : Disk}

/-- The handle answers what the operation gives and remembers the registry after it.  The document
holds this registry, unless it is the one that was there before and the disk is left alone. -/
theorem perform_of_canCommit (hmemory : h.memory = some r) (hr : r.Valid)
    (hcommit : h.CanCommit now operation d) : ∃ d', (h.perform now operation : StateM Disk _) d =
      (((operation.perform now r).map Prod.fst,
        { h with memory := some (r.after now operation) }), d') ∧
      (r.after now operation = r ∧ d' = d ∨ ∃ text, (r.after now operation).render? = some text ∧
        d'.read h.document = .ok text.toUTF8) := by
  generalize hrun : (h.perform now operation : StateM Disk _) d = served
  obtain ⟨⟨answer, h'⟩, d'⟩ := served
  rcases exclusively_cases hmemory hrun with ⟨e, hperform, rfl, rfl, rfl⟩ | ⟨outcome, r', hperform, hdone⟩
  · obtain ⟨hanswer, hafter⟩ := Registry.answer_of_error hperform
    rw [hanswer, hafter, ← hmemory]
    exact ⟨d', rfl, .inl ⟨rfl, rfl⟩⟩
  · obtain ⟨hanswer, hafter⟩ := Registry.answer_of_ok hperform
    rw [hanswer, hafter]
    have hable := hcommit r hmemory (outcome, r') (by rw [hperform]; rfl)
    rcases hdone with ⟨e, hfailed, -, -⟩ | ⟨hdone, rfl, rfl⟩
    · rw [hfailed] at hable
      cases hable
    · refine ⟨d', rfl, ?_⟩
      unfold commit at hdone
      split at hdone
      · rename_i hagrees
        cases hdone
        exact .inl ⟨hr.eq_of_agrees hperform hagrees, rfl⟩
      · exact .inr (Storage.read_of_save_ok hdone)

/-- The handle performs the operation; `spec` says what it answers and what it remembers then.  The
document holds this registry, unless it is the one that was there before and the disk is left alone. -/
def Performs (h : Handle) (now : Timestamp) (operation : Operation) (d : Disk)
    (spec : Except RegistryError Outcome → Registry → Prop) : Prop :=
  ∃ answer r' d', (h.perform now operation : StateM Disk _) d =
      ((answer, { h with memory := some r' }), d') ∧ spec answer r' ∧
    (h.memory = some r' ∧ d' = d ∨
      ∃ text, r'.render? = some text ∧ d'.read h.document = .ok text.toUTF8)

theorem performs_of_canCommit {spec : Except RegistryError Outcome → Registry → Prop}
    (hmemory : h.memory = some r) (hr : r.Valid) (hcommit : h.CanCommit now operation d)
    (hspec : spec ((operation.perform now r).map Prod.fst) (r.after now operation)) :
    h.Performs now operation d spec := by
  obtain ⟨d', hrun, hsaved⟩ := perform_of_canCommit hmemory hr hcommit
  refine ⟨_, _, d', hrun, hspec, hsaved.imp_left ?_⟩
  rintro ⟨hsame, hd⟩
  exact ⟨hmemory.trans (congrArg some hsame.symm), hd⟩

end Handle

namespace Registry

variable {r : Registry}

/-! ### Projects -/

/-- What is answered when project `p` of group `g` is to be removed from `r`, and the registry `r'`
afterwards. -/
structure ProjectRemoval (r : Registry) (g : GroupId) (p : ProjectId) (hard : Bool)
    (answer : Except RegistryError Outcome) (r' : Registry) : Prop where
  no_group : r.group? g = none → answer = .error (.notFound .group g) ∧ r' = r
  not_in_group : ∀ group, r.group? g = some group → p ∉ group.projects.keys →
    answer = .error (.notFound .project p) ∧ r' = r
  secured : ∀ group, r.group? g = some group → p ∈ group.projects.keys → p = securedProjectId →
    answer = .ok .nothing ∧ r' = r
  found : ∀ group project, r.group? g = some group → group.projects.get? p = some project →
    p ≠ securedProjectId → ∃ secured, r.project? securedProjectId = some secured ∧
      if hard = true ∨ secured.nextPointerId.toNat + project.pointers.size < UInt64.size
      then answer = .ok (.project project) ∧ r.LosesProject r' g p (project.kept hard)
      else answer = .error (.idsExhausted .pointer) ∧ r' = r

theorem Valid.projectRemoval (hr : r.Valid) (now : Timestamp) (g : GroupId) (p : ProjectId)
    (hard : Bool) : r.ProjectRemoval g p hard
      (((Operation.deleteProject g p hard).perform now r).map Prod.fst)
      (r.after now (.deleteProject g p hard)) := by
  have hresult : (Operation.deleteProject g p hard).perform now r =
      (r.deleteProject g p hard).map (Prod.map .ofProject? id) := rfl
  constructor
  case no_group =>
    intro hgroup
    rw [deleteProject_of_group?_eq_none hgroup] at hresult
    exact answer_of_error hresult
  case not_in_group =>
    intro group hgroup hp
    rw [deleteProject_of_not_mem hgroup hp] at hresult
    exact answer_of_error hresult
  case secured =>
    rintro group hgroup hp rfl
    rw [deleteProject_secured hgroup hp] at hresult
    exact answer_of_ok hresult
  case found =>
    intro group project hgroup hproject hp
    obtain ⟨secured, hsecured⟩ := hr.exists_securedProject
    rw [hr.deleteProject_eq hgroup hproject hp hsecured] at hresult
    refine ⟨secured, hsecured, ?_⟩
    split
    · rename_i hfit
      rw [if_pos hfit] at hresult
      obtain ⟨hanswer, hafter⟩ := answer_of_ok hresult
      have howner := hr.ownerOf?_of_mem_keys hgroup (Listing.mem_keys_of_get? hproject)
      rw [hafter]
      exact ⟨hanswer, hr.losesProject howner hp hsecured (Project.length_kept_lt hfit)⟩
    · rename_i hfit
      rw [if_neg hfit] at hresult
      exact answer_of_error hresult

/-! ### Groups -/

/-- What is answered when group `g` is to be removed from `r`, and the registry `r'` afterwards. -/
structure GroupRemoval (r : Registry) (g : GroupId) (hard : Bool)
    (answer : Except RegistryError Outcome) (r' : Registry) : Prop where
  no_group : r.group? g = none → answer = .error (.notFound .group g) ∧ r' = r
  secured : g = securedGroupId → answer = .error (.securedEntity .group g) ∧ r' = r
  found : ∀ group, r.group? g = some group → g ≠ securedGroupId →
    answer = .ok (.group group) ∧ r.LosesGroup r' group hard

theorem Valid.groupRemoval (hr : r.Valid) (now : Timestamp) (g : GroupId) (hard : Bool) :
    r.GroupRemoval g hard (((Operation.deleteGroup g hard).perform now r).map Prod.fst)
      (r.after now (.deleteGroup g hard)) := by
  have hresult : (Operation.deleteGroup g hard).perform now r =
      (r.deleteGroup g hard).map (Prod.map .group id) := rfl
  constructor
  case no_group =>
    intro hgroup
    rw [deleteGroup_of_group?_eq_none hgroup] at hresult
    exact answer_of_error hresult
  case secured =>
    rintro rfl
    obtain ⟨group, hgroup, -⟩ := hr.secured
    rw [deleteGroup_secured hgroup] at hresult
    exact answer_of_error hresult
  case found =>
    intro group hgroup hg
    rw [deleteGroup_eq hgroup hg] at hresult
    obtain ⟨hanswer, hafter⟩ := answer_of_ok hresult
    rw [hafter]
    exact ⟨hanswer, hr.losesGroup hgroup hg hard⟩

end Registry

/-- A handle that remembers a registry. -/
def holding (r : Registry) : Handle := ⟨.ofString "home/registry.json", some r⟩

/-- A registry with a project of two pointers in a group of its own, and a pointer in the secured
project. -/
def Registry.stocked (now : Timestamp) : Registry :=
  let pointer (project : ProjectId) (pipeline : PipelineId) : Operation := .createPointer
    ⟨project, pipeline, pipeline, .ofString "Easefile", .ofString "main.pipe", none, none, now⟩
  [.createGroup ⟨"team", none, none⟩, .createProject ⟨1, "build", none, none⟩, pointer 0 "nightly",
    pointer 1 "weekly", pointer 1 "daily"].foldl (fun r operation => r.after now operation) (.initial now)

theorem Registry.valid_stocked (now : Timestamp) : (stocked now).Valid :=
  List.foldlRecOn _ _ (valid_initial now) fun _ hr operation _ => hr.after now operation

/-- A handle that remembers this registry. -/
def stockedHandle (now : Timestamp) : Handle := ⟨.ofString "home/registry.json", some (.stocked now)⟩

/-! ### Handles -/

variable {h : Handle} {r : Registry} {now : Timestamp} {g : GroupId} {p : ProjectId} {hard : Bool}
  {d : Disk}

/-- A handle that can save removes a project: what it answers, what it remembers and what is in the
document afterwards. -/
theorem projectRemoval_of_perform (hmemory : h.memory = some r) (hr : r.Valid)
    (hcommit : h.CanCommit now (.deleteProject g p hard) d) : ∃ answer r' d',
    (h.perform now (.deleteProject g p hard) : StateM Disk _) d =
      ((answer, { h with memory := some r' }), d') ∧
    r.ProjectRemoval g p hard answer r' ∧
    (r' = r ∧ d' = d ∨ ∃ text, r'.render? = some text ∧ d'.read h.document = .ok text.toUTF8) := by
  obtain ⟨d', hrun, hsaved⟩ := Handle.perform_of_canCommit hmemory hr hcommit
  exact ⟨_, _, d', hrun, hr.projectRemoval now g p hard, hsaved⟩

/-- The pointers of the project come to the secured project under the identifiers that come next. -/
theorem projectRemoval_of_perform_stocked : ∃ now answer r' d',
    (stockedHandle now).memory = some (.stocked now) ∧
    ((stockedHandle now).perform now (.deleteProject 1 1 false) : StateM Disk _) .empty =
      ((answer, { stockedHandle now with memory := some r' }), d') ∧
    (Registry.stocked now).ProjectRemoval 1 1 false answer r' ∧
    r'.pointers.map (fun q => (q.pipeline, q.projectId, q.id)) =
      [("nightly", 0, 0), ("weekly", 0, 1), ("daily", 0, 2)] := by
  let now : Timestamp := ⟨⟨2024, 2, 29⟩, 720, 30, 0⟩
  have hcommit : (stockedHandle now).CanCommit now (.deleteProject 1 1 false) .empty := by
    decide +kernel
  have hpointers : (((stockedHandle now).perform now (.deleteProject 1 1 false) : StateM Disk _)
      .empty).1.2.memory.map (·.pointers.map fun q => (q.pipeline, q.projectId, q.id)) =
        some [("nightly", 0, 0), ("weekly", 0, 1), ("daily", 0, 2)] := by decide +kernel
  obtain ⟨answer, r', d', hrun, hremoval, -⟩ :=
    projectRemoval_of_perform rfl (Registry.valid_stocked now) hcommit
  rw [hrun, Option.map_some, Option.some_inj] at hpointers
  exact ⟨now, answer, r', d', rfl, hrun, hremoval, hpointers⟩

/-- A handle that can save removes a group: what it answers, what it remembers and what is in the
document afterwards. -/
theorem groupRemoval_of_perform (hmemory : h.memory = some r) (hr : r.Valid)
    (hcommit : h.CanCommit now (.deleteGroup g hard) d) : ∃ answer r' d',
    (h.perform now (.deleteGroup g hard) : StateM Disk _) d =
      ((answer, { h with memory := some r' }), d') ∧
    r.GroupRemoval g hard answer r' ∧
    (r' = r ∧ d' = d ∨ ∃ text, r'.render? = some text ∧ d'.read h.document = .ok text.toUTF8) := by
  obtain ⟨d', hrun, hsaved⟩ := Handle.perform_of_canCommit hmemory hr hcommit
  exact ⟨_, _, d', hrun, hr.groupRemoval now g hard, hsaved⟩

/-- The project comes to the secured group as it is. -/
theorem groupRemoval_of_perform_stocked : ∃ now answer r' d',
    (stockedHandle now).memory = some (.stocked now) ∧
    ((stockedHandle now).perform now (.deleteGroup 1 false) : StateM Disk _) .empty =
      ((answer, { stockedHandle now with memory := some r' }), d') ∧
    (Registry.stocked now).GroupRemoval 1 false answer r' ∧
    r'.groups.toList.map (fun group => (group.id, group.projects.keys)) = [(0, [0, 1])] ∧
    r'.pointers = (Registry.stocked now).pointers := by
  let now : Timestamp := ⟨⟨2024, 2, 29⟩, 720, 30, 0⟩
  have hcommit : (stockedHandle now).CanCommit now (.deleteGroup 1 false) .empty := by
    decide +kernel
  have hgroups : (((stockedHandle now).perform now (.deleteGroup 1 false) : StateM Disk _)
      .empty).1.2.memory.map (fun r' => (r'.groups.toList.map fun group =>
        (group.id, group.projects.keys), r'.pointers)) =
        some ([(0, [0, 1])], (Registry.stocked now).pointers) := by decide +kernel
  obtain ⟨answer, r', d', hrun, hremoval, -⟩ :=
    groupRemoval_of_perform rfl (Registry.valid_stocked now) hcommit
  rw [hrun, Option.map_some, Option.some_inj, Prod.mk.injEq] at hgroups
  exact ⟨now, answer, r', d', rfl, hrun, hremoval, hgroups⟩

end PipelineRegistry
