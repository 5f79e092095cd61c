import Mathlib
import PipelineRegistry.Proofs.Registry.Editing
import PipelineRegistry.Proofs.Storage.Removal

/-! # Edits through a handle

What a handle answers when a group, a project or a pointer is to be edited, and what it remembers
afterwards, as long as the changed registry can be saved. -/

namespace PipelineRegistry

open Calendar

namespace Registry

/-- What is answered when an entity is to be edited that is there and has siblings with these names, and
the registry `r'` afterwards.  An edit that nothing stands against `makes` the entity of the answer and
the registry. -/
structure EditAnswer {α : Type} (r : Registry) (edit : Edit) (kind : EntityKind) (number : UInt64)
    (isSecured : Prop) (siblings : List String) (entity : α → Outcome) (makes : α → Registry → Prop)
    (answer : Except RegistryError Outcome) (r' : Registry) : Prop where
  secured : ∀ name, edit = .rename name → isSecured → name ≠ securedName →
    answer = .error (.securedEntity kind number) ∧ r' = r
  taken : ∀ name, edit = .rename name → (isSecured → name = securedName) → name ∈ siblings →
    answer = .error (.nameConflict kind name) ∧ r' = r
  permitted : edit.Permitted isSecured siblings → ∃ x, answer = .ok (entity x) ∧ makes x r'

variable {r : Registry}

theorem editAnswer {α : Type} {operation : Operation} {edit : Edit} {now : Timestamp}
    {kind : EntityKind} {number : UInt64} {isSecured : Prop} [Decidable isSecured]
    {siblings : List String} {entity : α → Outcome} {makes : α → Registry → Prop} {x : α} {r' : Registry}
    (hperform : operation.perform now r =
      ((edit.check kind number isSecured siblings).map fun _ => (x, r')).map (Prod.map entity id))
    (hmakes : makes x r') : r.EditAnswer edit kind number isSecured siblings entity makes
      ((operation.perform now r).map Prod.fst) (r.after now operation) := by
  constructor
  case secured =>
    rintro name rfl hsecured hname
    rw [Edit.check_of_secured hsecured hname] at hperform
    exact answer_of_error hperform
  case taken =>
    rintro name rfl hname htaken
    rw [Edit.check_of_taken hname htaken] at hperform
    exact answer_of_error hperform
  case permitted =>
    intro hpermitted
    rw [Edit.check_of_permitted hpermitted] at hperform
    obtain ⟨hanswer, hafter⟩ := answer_of_ok hperform
    rw [hafter]
    exact ⟨x, hanswer, hmakes⟩

/-- What is answered when group `g` is to be edited, and the registry `r'` afterwards. -/
structure GroupEditing (r : Registry) (now : Timestamp) (g : GroupId) (edit : Edit)
    (answer : Except RegistryError Outcome) (r' : Registry) : Prop where
  missing : r.group? g = none → answer = .error (.notFound .group g) ∧ r' = r
  found : ∀ group, r.group? g = some group → r.EditAnswer edit .group g (g = securedGroupId)
    (r.groups.namesBeside g Group.name) .group
    (fun group' r' => group.EditedTo now edit group' ∧ r.ReplacesGroup r' g group') answer r'

theorem Valid.groupEditing (hr : r.Valid) (now : Timestamp) (g : GroupId) (edit : Edit) :
    r.GroupEditing now g edit (((Operation.editGroup g edit).perform now r).map Prod.fst)
      (r.after now (.editGroup g edit)) := by
  have hresult : (Operation.editGroup g edit).perform now r =
      (r.editGroup now g edit).map (Prod.map .group id) := rfl
  constructor
  case missing =>
    intro hgroup
    rw [editGroup_of_group?_eq_none hgroup] at hresult
    exact answer_of_error hresult
  case found =>
    intro group hgroup
    rw [editGroup_eq hgroup] at hresult
    exact editAnswer hresult ⟨group.editedTo now edit, hr.editGroup_replaces hgroup now edit⟩

/-- What is answered when project `p` is to be edited, and the registry `r'` afterwards. -/
structure ProjectEditing (r : Registry) (now : Timestamp) (p : ProjectId) (edit : Edit)
    (answer : Except RegistryError Outcome) (r' : Registry) : Prop where
  missing : r.project? p = none → answer = .error (.notFound .project p) ∧ r' = r
  found : ∀ project, r.project? p = some project → ∃ g group, r.ownerOf? p = some g ∧
    r.group? g = some group ∧ project ∈ group.projects.toList ∧
    r.EditAnswer edit .project p (p = securedProjectId) (group.projects.namesBeside p Project.name)
      .project (fun project' r' => project.EditedTo now edit project' ∧
        r.ReplacesProject r' p project') answer r'

theorem Valid.projectEditing (hr : r.Valid) (now : Timestamp) (p : ProjectId) (edit : Edit) :
    r.ProjectEditing now p edit (((Operation.editProject p edit).perform now r).map Prod.fst)
      (r.after now (.editProject p edit)) := by
  have hresult : (Operation.editProject p edit).perform now r =
      (r.editProject now p edit).map (Prod.map .project id) := rfl
  constructor
  case missing =>
    intro hproject
    rw [editProject_of_project?_eq_none hproject] at hresult
    exact answer_of_error hresult
  case found =>
    intro project hproject
    obtain ⟨g, A, group, B, C, D, hplace⟩ := hr.exists_place hproject
    rw [editProject_eq hplace.bind_owner hproject] at hresult
    refine ⟨g, group, hplace.owner, hplace.group?_eq, hplace.project_splits.mem, ?_⟩
    exact editAnswer hresult
      ⟨project.editedTo now edit, hr.editProject_replaces hproject now edit⟩

/-- What is answered when pointer `q` of project `p` is to be edited, and the registry `r'` afterwards. -/
structure PointerEditing (r : Registry) (p : ProjectId) (q : PointerId) (edit : Edit)
    (answer : Except RegistryError Outcome) (r' : Registry) : Prop where
  no_project : r.project? p = none → answer = .error (.notFound .project p) ∧ r' = r
  missing : ∀ project, r.project? p = some project → project.pointers.get? q = none →
    answer = .error (.notFound .pointer q) ∧ r' = r
  found : ∀ project pointer, r.project? p = some project →
    project.pointers.get? q = some pointer → r.EditAnswer edit .pointer q False
      (project.pointers.namesBeside q Pointer.name) .pointer
      (fun pointer' r' => pointer.EditedTo edit pointer' ∧ r.ReplacesPointer r' p q pointer') answer r'

theorem Valid.pointerEditing (hr : r.Valid) (now : Timestamp) (p : ProjectId) (q : PointerId)
    (edit : Edit) :
    r.PointerEditing p q edit (((Operation.editPointer p q edit).perform now r).map Prod.fst)
      (r.after now (.editPointer p q edit)) := by
  have hresult : (Operation.editPointer p q edit).perform now r =
      (r.editPointer p q edit).map (Prod.map .pointer id) := rfl
  constructor
  case no_project =>
    intro hproject
    rw [editPointer_of_project?_eq_none hproject] at hresult
    exact answer_of_error hresult
  case missing =>
    intro project hproject hpointer
    rw [editPointer_of_get?_eq_none hproject hpointer] at hresult
    exact answer_of_error hresult
  case found =>
    intro project pointer hproject hpointer
    rw [editPointer_eq hproject hpointer] at hresult
    exact editAnswer hresult
      ⟨pointer.editedTo edit, hr.editPointer_replaces hproject hpointer edit⟩

end Registry

/-- A registry in which soft removals have left two projects of one name in the secured group and two
pointers of one name in the secured project. -/
def Registry.doubled (now : Timestamp) : Registry :=
  let pointer (project : ProjectId) (pipeline : PipelineId) : Operation := .createPointer
    ⟨project, pipeline, "nightly", .ofString "Easefile", .ofString "main.pipe", none, none, now⟩
  [.createGroup ⟨"team", none, none⟩, .createProject ⟨0, "build", none, none⟩,
    .createProject ⟨1, "build", none, none⟩, .createProject ⟨0, "deploy", none, none⟩, pointer 0 "first",
    pointer 3 "second", .deleteGroup 1 false, .deleteProject 0 3 false].foldl
      (fun r (operation : Operation) => r.after now operation) (.initial now)

theorem Registry.valid_doubled (now : Timestamp) : (doubled now).Valid :=
  List.foldlRecOn _ _ (valid_initial now) fun _ hr operation _ => hr.after now operation

/-! ### Handles -/

variable {h : Handle} {r : Registry} {now : Timestamp} {d : Disk}

/-- A handle that can save edits groups, projects and pointers: what it answers, what it remembers and
what is in the document afterwards. -/
theorem edit_of_perform (hmemory : h.memory = some r) (hr : r.Valid) :
    (∀ g edit, h.CanCommit now (.editGroup g edit) d →
      h.Performs now (.editGroup g edit) d (r.GroupEditing now g edit)) ∧
    (∀ p edit, h.CanCommit now (.editProject p edit) d →
      h.Performs now (.editProject p edit) d (r.ProjectEditing now p edit)) ∧
    ∀ p q edit, h.CanCommit now (.editPointer p q edit) d →
      h.Performs now (.editPointer p q edit) d (r.PointerEditing p q edit) := by
  refine ⟨?_, ?_, ?_⟩
  · intro g edit hcommit
    exact Handle.performs_of_canCommit hmemory hr hcommit (hr.groupEditing now g edit)
  · intro p edit hcommit
    exact Handle.performs_of_canCommit hmemory hr hcommit (hr.projectEditing now p edit)
  · intro p q edit hcommit
    exact Handle.performs_of_canCommit hmemory hr hcommit (hr.pointerEditing now p q edit)

/-- A project that shares its name may not be given the same name once more, but another one. -/
theorem edit_of_perform_doubled : ∃ now later,
    let h := holding (.doubled now)
    let r := Registry.doubled now
    r.projects.map (fun p => (p.id, p.name)) = [(0, "other"), (1, "build"), (2, "build")] ∧
    r.pointers.map (fun q => (q.id, q.name)) = [(0, "nightly"), (1, "nightly")] ∧
    ((Operation.editProject 1 (.rename "build")).perform later r).map Prod.fst =
      .error (.nameConflict .project "build") ∧
    h.Performs later (.editGroup 0 (.describe "rest")) .empty
      (r.GroupEditing later 0 (.describe "rest")) ∧
    h.Performs later (.editProject 1 (.rename "test")) .empty
      (r.ProjectEditing later 1 (.rename "test")) ∧
    h.Performs later (.editPointer 0 1 (.rename "nightly")) .empty
      (r.PointerEditing 0 1 (.rename "nightly")) := by
  let now : Timestamp := ⟨⟨2024, 2, 29⟩, 720, 30, 0⟩
  let later : Timestamp := ⟨⟨2024, 2, 29⟩, 721, 0, 0⟩
  obtain ⟨hgroup, hproject, hpointer⟩ := @edit_of_perform (holding (.doubled now)) (.doubled now)
    later .empty rfl (Registry.valid_doubled now)
  exact ⟨now, later, by decide +kernel, by decide +kernel, by decide +kernel,
    hgroup _ _ (by decide +kernel), hproject _ _ (by decide +kernel),
    hpointer _ _ _ (by decide +kernel)⟩

end PipelineRegistry
