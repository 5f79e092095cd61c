import Mathlib
import PipelineRegistry.Proofs.Registry.Creation
import PipelineRegistry.Proofs.Storage.Removal

/-! # Creations through a handle

What a handle answers when a group, a project or a pointer is to be created, and what it remembers
afterwards, as long as the changed registry can be saved. -/

namespace PipelineRegistry

open Calendar

namespace Registry

variable {r : Registry}

/-- What is answered when a group is to be created in `r`, and the registry `r'` afterwards. -/
structure GroupCreation (r : Registry) (now : Timestamp) (request : NewGroup)
    (answer : Except RegistryError Outcome) (r' : Registry) : Prop where
  taken : request.name ∈ r.groups.toList.map Group.name →
    answer = .error (.nameConflict .group request.name) ∧ r' = r
  exhausted : request.name ∉ r.groups.toList.map Group.name →
    r.groupCount.toUInt64 ∈ r.groups.keys ∧ lastId ∈ r.groups.keys →
    answer = .error (.idsExhausted .group) ∧ r' = r
  created : request.name ∉ r.groups.toList.map Group.name →
    ¬(r.groupCount.toUInt64 ∈ r.groups.keys ∧ lastId ∈ r.groups.keys) →
    ∃ group, answer = .ok (.group group) ∧ r.GainsGroup r' group ∧ group =
      { request with id := group.id, created := now, modified := none, projects := .empty : Group }

theorem Valid.groupCreation (hr : r.Valid) (now : Timestamp) (request : NewGroup) :
    r.GroupCreation now request (((Operation.createGroup request).perform now r).map Prod.fst)
      (r.after now (.createGroup request)) := by
  have hresult : (Operation.createGroup request).perform now r =
      (r.createGroup now request).map (Prod.map .group id) := rfl
  constructor
  case taken =>
    intro hname
    rw [createGroup_of_taken hname] at hresult
    exact answer_of_error hresult
  case exhausted =>
    intro hname hused
    rw [createGroup_eq hname, nextGroupId?_eq_none_iff.mpr hused] at hresult
    exact answer_of_error hresult
  case created =>
    intro hname hunused
    obtain ⟨id, hid⟩ := Option.ne_none_iff_exists'.mp (mt nextGroupId?_eq_none_iff.mp hunused)
    rw [createGroup_eq hname, hid] at hresult
    obtain ⟨hanswer, hafter⟩ := answer_of_ok hresult
    rw [hafter]
    exact ⟨_, hanswer, hr.gainsGroup (not_mem_of_nextFreeId? hid) rfl, rfl⟩

/-- What is answered when a project is to be created in `r`, and the registry `r'` afterwards. -/
structure ProjectCreation (r : Registry) (now : Timestamp) (request : NewProject)
    (answer : Except RegistryError Outcome) (r' : Registry) : Prop where
  no_group : r.group? request.group = none →
    answer = .error (.notFound .group request.group) ∧ r' = r
  taken : ∀ group, r.group? request.group = some group →
    request.name ∈ group.projects.toList.map Project.name →
    answer = .error (.nameConflict .project request.name) ∧ r' = r
  exhausted : ∀ group, r.group? request.group = some group →
    request.name ∉ group.projects.toList.map Project.name →
    r.projects.length.toUInt64 ∈ r.projects.map Project.id ∧ lastId ∈ r.projects.map Project.id →
    answer = .error (.idsExhausted .project) ∧ r' = r
  created : ∀ group, r.group? request.group = some group →
    request.name ∉ group.projects.toList.map Project.name →
    ¬(r.projects.length.toUInt64 ∈ r.projects.map Project.id ∧ lastId ∈ r.projects.map Project.id) →
    ∃ project, answer = .ok (.project project) ∧ r.GainsProject r' request.group project ∧
      project = { request with
        id := project.id, created := now, modified := none, nextPointerId := 0, pointers := .empty : Project }

theorem Valid.projectCreation (hr : r.Valid) (now : Timestamp) (request : NewProject) :
    r.ProjectCreation now request (((Operation.createProject request).perform now r).map Prod.fst)
      (r.after now (.createProject request)) := by
  have hresult : (Operation.createProject request).perform now r =
      (r.createProject now request).map (Prod.map .project id) := rfl
  constructor
  case no_group =>
    intro hgroup
    rw [createProject_of_group?_eq_none hgroup] at hresult
    exact answer_of_error hresult
  case taken =>
    intro group hgroup hname
    rw [createProject_of_taken hgroup hname] at hresult
    exact answer_of_error hresult
  case exhausted =>
    intro group hgroup hname hused
    rw [createProject_eq hgroup hname, hr.nextProjectId?_eq_none_iff.mpr hused] at hresult
    exact answer_of_error hresult
  case created =>
    intro group hgroup hname hunused
    obtain ⟨id, hid⟩ := Option.ne_none_iff_exists'.mp (mt hr.nextProjectId?_eq_none_iff.mp hunused)
    rw [createProject_eq hgroup hname, hid] at hresult
    obtain ⟨hanswer, hafter⟩ := answer_of_ok hresult
    rw [hafter]
    exact ⟨_, hanswer, hr.gainsProject hgroup (ownerOf?_of_nextProjectId? hid), rfl⟩

/-- What is answered when a pointer is to be created in `r`, and the registry `r'` afterwards. -/
structure PointerCreation (r : Registry) (request : NewPointer)
    (answer : Except RegistryError Outcome) (r' : Registry) : Prop where
  no_project : r.project? request.project = none →
    answer = .error (.notFound .project request.project) ∧ r' = r
  registered : ∀ project, r.project? request.project = some project →
    request.pipeline ∈ r.pipelines → answer = .error (.duplicateId request.pipeline) ∧ r' = r
  taken : ∀ project, r.project? request.project = some project → request.pipeline ∉ r.pipelines →
    request.name ∈ project.pointers.toList.map Pointer.name →
    answer = .error (.nameConflict .pointer request.name) ∧ r' = r
  exhausted : ∀ project, r.project? request.project = some project → request.pipeline ∉ r.pipelines →
    request.name ∉ project.pointers.toList.map Pointer.name → project.nextPointerId = lastId →
    answer = .error (.idsExhausted .pointer) ∧ r' = r
  created : ∀ project, r.project? request.project = some project → request.pipeline ∉ r.pipelines →
    request.name ∉ project.pointers.toList.map Pointer.name → project.nextPointerId ≠ lastId →
    ∃ pointer, answer = .ok (.pointer pointer) ∧ r.GainsPointer r' request.project project pointer ∧
      pointer = { request with
        projectId := request.project, id := project.nextPointerId : Pointer }

theorem Valid.pointerCreation (hr : r.Valid) (now : Timestamp) (request : NewPointer) :
    r.PointerCreation request (((Operation.createPointer request).perform now r).map Prod.fst)
      (r.after now (.createPointer request)) := by
  have hresult : (Operation.createPointer request).perform now r =
      (r.createPointer request).map (Prod.map .pointer id) := rfl
  constructor
  case no_project =>
    intro hproject
    rw [createPointer_of_project?_eq_none hproject] at hresult
    exact answer_of_error hresult
  case registered =>
    intro project hproject hpipeline
    rw [createPointer_of_registered hproject hpipeline] at hresult
    exact answer_of_error hresult
  case taken =>
    intro project hproject hpipeline hname
    rw [createPointer_of_taken hproject hpipeline hname] at hresult
    exact answer_of_error hresult
  case exhausted =>
    intro project hproject hpipeline hname hnext
    have hadopt : project.adopt? (requestedPointer request) = none :=
      if_pos (add_one_eq_zero_iff.mpr hnext)
    rw [createPointer_eq hproject hpipeline hname, hadopt] at hresult
    exact answer_of_error hresult
  case created =>
    intro project hproject hpipeline hname hnext
    have hadopt := Project.adopt?_eq_some_iff (q := requestedPointer request).mpr
      ⟨mt add_one_eq_zero_iff.mp hnext, rfl, rfl⟩
    rw [createPointer_eq hproject hpipeline hname, hadopt] at hresult
    obtain ⟨hanswer, hafter⟩ := answer_of_ok hresult
    rw [hafter]
    refine ⟨_, hanswer, hr.gainsPointer hproject hadopt, ?_⟩
    rw [requestedPointer, hr.id_of_project? hproject]

end Registry

/-- A registry with two groups and two projects, from which a group and a project between them have been
taken out. -/
def Registry.gapped (now : Timestamp) : Registry :=
  [.createGroup ⟨"team", none, none⟩, .createGroup ⟨"ops", none, none⟩, .createProject ⟨1, "build", none, none⟩,
    .createProject ⟨2, "deploy", none, none⟩, .deleteGroup 1 true].foldl
      (fun r (operation : Operation) => r.after now operation) (.initial now)

theorem Registry.valid_gapped (now : Timestamp) : (gapped now).Valid :=
  List.foldlRecOn _ _ (valid_initial now) fun _ hr operation _ => hr.after now operation

/-! ### Handles -/

variable {h : Handle} {r : Registry} {now : Timestamp} {d : Disk}

/-- A handle that can save creates groups, projects and pointers: what it answers, what it remembers and
what is in the document afterwards. -/
theorem creation_of_perform (hmemory : h.memory = some r) (hr : r.Valid) :
    (∀ request, h.CanCommit now (.createGroup request) d →
      h.Performs now (.createGroup request) d (r.GroupCreation now request)) ∧
    (∀ request, h.CanCommit now (.createProject request) d →
      h.Performs now (.createProject request) d (r.ProjectCreation now request)) ∧
    ∀ request, h.CanCommit now (.createPointer request) d →
      h.Performs now (.createPointer request) d (r.PointerCreation request) := by
  refine ⟨?_, ?_, ?_⟩ <;> intro request hcommit
  · exact Handle.performs_of_canCommit hmemory hr hcommit (hr.groupCreation now request)
  · exact Handle.performs_of_canCommit hmemory hr hcommit (hr.projectCreation now request)
  · exact Handle.performs_of_canCommit hmemory hr hcommit (hr.pointerCreation now request)

/-- Where the number of groups or projects is in use, new ones go on behind the greatest identifier. -/
theorem creation_of_perform_gapped : ∃ now,
    let h := holding (.gapped now)
    let r := Registry.gapped now
    let pointer : NewPointer :=
      ⟨2, "nightly", "main", .ofString "Easefile", .ofString "main.pipe", none, none, now⟩
    (r.groups.keys, r.projects.map Project.id) = ([0, 2], [0, 2]) ∧
    (r.nextGroupId?, r.nextProjectId?) = (some 3, some 3) ∧
    h.Performs now (.createGroup ⟨"team", none, none⟩) .empty
      (r.GroupCreation now ⟨"team", none, none⟩) ∧
    h.Performs now (.createProject ⟨2, "build", none, none⟩) .empty
      (r.ProjectCreation now ⟨2, "build", none, none⟩) ∧
    h.Performs now (.createPointer pointer) .empty (r.PointerCreation pointer) := by
  let now : Timestamp := ⟨⟨2024, 2, 29⟩, 720, 30, 0⟩
  obtain ⟨hgroup, hproject, hpointer⟩ := @creation_of_perform (holding (.gapped now)) (.gapped now)
    now .empty rfl (Registry.valid_gapped now)
  exact ⟨now, by decide +kernel, by decide +kernel, hgroup _ (by decide +kernel),
    hproject _ (by decide +kernel), hpointer _ (by decide +kernel)⟩

end PipelineRegistry
