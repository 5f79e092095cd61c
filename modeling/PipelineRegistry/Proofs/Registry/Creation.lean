import Mathlib
import PipelineRegistry.Proofs.Registry.Removal
import PipelineRegistry.Proofs.Registry.Replacement

/-! # Creations

A creation looks for the parent first, then for what is taken, and last for an identifier.  Each of these
may refuse it, and nothing else does.  What it creates is listed behind its siblings under an identifier
that none of them has, says what was asked for, and holds nothing yet; all else stays as it was. -/

namespace PipelineRegistry.Registry

open Calendar

variable {r r' : Registry} {g : GroupId} {p : ProjectId} {id : UInt64} {group : Group}
  {project : Project}

/-! ### Groups -/

/-- `r'` is `r` with the new group `g` at its end. -/
structure GainsGroup (r r' : Registry) (g : Group) : Prop where
  new : g.id ∉ r.groups.keys
  groups : r'.groups.toList = r.groups.toList ++ [g]
  owner : ∀ p, r'.ownerOf? p = r.ownerOf? p
  found : r'.group? g.id = some g
  other_group : ∀ x, x ≠ g.id → r'.group? x = r.group? x
  project : ∀ p, r'.project? p = r.project? p

theorem hasGroupNamed_iff {name : String} :
    r.hasGroupNamed name = true ↔ name ∈ r.groups.toList.map Group.name := by
  simp [hasGroupNamed]

theorem createGroup_of_taken {request : NewGroup}
    (hname : request.name ∈ r.groups.toList.map Group.name) (now : Timestamp) :
    r.createGroup now request = .error (.nameConflict .group request.name) := by
  unfold createGroup
  rw [hasGroupNamed_iff.mpr hname]
  rfl

/-- What comes of the creation of a group whose name is free. -/
theorem createGroup_eq {request : NewGroup} (hname : request.name ∉ r.groups.toList.map Group.name)
    (now : Timestamp) : r.createGroup now request = match r.nextGroupId? with
      | none => .error (.idsExhausted .group)
      | some id => .ok (.create id request.name request.tag request.description now,
          r.insertGroup (.create id request.name request.tag request.description now)) := by
  unfold createGroup
  rw [Bool.eq_false_iff.mpr fun h => hname (hasGroupNamed_iff.mp h)]
  cases r.nextGroupId? <;> rfl

theorem Valid.gainsGroup (hr : r.Valid) (hid : group.id ∉ r.groups.keys)
    (hempty : group.projects = .empty) : r.GainsGroup (r.insertGroup group) group := by
  have howner : ∀ p, (r.insertGroup group).ownerOf? p = r.ownerOf? p := by
    intro p
    rw [ownerOf?_insertGroup, hempty, if_neg]
    exact List.not_mem_nil
  have hgroup := group?_insertGroup r group
  constructor
  case new => exact hid
  case groups => exact toList_insertGroup hid
  case owner => exact howner
  case found => rw [hgroup, if_pos rfl]
  case other_group =>
    intro x hx
    rw [hgroup, if_neg hx]
  case project =>
    intro p
    simp only [project?, howner]
    cases hp : r.ownerOf? p with
    | none => rfl
    | some x =>
        obtain ⟨holder, hholder, -⟩ := (hr.owner_iff p x).mp hp
        have hx : x ≠ group.id := fun h => hid (h ▸ Listing.mem_keys_of_get? hholder)
        simp [hgroup, hx]

theorem nextGroupId?_eq_none_iff :
    r.nextGroupId? = none ↔ r.groupCount.toUInt64 ∈ r.groups.keys ∧ lastId ∈ r.groups.keys :=
  nextFreeId?_eq_none_iff

/-! ### Projects -/

/-- `r'` is `r` with the new project `p` at the end of group `g`. -/
structure GainsProject (r r' : Registry) (g : GroupId) (p : Project) : Prop where
  new : p.id ∉ r.projects.map Project.id
  groups : r'.groups.toList = r.groups.toList.map fun group =>
    if group.id = g then group.takeIn [p] else group
  owner : ∀ x, r'.ownerOf? x = if x = p.id then some g else r.ownerOf? x
  found : r'.project? p.id = some p
  other_group : ∀ x, x ≠ g → r'.group? x = r.group? x
  other_project : ∀ x, x ≠ p.id → r'.project? x = r.project? x

theorem hasProjectNamed_iff {name : String} :
    group.hasProjectNamed name = true ↔ name ∈ group.projects.toList.map Project.name := by
  simp [Group.hasProjectNamed]

theorem createProject_of_group?_eq_none {request : NewProject}
    (hgroup : r.group? request.group = none) (now : Timestamp) :
    r.createProject now request = .error (.notFound .group request.group) := by
  unfold createProject
  simp only [hgroup]
  rfl

theorem createProject_of_taken {request : NewProject} (hgroup : r.group? request.group = some group)
    (hname : request.name ∈ group.projects.toList.map Project.name) (now : Timestamp) :
    r.createProject now request = .error (.nameConflict .project request.name) := by
  unfold createProject
  simp only [hgroup, hasProjectNamed_iff.mpr hname]
  rfl

/-- What comes of the creation of a project whose name is free in its group. -/
theorem createProject_eq {request : NewProject} (hgroup : r.group? request.group = some group)
    (hname : request.name ∉ group.projects.toList.map Project.name) (now : Timestamp) :
    r.createProject now request = match r.nextProjectId? with
      | none => .error (.idsExhausted .project)
      | some id => .ok (.create id request.name request.tag request.description now,
          r.insertProject request.group
            (.create id request.name request.tag request.description now)) := by
  unfold createProject
  simp only [hgroup, Bool.eq_false_iff.mpr fun h => hname (hasProjectNamed_iff.mp h)]
  cases r.nextProjectId? <;> rfl

theorem group?_insertProject_eq_ite (r : Registry) (g : GroupId) (project : Project) (x : GroupId) :
    (r.insertProject g project).group? x = if x = g
      then (r.group? g).map fun group => { group with projects := group.projects.insert project }
      else r.group? x :=
  group?_modifyGroup (f := fun group => { group with projects := group.projects.insert project })
    (fun _ => rfl) r g x

theorem Valid.gainsProject (hr : r.Valid) (hgroup : r.group? g = some group)
    (hnew : r.ownerOf? project.id = none) :
    r.GainsProject (r.insertProject g project) g project := by
  have howner : ∀ x, (r.insertProject g project).ownerOf? x =
      if x = project.id then some g else r.ownerOf? x := by
    intro x
    rw [ownerOf?_insertProject]
    simp only [eq_comm]
  constructor
  case new => exact hr.ownerOf?_eq_none_iff.mp hnew
  case groups =>
    refine List.map_congr_left ?_
    intro x hx
    change (if x.id = g then { x with projects := x.projects.insert project } else x) = _
    have hnot := hr.not_mem_keys_of_ownerOf?_eq_none (hr.group?_id hx) hnew
    rw [Group.takeIn, ← Listing.toList_insert hnot]
  case owner => exact howner
  case found =>
    have hfound := howner project.id
    rw [if_pos rfl] at hfound
    rw [project?_eq_some hfound (group?_insertProject hgroup project), Listing.get?_insert]
    exact if_pos rfl
  case other_group =>
    intro x hx
    rw [group?_insertProject_eq_ite, if_neg hx]
  case other_project =>
    intro x hx
    simp only [project?, howner, if_neg hx, group?_insertProject_eq_ite]
    cases r.ownerOf? x with
    | none => rfl
    | some y =>
        by_cases hy : y = g
        · subst hy
          simp only [hgroup, if_pos, Option.map_some, Option.bind_eq_bind, Option.bind_some,
            Listing.get?_insert]
          exact if_neg hx
        · simp [hy]

theorem Valid.nextProjectId?_eq_none_iff (hr : r.Valid) : r.nextProjectId? = none ↔
    r.projects.length.toUInt64 ∈ r.projects.map Project.id ∧
      lastId ∈ r.projects.map Project.id := by
  rw [hr.nextProjectId?_eq]
  exact nextFreeId?_eq_none_iff

/-! ### Pointers -/

/-- `r'` is `r` with the new pointer `q` at the end of `project`, which has the identifier `p`. -/
structure GainsPointer (r r' : Registry) (p : ProjectId) (project : Project) (q : Pointer) : Prop where
  new : q.id ∉ project.pointers.keys
  replaces : r.ReplacesProject r' p { project with
    nextPointerId := project.nextPointerId + 1, pointers := ⟨project.pointers.toList ++ [q]⟩ }
  count : (project.nextPointerId + 1).toNat = project.nextPointerId.toNat + 1
  found : r'.pointer? p q.id = some q
  other_pointer : ∀ x y, (x, y) ≠ (p, q.id) → r'.pointer? x y = r.pointer? x y

theorem containsPipeline_iff {pipeline : PipelineId} :
    r.containsPipeline pipeline = true ↔ pipeline ∈ r.pipelines := by
  simp [containsPipeline, pipelines]

theorem hasPointerNamed_iff {name : String} :
    project.hasPointerNamed name = true ↔ name ∈ project.pointers.toList.map Pointer.name := by
  simp [Project.hasPointerNamed]

theorem Valid.gainsPointer (hr : r.Valid) (hproject : r.project? p = some project)
    {asked q : Pointer} {adopted : Project} (hadopt : project.adopt? asked = some (q, adopted)) :
    r.GainsPointer (r.modifyProject p fun _ => adopted) p project q := by
  have hvalid := hr.valid_of_project? hproject
  obtain ⟨hnext, hq, hadopted⟩ := Project.adopt?_eq_some_iff.mp hadopt
  have hid : q.id = project.nextPointerId := by rw [hq]
  have hnew : q.id ∉ project.pointers.keys := hid ▸ hvalid.next_not_mem
  have hinsert : project.pointers.insert q = ⟨project.pointers.toList ++ [q]⟩ :=
    congrArg Listing.ofList (Listing.toList_insert hnew)
  rw [hinsert] at hadopted
  have hreplaces : r.ReplacesProject (r.modifyProject p fun _ => adopted) p adopted := by
    have hcongr : (r.modifyProject p fun _ => adopted) = r.modifyProject p fun x => { x with
        nextPointerId := x.nextPointerId + 1, pointers := ⟨x.pointers.toList ++ [q]⟩ } :=
      hr.modifyProject_congr hproject hadopted
    rw [hcongr, hadopted]
    exact hr.replacesProject hproject fun _ => rfl
  have hget : ∀ y, adopted.pointers.get? y = if y = q.id then some q else project.pointers.get? y := by
    intro y
    rw [hadopted, ← hinsert]
    exact Listing.get?_insert q y
  constructor
  case new => exact hnew
  case replaces => exact hadopted ▸ hreplaces
  case count => exact toNat_add_one_of_ne_zero hnext
  case found =>
    rw [pointer?, hreplaces.found]
    exact (hget q.id).trans (if_pos rfl)
  case other_pointer =>
    intro x y hxy
    rw [pointer?, pointer?]
    by_cases hx : x = p
    · subst hx
      rw [hreplaces.found, hproject]
      exact (hget y).trans (if_neg fun hy => hxy (congrArg _ hy))
    · rw [hreplaces.other_project x hx]

variable {request : NewPointer}

theorem createPointer_of_project?_eq_none (hproject : r.project? request.project = none) :
    r.createPointer request = .error (.notFound .project request.project) := by
  unfold createPointer
  simp only [hproject]
  rfl

theorem createPointer_of_registered (hproject : r.project? request.project = some project)
    (hpipeline : request.pipeline ∈ r.pipelines) :
    r.createPointer request = .error (.duplicateId request.pipeline) := by
  unfold createPointer
  simp only [hproject, containsPipeline_iff.mpr hpipeline]
  rfl

theorem createPointer_of_taken (hproject : r.project? request.project = some project)
    (hpipeline : request.pipeline ∉ r.pipelines)
    (hname : request.name ∈ project.pointers.toList.map Pointer.name) :
    r.createPointer request = .error (.nameConflict .pointer request.name) := by
  unfold createPointer
  simp only [hproject, Bool.eq_false_iff.mpr fun h => hpipeline (containsPipeline_iff.mp h),
    hasPointerNamed_iff.mpr hname]
  rfl

/-- What comes of the registration of a new pipeline under a name that is free in its project. -/
theorem createPointer_eq (hproject : r.project? request.project = some project)
    (hpipeline : request.pipeline ∉ r.pipelines)
    (hname : request.name ∉ project.pointers.toList.map Pointer.name) :
    r.createPointer request = match project.adopt? (requestedPointer request) with
      | none => .error (.idsExhausted .pointer)
      | some (q, adopted) => .ok (q, r.modifyProject request.project fun _ => adopted) := by
  unfold createPointer
  simp only [hproject, Bool.eq_false_iff.mpr fun h => hpipeline (containsPipeline_iff.mp h),
    Bool.eq_false_iff.mpr fun h => hname (hasPointerNamed_iff.mp h)]
  cases project.adopt? (requestedPointer request) <;> rfl

end PipelineRegistry.Registry
