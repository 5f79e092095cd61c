import Mathlib
import PipelineRegistry.Proofs.Registry.Failure

/-! # How far identifiers go

A group or project gets the number of groups or projects as its identifier, or one more than the greatest
one in use, so that no identifier is greater than the number of groups or projects that were ever created.
The counter of a project counts the pointers that were created in it.  The counter of the secured project
goes on when it adopts a pointer, too; but a pointer that is adopted stays, so it is adopted only once, and
the pointers of the other projects (`adoptable`) are all that the secured project may adopt yet. -/

namespace PipelineRegistry

open Calendar

/-- How many entities of a kind the operation creates when it succeeds. -/
def Operation.creates : Operation → EntityKind → Nat
  | .createGroup _, .group => 1
  | .createProject _, .project => 1
  | .createPointer _, .pointer => 1
  | _, _ => 0

/-! ### Identifiers -/

/-- Beside the first of them there are at most `n` identifiers, and none is greater than `n`. -/
structure IdsWithin (ids : List UInt64) (n : Nat) : Prop where
  length_le : ids.length ≤ n + 1
  toNat_le : ∀ id ∈ ids, id.toNat ≤ n

namespace IdsWithin

variable {ids ids' taken : List UInt64} {n n' : Nat} {id count : UInt64}

theorem mono (h : IdsWithin ids n) (hn : n ≤ n') : IdsWithin ids n' := by
  have hlength := h.length_le
  exact ⟨by omega, fun id hid => (h.toNat_le id hid).trans hn⟩

theorem of_subperm (h : IdsWithin ids n) (hsub : ids'.Subperm ids) : IdsWithin ids' n :=
  ⟨hsub.length_le.trans h.length_le, fun id hid => h.toNat_le id (hsub.subset hid)⟩

/-- One more identifier is given. -/
theorem cons (h : IdsWithin ids n) (htaken : ∀ other, other ∈ taken ↔ other ∈ ids)
    (hnext : nextFreeId? taken ids.length.toUInt64 = some id) : IdsWithin (id :: ids) (n + 1) := by
  have hlength := h.length_le
  have hcount : ids.length.toUInt64.toNat ≤ n + 1 :=
    (UInt64.toNat_ofNat'.trans_le (Nat.mod_le _ _)).trans hlength
  have hid := toNat_le_of_nextFreeId? hnext (fun other hother => h.toNat_le other ((htaken other).mp hother))
    hcount
  refine ⟨by rw [List.length_cons]; omega, ?_⟩
  rw [List.forall_mem_cons]
  exact ⟨hid, fun other hother => (h.toNat_le other hother).trans (Nat.le_succ n)⟩

end IdsWithin

/-! ### Pointers that the secured project may adopt -/

/-- The number of pointers outside of the secured project. -/
def adoptable (qs : List Pointer) : Nat := qs.countP fun q => q.projectId ≠ securedProjectId

@[simp] theorem adoptable_append (qs qs' : List Pointer) :
    adoptable (qs ++ qs') = adoptable qs + adoptable qs' := List.countP_append

theorem Project.Valid.adoptable_eq {p : Project} (hp : p.Valid) :
    adoptable p.pointers.toList = if p.id = securedProjectId then 0 else p.pointers.size := by
  split
  · rename_i hid
    refine List.countP_eq_zero.mpr ?_
    intro q hq
    simp [hp.pointer_project q hq, hid]
  · rename_i hid
    refine List.countP_eq_length.mpr ?_
    intro q hq
    simp [hp.pointer_project q hq, hid]

namespace Registry

variable {r r' : Registry} {now : Timestamp} {g : GroupId} {p : ProjectId} {group : Group}
  {project secured : Project} {kept : List Pointer} {created created' : EntityKind → Nat}
  {kind : EntityKind}

theorem Valid.adoptable_modifyProject (hr : r.Valid) (hproject : r.project? p = some project)
    (f : Project → Project) :
    adoptable (r.modifyProject p f).pointers + adoptable project.pointers.toList =
      adoptable r.pointers + adoptable (f project).pointers.toList := by
  obtain ⟨g, A, group, B, C, D, hplace⟩ := hr.exists_place hproject
  rw [hplace.pointers_modifyProject, hplace.pointers_eq]
  simp only [adoptable_append]
  omega

/-! ### Bounds -/

/-- No identifier and no counter is greater than the number of entities of its kind that have been
created, and the secured project may adopt what is left without going beyond. -/
structure Within (r : Registry) (created : EntityKind → Nat) : Prop where
  groups : IdsWithin r.groups.keys (created .group)
  projects : IdsWithin (r.projects.map Project.id) (created .project)
  counters : ∀ project ∈ r.projects, project.nextPointerId.toNat ≤ created .pointer
  secured : ∀ project ∈ r.projects, project.id = securedProjectId →
    project.nextPointerId.toNat + adoptable r.pointers ≤ created .pointer

theorem Within.mono (h : r.Within created) (hcreated : ∀ kind, created kind ≤ created' kind) :
    r.Within created' where
  groups := h.groups.mono (hcreated _)
  projects := h.projects.mono (hcreated _)
  counters project hproject := (h.counters project hproject).trans (hcreated _)
  secured project hproject hid := (h.secured project hproject hid).trans (hcreated _)

/-- Groups and projects may go. -/
theorem Within.of_subperm (h : r.Within created) (hgroups : r'.groups.keys.Subperm r.groups.keys)
    (hprojects : r'.projects.Subperm r.projects) : r'.Within created := by
  have hids : (r'.projects.map Project.id).Subperm (r.projects.map Project.id) := by
    obtain ⟨ps, hperm, hsub⟩ := hprojects
    exact ⟨ps.map Project.id, hperm.map _, hsub.map _⟩
  have hpointers : r'.pointers.Subperm r.pointers := by
    obtain ⟨ps, hperm, hsub⟩ := hprojects
    exact ⟨pointersOf ps, hperm.flatMap_right _, hsub.flatMap _⟩
  have hadoptable : adoptable r'.pointers ≤ adoptable r.pointers := hpointers.countP_le _
  constructor
  case groups => exact h.groups.of_subperm hgroups
  case projects => exact h.projects.of_subperm hids
  case counters => exact fun project hproject => h.counters project (hprojects.subset hproject)
  case secured =>
    intro project hproject hid
    have hle := h.secured project (hprojects.subset hproject) hid
    omega

theorem within_initial (now : Timestamp) : (initial now).Within fun _ => 0 := by
  have hprojects : ∀ project ∈ (initial now).projects, project = securedProject now :=
    fun _ => List.mem_singleton.mp
  constructor
  case groups =>
    refine ⟨Nat.le_refl 1, ?_⟩
    intro id hid
    obtain rfl := List.mem_singleton.mp hid
    exact Nat.le_refl 0
  case projects =>
    refine ⟨Nat.le_refl 1, ?_⟩
    intro id hid
    obtain rfl := List.mem_singleton.mp hid
    exact Nat.le_refl 0
  case counters =>
    intro project hproject
    rw [hprojects project hproject]
    exact Nat.le_refl 0
  case secured =>
    intro project hproject _
    rw [hprojects project hproject]
    exact Nat.le_refl 0

/-- There are never more pointers for the secured project to adopt than have been created. -/
theorem Within.adoptable_le (h : r.Within created) (hr : r.Valid) :
    adoptable r.pointers ≤ created .pointer := by
  obtain ⟨secured, hsecured⟩ := hr.exists_securedProject
  obtain ⟨hmem, hid⟩ := hr.project?_eq_some_iff.mp hsecured
  have hle := h.secured secured hmem hid
  omega

/-! ### Operations -/

/-- A group without projects may be listed under the next identifier. -/
theorem Within.insertGroup (h : r.Within created) (hnext : r.nextGroupId? = some group.id)
    (hempty : group.projects.toList = [])
    (hgroups : created .group + 1 ≤ created' .group) (hcreated : ∀ kind, created kind ≤ created' kind) :
    (r.insertGroup group).Within created' := by
  have hnew := not_mem_of_nextFreeId? hnext
  have hkeys : (r.insertGroup group).groups.keys = r.groups.keys ++ [group.id] :=
    Listing.keys_insert hnew
  have hprojects := projects_insertGroup hnew hempty
  have hpointers : (r.insertGroup group).pointers = r.pointers := congrArg pointersOf hprojects
  have h' := h.mono hcreated
  have hcount : r.groups.keys.length = r.groupCount := List.length_map _
  constructor
  case groups =>
    rw [nextGroupId?, ← hcount] at hnext
    refine ((h.groups.cons (fun _ => Iff.rfl) hnext).mono hgroups).of_subperm ?_
    rw [hkeys]
    exact List.perm_append_singleton _ _ |>.subperm
  case projects => exact hprojects ▸ h'.projects
  case counters => exact hprojects ▸ h'.counters
  case secured =>
    rw [hprojects, hpointers]
    exact h'.secured

/-- A project without pointers may be listed under the next identifier. -/
theorem Valid.within_insertProject (hr : r.Valid) (h : r.Within created)
    (hgroup : r.group? g = some group) (hnext : r.nextProjectId? = some project.id)
    (hcounter : project.nextPointerId = 0) (hempty : project.pointers.toList = [])
    (hprojects : created .project + 1 ≤ created' .project)
    (hcreated : ∀ kind, created kind ≤ created' kind) :
    (r.insertProject g project).Within created' := by
  have hnone := ownerOf?_of_nextProjectId? hnext
  have hp := hr.not_mem_keys_of_ownerOf?_eq_none hgroup hnone
  have hperm := projects_insertProject hr hgroup project hp
  have hadoptable : adoptable (r.insertProject g project).pointers = adoptable r.pointers := by
    have hpointers := pointers_insertProject hr hgroup project hp
    rw [hempty, List.append_nil] at hpointers
    exact hpointers.countP_eq _
  have hkeys : (r.insertProject g project).groups.keys = r.groups.keys :=
    Listing.keys_modify fun _ => id
  have h' := h.mono hcreated
  constructor
  case groups => exact hkeys ▸ h'.groups
  case projects =>
    have hcount : (r.projects.map Project.id).length = r.projectCount := by
      rw [List.length_map, hr.projectCount_eq]
    rw [nextProjectId?, ← hcount] at hnext
    exact ((h.projects.cons (fun _ => hr.mem_owners_keys) hnext).mono hprojects).of_subperm
      (hperm.map Project.id).subperm
  case counters =>
    intro x hx
    rcases List.mem_cons.mp (hperm.mem_iff.mp hx) with rfl | hx
    · rw [hcounter]
      exact Nat.zero_le _
    · exact h'.counters x hx
  case secured =>
    intro x hx hid
    rw [hadoptable]
    rcases List.mem_cons.mp (hperm.mem_iff.mp hx) with rfl | hx
    · rw [hcounter]
      exact (Nat.zero_add _).trans_le (h'.adoptable_le hr)
    · exact h'.secured x hx hid

/-- A project may be changed in its place; `n` bounds what its counter goes on by and what it gets. -/
theorem Valid.within_modifyProject (hr : r.Valid) (h : r.Within created)
    (hproject : r.project? p = some project) {f : Project → Project}
    (hid : ∀ x : Project, x.id = p → (f x).id = p) (hvalid : (f project).Valid) {n : Nat}
    (hcounter : (f project).nextPointerId.toNat ≤ project.nextPointerId.toNat + n)
    (hsize : (f project).pointers.size ≤ project.pointers.size + n)
    (hpointers : created .pointer + n ≤ created' .pointer)
    (hcreated : ∀ kind, created kind ≤ created' kind) : (r.modifyProject p f).Within created' := by
  have hp := hr.id_of_project? hproject
  have hprojects := hr.projects_modifyProject p f
  have hmem : ∀ x ∈ r.projects, x.id = p → x = project := by
    intro x hx hxp
    exact hr.eq_of_id_eq (hr.project?_eq_some_iff.mp hproject).1 hx (hxp.trans hp.symm)
  have hadoptable := hr.adoptable_modifyProject hproject f
  rw [hvalid.adoptable_eq, (hr.valid_of_project? hproject).adoptable_eq, hid project hp, hp]
    at hadoptable
  have h' := h.mono hcreated
  have hproject_mem := (hr.project?_eq_some_iff.mp hproject).1
  constructor
  case groups =>
    rw [hr.groupIds_modifyProject]
    exact h'.groups
  case projects =>
    rw [hr.projectIds_modifyProject hid]
    exact h'.projects
  case counters =>
    intro x hx
    rw [hprojects] at hx
    obtain ⟨former, hformer, rfl⟩ := List.mem_map.mp hx
    split
    · rename_i hxp
      rw [hmem former hformer hxp]
      have hle := h.counters project hproject_mem
      omega
    · exact h'.counters former hformer
  case secured =>
    intro x hx hx₀
    rw [hprojects] at hx
    obtain ⟨former, hformer, rfl⟩ := List.mem_map.mp hx
    by_cases hxp : former.id = p
    · rw [if_pos hxp] at hx₀ ⊢
      rw [hmem former hformer hxp, hid project hp] at hx₀
      have hle := h.secured project hproject_mem (hp.trans hx₀)
      rw [if_pos hx₀, if_pos hx₀] at hadoptable
      rw [hmem former hformer hxp]
      omega
    · rw [if_neg hxp] at hx₀ ⊢
      have hle := h.secured former hformer hx₀
      have hne : p ≠ securedProjectId := fun heq => hxp (hx₀.trans heq.symm)
      rw [if_neg hne, if_neg hne] at hadoptable
      omega

/-- What is left of a removal is the secured project with what it has taken in, and the other projects
as they were. -/
theorem LosesProject.eq_or_mem (h : r.LosesProject r' g p kept) (hr : r.Valid) (hr' : r'.Valid)
    (hsecured : r.project? securedProjectId = some secured) {x : Project} (hx : x ∈ r'.projects) :
    x = secured.takeIn kept ∨ x ∈ r.projects ∧ x.id ≠ securedProjectId := by
  have hfound := hr'.project?_eq_some_iff.mpr ⟨hx, rfl⟩
  by_cases hx₀ : x.id = securedProjectId
  · rw [hx₀, (h.secured secured hsecured).1] at hfound
    exact .inl (Option.some_inj.mp hfound).symm
  · have hxp : x.id ≠ p := by
      intro heq
      rw [heq, h.gone] at hfound
      cases hfound
    rw [h.other_project _ hxp hx₀] at hfound
    exact .inr ⟨(hr.project?_eq_some_iff.mp hfound).1, hx₀⟩

/-- What the secured project takes in it will not adopt again. -/
theorem Valid.adoptable_withoutProject (hr : r.Valid) (howner : r.ownerOf? p = some g)
    (hproject : r.project? p = some project) (hp : p ≠ securedProjectId) (kept : List Pointer) :
    adoptable (r.withoutProject g p kept).pointers + project.pointers.size =
      adoptable r.pointers := by
  obtain ⟨A, group, B, C, D, hplace⟩ := hr.exists_place_of_owner howner hproject
  obtain ⟨secured, hsecured⟩ := hr.exists_securedProject
  have hsecured' : (r.eraseProject g p).project? securedProjectId = some secured := by
    rw [hr.project?_eraseProject howner, if_neg hp.symm, hsecured]
  have hmodified := (hr.eraseProject hplace hp).adoptable_modifyProject hsecured' (·.takeIn kept)
  have hnumbered : adoptable (secured.numbered kept) = 0 := by
    refine List.countP_eq_zero.mpr ?_
    intro q hq
    obtain ⟨i, hi, rfl⟩ := List.mem_mapIdx.mp hq
    simp [hr.id_of_project? hsecured]
  have herased : adoptable r.pointers =
      adoptable ((r.eraseProject g p).pointers ++ project.pointers.toList) :=
    (pointers_eraseProject hplace).countP_eq _
  rw [adoptable_append, (hr.valid_of_project? hproject).adoptable_eq, hr.id_of_project? hproject,
    if_neg hp] at herased
  simp only [Project.takeIn, adoptable_append, hnumbered] at hmodified
  simp only [withoutProject, Project.takeIn]
  omega

/-- A project may be removed; the secured project adopts no more than it may. -/
theorem Valid.within_withoutProject (hr : r.Valid) (h : r.Within created)
    (howner : r.ownerOf? p = some g) (hproject : r.project? p = some project)
    (hp : p ≠ securedProjectId) (hsecured : r.project? securedProjectId = some secured)
    (hkept : kept.length ≤ project.pointers.size)
    (hfit : secured.nextPointerId.toNat + kept.length < UInt64.size)
    (hr' : (r.withoutProject g p kept).Valid) : (r.withoutProject g p kept).Within created := by
  obtain ⟨A, group, B, C, D, hplace⟩ := hr.exists_place_of_owner howner hproject
  have hrest := hr.eraseProject hplace hp
  have hlost := hr.losesProject howner hp hsecured hfit
  obtain ⟨-, -, hcounter, -⟩ := hlost.secured secured hsecured
  have hadoptable := hr.adoptable_withoutProject howner hproject hp kept
  obtain ⟨hsecured_mem, hsecured_id⟩ := hr.project?_eq_some_iff.mp hsecured
  have hle := h.secured secured hsecured_mem hsecured_id
  constructor
  case groups =>
    have hkeys : (r.eraseProject g p).groups.keys = r.groups.keys := Listing.keys_modify fun _ => id
    rw [withoutProject, hrest.groupIds_modifyProject, hkeys]
    exact h.groups
  case projects =>
    have hids := hrest.projectIds_modifyProject (p := securedProjectId) (f := (·.takeIn kept))
      fun _ => id
    rw [withoutProject, hids, hr.projects_eraseProject howner]
    exact h.projects.of_subperm (List.filter_sublist.map Project.id).subperm
  case counters =>
    intro x hx
    rcases hlost.eq_or_mem hr hr' hsecured hx with rfl | ⟨hx, -⟩
    · omega
    · exact h.counters x hx
  case secured =>
    intro x hx hx₀
    rcases hlost.eq_or_mem hr hr' hsecured hx with rfl | ⟨-, hne⟩
    · omega
    · exact absurd hx₀ hne

/-- A group may be removed. -/
theorem Valid.within_withoutGroup (hr : r.Valid) (h : r.Within created)
    (hgroup : r.group? g = some group) (hg : g ≠ securedGroupId) (hard : Bool) :
    (r.withoutGroup group (group.kept hard)).Within created := by
  obtain ⟨hgroups, hprojects⟩ := hr.groups_withoutGroup hgroup hg (group.kept_sublist hard)
  have hformer := projects_eraseGroup hr hgroup
  refine h.of_subperm ?_ ?_
  · have hkeys : ((r.groups.erase g).modify securedGroupId (·.takeIn (group.kept hard))).keys =
        (r.groups.erase g).keys := Listing.keys_modify fun _ => id
    rw [hgroups, hkeys]
    exact (Listing.keys_erase_sublist _ _).subperm
  · exact hprojects.subperm.trans
      (((group.kept_sublist hard).append_left _).subperm.trans hformer.symm.subperm)

theorem Valid.within_deleteProject (hr : r.Valid) (h : r.Within created) {hard : Bool}
    {removed : Option Project} (hdelete : r.deleteProject g p hard = .ok (removed, r')) :
    r'.Within created := by
  have hr' := hr.deleteProject hdelete
  obtain ⟨group, hgroup, hmem, hcases⟩ := deleteProject_ok hdelete
  rcases hcases with ⟨-, -, rfl⟩ | ⟨hp, owner, project, howner, hproject, -, -⟩
  · exact h
  obtain ⟨secured, hsecured⟩ := hr.exists_securedProject
  obtain rfl := Option.some_inj.mp (howner.symm.trans (hr.ownerOf?_of_mem_keys hgroup hmem))
  have hget := (project?_eq_some howner hgroup).symm.trans hproject
  rw [hr.deleteProject_eq hgroup hget hp hsecured] at hdelete
  split at hdelete
  · rename_i hfit
    cases hdelete
    exact hr.within_withoutProject h howner hproject hp hsecured (project.length_kept_le hard)
      (Project.length_kept_lt hfit) hr'
  · cases hdelete

theorem Within.createGroup (h : r.Within created) {request : NewGroup}
    (hcreate : r.createGroup now request = .ok (group, r')) :
    r'.Within fun kind => created kind + (Operation.createGroup request).creates kind := by
  obtain ⟨-, id, hnext, rfl, rfl⟩ := createGroup_ok hcreate
  exact h.insertGroup hnext rfl (Nat.le_refl _) fun _ => Nat.le_add_right _ _

theorem Valid.within_createProject (hr : r.Valid) (h : r.Within created) {request : NewProject}
    (hcreate : r.createProject now request = .ok (project, r')) :
    r'.Within fun kind => created kind + (Operation.createProject request).creates kind := by
  obtain ⟨group, id, hgroup, -, hnext, rfl, rfl⟩ := createProject_ok hcreate
  exact hr.within_insertProject h hgroup hnext rfl rfl (Nat.le_refl _) fun _ => Nat.le_add_right _ _

theorem Valid.within_createPointer (hr : r.Valid) (h : r.Within created) {request : NewPointer}
    {pointer : Pointer} (hcreate : r.createPointer request = .ok (pointer, r')) :
    r'.Within fun kind => created kind + (Operation.createPointer request).creates kind := by
  obtain ⟨project, adopted, hproject, -, -, hadopt, rfl⟩ := createPointer_ok hcreate
  have hvalid := hr.valid_of_project? hproject
  have hsize : adopted.pointers.size ≤ project.pointers.size + 1 := by
    rw [Listing.size, hvalid.toList_adopt? hadopt, List.length_append]
    exact Nat.le_refl _
  have hid := (Project.adopt?_frame hadopt).1.trans (hr.id_of_project? hproject)
  refine hr.within_modifyProject h hproject (fun _ _ => hid) (hvalid.adopt? hadopt) ?_ hsize
    (Nat.le_refl _) fun _ => Nat.le_add_right _ _
  obtain ⟨hnext, -, rfl⟩ := Project.adopt?_eq_some_iff.mp hadopt
  exact (toNat_add_one_of_ne_zero hnext).le

theorem Valid.within_deleteGroup (hr : r.Valid) (h : r.Within created) {hard : Bool}
    (hdelete : r.deleteGroup g hard = .ok (group, r')) : r'.Within created := by
  obtain ⟨hgroup, hg, -⟩ := deleteGroup_ok hdelete
  rw [deleteGroup_eq hgroup hg] at hdelete
  cases hdelete
  exact hr.within_withoutGroup h hgroup hg hard

theorem Valid.within_deletePointer (hr : r.Valid) (h : r.Within created) {q : PointerId}
    {pointer : Pointer} (hdelete : r.deletePointer p q = .ok (pointer, r')) : r'.Within created := by
  obtain ⟨project, hproject, -, rfl⟩ := deletePointer_ok hdelete
  exact hr.within_modifyProject h hproject (n := 0) (fun _ => id)
    ((hr.valid_of_project? hproject).erase q) (Nat.le_refl _) (List.length_filter_le _ _)
    (Nat.le_refl _) fun _ => Nat.le_refl _

theorem Valid.within_editGroup (hr : r.Valid) (h : r.Within created) {edit : Edit}
    (hedit : r.editGroup now g edit = .ok (group, r')) : r'.Within created := by
  obtain ⟨former, hformer, -, -, rfl⟩ := editGroup_ok hedit
  have hkeys : (r.modifyGroup g (·.edited now edit)).groups.keys = r.groups.keys :=
    Listing.keys_modify fun x hx => (x.id_edited now edit).trans hx
  have hprojects := projects_modifyGroup hr hformer (f := (·.edited now edit))
    (former.projects_edited now edit)
  exact h.of_subperm (hkeys ▸ List.Subperm.refl _) (hprojects ▸ List.Subperm.refl _)

theorem Valid.within_editProject (hr : r.Valid) (h : r.Within created) {edit : Edit}
    (hedit : r.editProject now p edit = .ok (project, r')) : r'.Within created := by
  obtain ⟨former, hformer, -, -, rfl⟩ := editProject_ok hedit
  refine hr.within_modifyProject h hformer (n := 0) (fun x hx => (x.id_edited now edit).trans hx)
    ((hr.valid_of_project? hformer).edited now edit) ?_ ?_ (Nat.le_refl _) fun _ => Nat.le_refl _
  · rw [Project.nextPointerId_edited]
    exact Nat.le_refl _
  · rw [Project.pointers_edited]
    exact Nat.le_refl _

theorem Valid.within_editPointer (hr : r.Valid) (h : r.Within created) {q : PointerId} {edit : Edit}
    {pointer : Pointer} (hedit : r.editPointer p q edit = .ok (pointer, r')) :
    r'.Within created := by
  obtain ⟨project, former, hproject, -, -, -, rfl⟩ := editPointer_ok hedit
  refine hr.within_modifyProject h hproject (n := 0) (fun _ => id)
    ((hr.valid_of_project? hproject).modify q edit) (Nat.le_refl _) ?_ (Nat.le_refl _)
    fun _ => Nat.le_refl _
  exact (List.length_map _).le

/-- What an operation creates is all that lets bounds grow. -/
theorem Valid.within_perform (hr : r.Valid) (h : r.Within created) {operation : Operation}
    {outcome : Outcome} (hperform : operation.perform now r = .ok (outcome, r')) :
    r'.Within fun kind => created kind + operation.creates kind := by
  have hmade := makes_of_perform hperform
  cases operation <;> obtain ⟨entity, hmade⟩ := hmade
  case createGroup => exact h.createGroup hmade
  case createProject => exact hr.within_createProject h hmade
  case createPointer => exact hr.within_createPointer h hmade
  case deleteGroup => exact hr.within_deleteGroup h hmade
  case deleteProject => exact hr.within_deleteProject h hmade
  case deletePointer => exact hr.within_deletePointer h hmade
  case editGroup => exact hr.within_editGroup h hmade
  case editProject => exact hr.within_editProject h hmade
  case editPointer => exact hr.within_editPointer h hmade

/-! ### Room for more -/

theorem Valid.size_le_adoptable (hr : r.Valid) (hproject : r.project? p = some project)
    (hp : p ≠ securedProjectId) : project.pointers.size ≤ adoptable r.pointers := by
  obtain ⟨g, A, group, B, C, D, hplace⟩ := hr.exists_place hproject
  have hsize := (hr.valid_of_project? hproject).adoptable_eq
  rw [hr.id_of_project? hproject, if_neg hp] at hsize
  rw [hplace.pointers_eq]
  simp only [adoptable_append]
  omega

/-- While fewer entities of a kind have been created than there are identifiers beside the first one,
no operation lacks one. -/
theorem Within.not_lacks (h : r.Within created) (hr : r.Valid)
    (hroom : created kind < UInt64.size - 1) (operation : Operation) : ¬ r.Lacks kind operation := by
  intro hlacks
  cases operation <;> try exact hlacks
  case createGroup =>
    obtain ⟨rfl, hnone⟩ := hlacks
    exact nextFreeId?_ne_none h.groups.toNat_le hroom _ hnone
  case createProject =>
    obtain ⟨rfl, hnone⟩ := hlacks
    exact nextFreeId?_ne_none (fun p hp => h.projects.toNat_le p (hr.mem_owners_keys.mp hp)) hroom _
      hnone
  case createPointer =>
    obtain ⟨rfl, project, hproject, hlast⟩ := hlacks
    have hle := h.counters project (hr.project?_eq_some_iff.mp hproject).1
    have hnat := congrArg UInt64.toNat hlast
    rw [show (project.nextPointerId + 1).toNat = project.nextPointerId.toNat + 1 from
      toNat_add_of_lt (n := 1) (by omega)] at hnat
    exact absurd hnat (Nat.succ_ne_zero _)
  case deleteProject =>
    obtain ⟨rfl, hp, project, secured, hproject, hsecured, hfull⟩ := hlacks
    obtain ⟨hmem, hid⟩ := hr.project?_eq_some_iff.mp hsecured
    have hle := h.secured secured hmem hid
    have hsize := hr.size_le_adoptable hproject hp
    omega

theorem Within.perform_ne_idsExhausted (h : r.Within created) (hr : r.Valid)
    (hroom : created kind < UInt64.size - 1) (now : Timestamp) (operation : Operation) :
    operation.perform now r ≠ .error (.idsExhausted kind) := by
  intro hperform
  rcases hr.perform_error hperform with hreason | ⟨kind', hkind, hlacks⟩
  · cases hreason
  · cases hkind
    exact h.not_lacks hr hroom operation hlacks

end Registry
end PipelineRegistry
