import Mathlib
import PipelineRegistry.Proofs.Registry.Changes
import PipelineRegistry.Proofs.Registry.Preservation
import PipelineRegistry.Proofs.Registry.Success

/-! # Agreement of a registry with what an operation makes of it

`agrees` overlooks the order of listings and the spelling of paths.  No operation changes nothing but
these: creating and removing change how many entities there are, a count or the index of owners, and
an edit leaves every entity in its place and every path as it is spelled.  So a registry that agrees
with what an operation makes of it is equal to it. -/

namespace PipelineRegistry

open Calendar

/-! ### Edits -/

theorem Pointer.edited_eq_of_agrees {q : Pointer} {edit : Edit} (h : (q.edited edit).agrees q) :
    q.edited edit = q := by
  simp only [agrees, Bool.and_eq_true, beq_iff_eq] at h
  obtain ⟨⟨hrest, -⟩, -⟩ := h
  cases edit with
  | rename name =>
      have hname : name = q.name := congrArg Pointer.name hrest
      rw [edited, hname]
  | tag value =>
      have htag : some value = q.tag := congrArg Pointer.tag hrest
      rw [edited, htag]
  | describe value =>
      have hdescription : some value = q.description := congrArg Pointer.description hrest
      rw [edited, hdescription]

theorem Project.eq_of_agrees {p p' : Project} (h : p'.agrees p) (hpointers : p'.pointers = p.pointers) :
    p' = p := by
  simp only [agrees, Bool.and_eq_true, beq_iff_eq] at h
  have hrest : { p' with pointers := p.pointers } = p :=
    congrArg (fun project : Project => { project with pointers := p.pointers }) h.1
  rw [← hpointers] at hrest
  exact hrest

theorem Group.eq_of_agrees {g g' : Group} (h : g'.agrees g) (hprojects : g'.projects = g.projects) :
    g' = g := by
  simp only [agrees, Bool.and_eq_true, beq_iff_eq] at h
  have hrest : { g' with projects := g.projects } = g :=
    congrArg (fun group : Group => { group with projects := g.projects }) h.1
  rw [← hprojects] at hrest
  exact hrest

/-! ### Order -/

theorem Pointer.agrees_self (q : Pointer) : q.agrees q := by simp [agrees, Path.agrees]

theorem Project.agrees_self {p : Project} (hp : p.pointers.keys.Nodup) : p.agrees p := by
  rw [agrees, Bool.and_eq_true, beq_iff_eq]
  exact ⟨rfl, Listing.agrees_of_perm hp (.refl _) fun q _ => q.agrees_self⟩

theorem Group.agrees_self {g : Group} (hg : g.projects.keys.Nodup)
    (hpointers : ∀ p ∈ g.projects.toList, p.pointers.keys.Nodup) : g.agrees g := by
  rw [agrees, Bool.and_eq_true, beq_iff_eq]
  exact ⟨rfl, Listing.agrees_of_perm hg (.refl _) fun p hp => Project.agrees_self (hpointers p hp)⟩

namespace Registry

variable {r r' : Registry} {now : Timestamp} {g : GroupId} {p : ProjectId} {q : PointerId}

/-- The registry with its groups listed in another order. -/
def reordered (r : Registry) (groups : List Group) : Registry := { r with groups := ⟨groups⟩ }

/-- The order of the groups does not count. -/
theorem Valid.reordered_agrees (hr : r.Valid) {groups : List Group}
    (hperm : groups.Perm r.groups.toList) : (r.reordered groups).agrees r := by
  rw [agrees, Bool.and_eq_true]
  refine ⟨Listing.agrees_of_perm hr.group_keys hperm ?_, beq_iff_eq.mpr rfl⟩
  intro group hgroup
  refine Group.agrees_self (hr.project_keys_of_mem hgroup) ?_
  intro p hp
  exact (hr.projects_valid p (mem_projects.mpr ⟨group, hgroup, hp⟩)).pointer_keys

theorem Valid.agrees_self (hr : r.Valid) : r.agrees r := hr.reordered_agrees (.refl _)

/-- The groups of a valid registry may stand in any order. -/
theorem Valid.reordered (hr : r.Valid) {groups : List Group}
    (hperm : groups.Perm r.groups.toList) : (r.reordered groups).Valid := by
  have hprojects : (r.reordered groups).projects.Perm r.projects := hperm.flatMap_right _
  have hgroup_keys : (r.reordered groups).groups.keys.Nodup :=
    (hperm.map Group.id).nodup_iff.mpr hr.group_keys
  have hget : ∀ g, (r.reordered groups).group? g = r.group? g := by
    intro g
    ext group
    rw [group?, group?, Listing.get?_eq_some_iff hgroup_keys, Listing.get?_eq_some_iff hr.group_keys]
    exact and_congr_left' hperm.mem_iff
  constructor
  case group_keys => exact hgroup_keys
  case project_keys => exact (hprojects.map Project.id).nodup_iff.mpr hr.project_keys
  case group_names => exact (hperm.map Group.name).nodup_iff.mpr hr.group_names
  case projects_valid => exact fun p hp => hr.projects_valid p (hprojects.mem_iff.mp hp)
  case pipelines_nodup =>
    have hpointers := hprojects.flatMap_right fun p : Project => p.pointers.toList
    exact (hpointers.map Pointer.pipeline).nodup_iff.mpr hr.pipelines_nodup
  case owner_iff =>
    intro p g
    rw [hget]
    exact hr.owner_iff p g
  case secured =>
    rw [hget]
    exact hr.secured

theorem groups_agree (h : r'.agrees r) : r'.groups.agrees Group.agrees r.groups :=
  (Bool.and_eq_true_iff.mp h).1

theorem ownerOf?_eq_of_agrees (h : r'.agrees r) (p : ProjectId) : r'.ownerOf? p = r.ownerOf? p := by
  have howners : r'.owners = r.owners := eq_of_beq (Bool.and_eq_true_iff.mp h).2
  rw [ownerOf?, howners, ownerOf?]

/-! ### Changes in their place -/

theorem project_agrees_of_modifyProject (hr : r.Valid) {project : Project}
    (hproject : r.project? p = some project) {f : Project → Project} (hid : (f project).id = p)
    (h : (r.modifyProject p f).agrees r) : (f project).agrees project := by
  obtain ⟨g, A, group, B, C, D, hplace⟩ := hr.exists_place hproject
  have hmodify : r.modifyProject p f = r.modifyGroup g
      fun group => { group with projects := group.projects.modify p f } := by
    rw [modifyProject, hplace.owner]
  rw [hmodify] at h
  have hgroup := Listing.same_of_agrees_modify hplace.group?_eq hplace.group_splits.key_eq
    (groups_agree h)
  rw [Group.agrees, Bool.and_eq_true] at hgroup
  exact Listing.same_of_agrees_modify hplace.project_splits.get?_eq hid hgroup.2

theorem modifyProject_eq_self (hr : r.Valid) {project : Project}
    (hproject : r.project? p = some project) {f : Project → Project} (hf : f project = project) :
    r.modifyProject p f = r := by
  obtain ⟨g, A, group, B, C, D, hplace⟩ := hr.exists_place hproject
  have hkeys := hr.project_keys_of_group? hplace.group?_eq
  have hprojects := Listing.modify_eq_self hkeys hplace.project_splits.get?_eq hf
  have hgroups : r.groups.modify g (fun group => { group with projects := group.projects.modify p f }) =
      r.groups := by
    refine Listing.modify_eq_self hr.group_keys hplace.group?_eq ?_
    rw [hprojects]
  rw [modifyProject, hplace.owner]
  change ({ r with groups := r.groups.modify g _ } : Registry) = r
  rw [hgroups]

theorem editGroup_eq_of_agrees (hr : r.Valid) {edit : Edit} {group : Group}
    (h : r.editGroup now g edit = .ok (group, r')) (hagrees : r'.agrees r) : r' = r := by
  obtain ⟨former, hformer, -, -, rfl⟩ := editGroup_ok h
  have hkey : (former.edited now edit).id = g := by
    rw [Group.id_edited]
    exact Listing.key_of_get? hformer
  have hsame := Listing.same_of_agrees_modify hformer hkey (groups_agree hagrees)
  have heq := Group.eq_of_agrees hsame (former.projects_edited now edit)
  rw [modifyGroup, Listing.modify_eq_self hr.group_keys hformer heq]

theorem editProject_eq_of_agrees (hr : r.Valid) {edit : Edit} {project : Project}
    (h : r.editProject now p edit = .ok (project, r')) (hagrees : r'.agrees r) : r' = r := by
  obtain ⟨former, hformer, -, -, rfl⟩ := editProject_ok h
  have hid : (former.edited now edit).id = p := by
    rw [Project.id_edited]
    exact hr.id_of_project? hformer
  have hsame := project_agrees_of_modifyProject hr hformer hid hagrees
  exact modifyProject_eq_self hr hformer (Project.eq_of_agrees hsame (former.pointers_edited now edit))

theorem editPointer_eq_of_agrees (hr : r.Valid) {edit : Edit} {pointer : Pointer}
    (h : r.editPointer p q edit = .ok (pointer, r')) (hagrees : r'.agrees r) : r' = r := by
  obtain ⟨project, former, hproject, hformer, -, -, rfl⟩ := editPointer_ok h
  have hid := hr.id_of_project? hproject
  have hsame := project_agrees_of_modifyProject hr hproject
    (f := fun project => { project with pointers := project.pointers.modify q (·.edited edit) }) hid hagrees
  rw [Project.agrees, Bool.and_eq_true] at hsame
  have hkey : (former.edited edit).id = q := by
    rw [Pointer.id_edited]
    exact Listing.key_of_get? hformer
  have hpointer := Pointer.edited_eq_of_agrees (Listing.same_of_agrees_modify hformer hkey hsame.2)
  have hkeys := (hr.valid_of_project? hproject).pointer_keys
  refine modifyProject_eq_self hr hproject ?_
  rw [Listing.modify_eq_self hkeys hformer hpointer]

/-! ### Creating and removing -/

theorem not_agrees_createGroup {request : NewGroup} {group : Group}
    (h : r.createGroup now request = .ok (group, r')) : ¬ r'.agrees r := by
  obtain ⟨-, id, hid, rfl, rfl⟩ := createGroup_ok h
  intro hagrees
  have hsize := Listing.size_eq_of_agrees (groups_agree hagrees)
  have hnew : Keyed.key (Group.create id request.name request.tag request.description now) ∉
      r.groups.keys := not_mem_of_nextFreeId? hid
  have hlist := Listing.toList_insert hnew
  rw [insertGroup, Listing.size, hlist, List.length_append, List.length_singleton, Listing.size] at hsize
  omega

theorem not_agrees_createProject {request : NewProject} {project : Project}
    (h : r.createProject now request = .ok (project, r')) : ¬ r'.agrees r := by
  obtain ⟨group, id, -, -, hid, rfl, rfl⟩ := createProject_ok h
  intro hagrees
  have howner := ownerOf?_eq_of_agrees hagrees id
  have hlisted : (Project.create id request.name request.tag request.description now).id = id := rfl
  rw [ownerOf?_insertProject, if_pos hlisted, ownerOf?_of_nextProjectId? hid] at howner
  cases howner

theorem not_agrees_createPointer (hr : r.Valid) {request : NewPointer} {pointer : Pointer}
    (h : r.createPointer request = .ok (pointer, r')) : ¬ r'.agrees r := by
  obtain ⟨project, adopted, hproject, -, -, hadopted, rfl⟩ := createPointer_ok h
  intro hagrees
  obtain ⟨hid, -, -⟩ := Project.adopt?_frame hadopted
  obtain ⟨hne, -, rfl⟩ := Project.adopt?_eq_some_iff.mp hadopted
  have hsame := project_agrees_of_modifyProject hr hproject (hid.trans (hr.id_of_project? hproject))
    hagrees
  simp only [Project.agrees, Bool.and_eq_true, beq_iff_eq] at hsame
  have hnext : project.nextPointerId + 1 = project.nextPointerId :=
    congrArg Project.nextPointerId hsame.1
  have hlt := lt_add_one_of_ne_zero hne
  rw [hnext] at hlt
  exact absurd hlt (Std.lt_irrefl)

theorem size_foldl_insertProject (projects : List Project) (r : Registry) :
    (projects.foldl (insertProject · g) r).groups.size = r.groups.size := by
  induction projects generalizing r with
  | nil => rfl
  | cons project projects ih =>
      rw [List.foldl_cons, ih]
      exact List.length_map _

theorem not_agrees_deleteGroup {hard : Bool} {group : Group}
    (h : r.deleteGroup g hard = .ok (group, r')) : ¬ r'.agrees r := by
  obtain ⟨hgroup, -, rfl⟩ := deleteGroup_ok h
  intro hagrees
  have hkey : group.id ∈ r.groups.keys := Listing.mem_keys.mpr ⟨group, Listing.mem_of_get? hgroup, rfl⟩
  have hlt : (r.eraseGroup group).groups.size < r.groups.size := Listing.size_erase_lt hkey
  have hsize := Listing.size_eq_of_agrees (groups_agree hagrees)
  split at hsize
  · omega
  · rw [size_foldl_insertProject] at hsize
    omega

/-- Only the removal of the secured project, from which nothing comes, gives a registry that agrees. -/
theorem deleteProject_eq_of_agrees {hard : Bool} {removed : Option Project}
    (h : r.deleteProject g p hard = .ok (removed, r')) (hagrees : r'.agrees r) : r' = r := by
  obtain ⟨group, -, -, h⟩ := deleteProject_ok h
  rcases h with ⟨-, -, rfl⟩ | ⟨-, owner, project, howner, -, -, h⟩
  · rfl
  · have hgone : r'.ownerOf? p = none := by
      rcases h with ⟨-, rfl⟩ | ⟨-, -, hrehome⟩
      · rw [ownerOf?_eraseProject, if_pos rfl]
      · obtain ⟨secured, adopted, -, -, rfl⟩ := rehome_ok hrehome
        rw [ownerOf?_modifyProject, ownerOf?_eraseProject, if_pos rfl]
    rw [ownerOf?_eq_of_agrees hagrees, howner] at hgone
    cases hgone

theorem not_agrees_deletePointer (hr : r.Valid) {pointer : Pointer}
    (h : r.deletePointer p q = .ok (pointer, r')) : ¬ r'.agrees r := by
  obtain ⟨project, hproject, hpointer, rfl⟩ := deletePointer_ok h
  intro hagrees
  have hid := hr.id_of_project? hproject
  have hsame := project_agrees_of_modifyProject hr hproject
    (f := fun project => { project with pointers := project.pointers.erase q }) hid hagrees
  rw [Project.agrees, Bool.and_eq_true] at hsame
  have hsize := Listing.size_eq_of_agrees hsame.2
  have hlt := Listing.size_erase_lt (Listing.mem_keys_of_get? hpointer)
  change (project.pointers.erase q).size = project.pointers.size at hsize
  omega

/-! ### All operations -/

/-- An operation that gives a registry which agrees with the former one has changed nothing. -/
theorem Valid.eq_of_agrees (hr : r.Valid) {operation : Operation} {outcome : Outcome}
    (h : operation.perform now r = .ok (outcome, r')) (hagrees : r'.agrees r) : r' = r := by
  replace h := makes_of_perform h
  cases operation <;> obtain ⟨entity, h⟩ := h
  case createGroup => exact absurd hagrees (not_agrees_createGroup h)
  case createProject => exact absurd hagrees (not_agrees_createProject h)
  case createPointer => exact absurd hagrees (not_agrees_createPointer hr h)
  case deleteGroup => exact absurd hagrees (not_agrees_deleteGroup h)
  case deleteProject => exact deleteProject_eq_of_agrees h hagrees
  case deletePointer => exact absurd hagrees (not_agrees_deletePointer hr h)
  case editGroup => exact editGroup_eq_of_agrees hr h hagrees
  case editProject => exact editProject_eq_of_agrees hr h hagrees
  case editPointer => exact editPointer_eq_of_agrees hr h hagrees

end Registry
end PipelineRegistry
