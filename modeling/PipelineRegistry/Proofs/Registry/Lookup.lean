import Mathlib
import PipelineRegistry.Proofs.Registry.Changes

/-! # What is found after a change

A project is in one group only, so a change of the group that holds it may as well be made in every
group.  In this form a change says at once what all groups and all projects have become, and what is
found afterwards. -/

namespace PipelineRegistry.Registry

variable {r r' : Registry} {g : GroupId} {p : ProjectId} {project : Project} {group : Group}

/-! ### The index of owners -/

theorem owners_modifyProject (r : Registry) (p : ProjectId) (f : Project → Project) :
    (r.modifyProject p f).owners = r.owners := by
  unfold modifyProject
  split <;> rfl

theorem ownerOf?_foldl_insertProject (r : Registry) (g : GroupId) (ps : List Project) (p : ProjectId) :
    (ps.foldl (fun r p => r.insertProject g p) r).ownerOf? p =
      if p ∈ ps.map Project.id then some g else r.ownerOf? p := by
  induction ps generalizing r with
  | nil => simp
  | cons q ps ih =>
      rw [List.foldl_cons, ih, ownerOf?_insertProject]
      simp only [List.map_cons, List.mem_cons]
      split_ifs <;> grind

/-! ### Groups and projects -/

/-- A change of the group that holds a project may be made in all groups, if it is none where the
project is missing. -/
theorem Valid.groups_modify_of_owner (hr : r.Valid) (howner : r.ownerOf? p = some g)
    {f : Group → Group} (hf : ∀ group : Group, p ∉ group.projects.keys → f group = group) :
    r.groups.modify g f = ⟨r.groups.toList.map f⟩ := by
  refine congrArg Listing.ofList (List.map_congr_left ?_)
  intro group hgroup
  split
  · rfl
  · rename_i hne
    refine (hf group fun hp => hne ?_).symm
    rw [hr.ownerOf?_of_mem_keys (hr.group?_id hgroup) hp, Option.some_inj] at howner
    exact howner

/-- Where all groups are changed, a group is found as it is now. -/
theorem group?_of_groups_eq {f : Group → Group} (hgroups : r'.groups = ⟨r.groups.toList.map f⟩)
    (hf : ∀ x, (f x).id = x.id) (g : GroupId) : r'.group? g = (r.group? g).map f := by
  rw [group?, hgroups]
  exact Listing.get?_map hf g

theorem Valid.groups_eraseProject (hr : r.Valid) (howner : r.ownerOf? p = some g) :
    (r.eraseProject g p).groups =
      ⟨r.groups.toList.map fun group => { group with projects := group.projects.erase p }⟩ :=
  hr.groups_modify_of_owner howner fun group hp => by rw [Listing.erase_eq_self hp]

theorem Valid.groups_modifyProject (hr : r.Valid) (p : ProjectId) (f : Project → Project) :
    (r.modifyProject p f).groups =
      ⟨r.groups.toList.map fun group => { group with projects := group.projects.modify p f }⟩ := by
  unfold Registry.modifyProject
  split
  · rename_i hnone
    refine congrArg Listing.ofList ((List.map_congr_left ?_).trans (List.map_id _)).symm
    intro group hgroup
    rw [Listing.modify_of_not_mem (hr.not_mem_keys_of_ownerOf?_eq_none (hr.group?_id hgroup) hnone)]
    rfl
  · rename_i g howner
    exact hr.groups_modify_of_owner howner fun group hp => by rw [Listing.modify_of_not_mem hp]

theorem Valid.projects_eraseProject (hr : r.Valid) (howner : r.ownerOf? p = some g) :
    (r.eraseProject g p).projects = r.projects.filter (·.id ≠ p) := by
  rw [projects, hr.groups_eraseProject howner, projects, List.filter_flatMap, List.flatMap_map]
  rfl

theorem Valid.projects_modifyProject (hr : r.Valid) (p : ProjectId) (f : Project → Project) :
    (r.modifyProject p f).projects = r.projects.map fun x => if x.id = p then f x else x := by
  rw [projects, hr.groups_modifyProject, projects, List.map_flatMap, List.flatMap_map]
  rfl

/-- A project that is changed in its place leaves all groups under their identifiers. -/
theorem Valid.groupIds_modifyProject (hr : r.Valid) (p : ProjectId) (f : Project → Project) :
    (r.modifyProject p f).groups.keys = r.groups.keys := by
  rw [hr.groups_modifyProject, Listing.keys, List.map_map]
  rfl

/-- A project that keeps its identifier leaves all projects under theirs. -/
theorem Valid.projectIds_modifyProject (hr : r.Valid) {f : Project → Project}
    (hid : ∀ x : Project, x.id = p → (f x).id = p) :
    (r.modifyProject p f).projects.map Project.id = r.projects.map Project.id := by
  rw [hr.projects_modifyProject, List.map_map]
  refine List.map_congr_left ?_
  intro x _
  change (ite _ _ _ : Project).id = x.id
  split
  · rename_i hxp
    exact (hid x hxp).trans hxp.symm
  · rfl

/-- A change in its place may be stated for the project that is there. -/
theorem Valid.modifyProject_congr (hr : r.Valid) (hproject : r.project? p = some project)
    {f f' : Project → Project} (hf : f project = f' project) :
    r.modifyProject p f = r.modifyProject p f' := by
  obtain ⟨g, A, group, B, C, D, hplace⟩ := hr.exists_place hproject
  have hlist : (r.modifyProject p f).groups.toList = (r.modifyProject p f').groups.toList := by
    rw [hplace.toList_modifyProject, hplace.toList_modifyProject, hf]
  have howners := (owners_modifyProject r p f).trans (owners_modifyProject r p f').symm
  exact congrArg₂ Registry.mk (congrArg Listing.ofList hlist) howners

theorem modifyProject_id (r : Registry) (p : ProjectId) : (r.modifyProject p fun x => x) = r := by
  unfold modifyProject
  split
  · rfl
  · simp only [modifyGroup, Listing.modify_id]

/-! ### Looking up -/

/-- A project that has been taken out is not found, and all others still are. -/
theorem Valid.project?_eraseProject (hr : r.Valid) (howner : r.ownerOf? p = some g) (q : ProjectId) :
    (r.eraseProject g p).project? q = if q = p then none else r.project? q := by
  have hgroup := group?_of_groups_eq (hr.groups_eraseProject howner) fun _ => rfl
  simp only [Registry.project?, ownerOf?_eraseProject, hgroup]
  by_cases hq : q = p
  · simp [hq]
  · rw [if_neg (Ne.symm hq), if_neg hq]
    cases r.ownerOf? q with
    | none => rfl
    | some x => cases hx : r.group? x <;> simp [hx, Listing.get?_erase, hq]

/-- A project that has been changed in its place is found as it is now. -/
theorem Valid.project?_modifyProject (hr : r.Valid) {f : Project → Project}
    (hf : ∀ x, (f x).id = x.id) (q : ProjectId) : (r.modifyProject p f).project? q =
      if q = p then (r.project? q).map f else r.project? q := by
  have hgroup := group?_of_groups_eq (hr.groups_modifyProject p f) fun _ => rfl
  have hkey : ∀ x : Project, Keyed.key x = p → Keyed.key (f x) = p := fun x hx => (hf x).trans hx
  simp only [Registry.project?, ownerOf?_modifyProject, hgroup]
  cases r.ownerOf? q with
  | none => simp
  | some x =>
      cases hx : r.group? x with
      | none => simp [hx]
      | some group =>
          simp only [Option.bind_eq_bind, Option.bind_some, hx, Option.map_some,
            Listing.get?_modify hkey]
          split
          · rename_i hq
            rw [hq]
          · rfl

/-! ### Counting -/

/-- The index knows the projects there are. -/
theorem Valid.mem_owners_keys (hr : r.Valid) : p ∈ r.owners.keys ↔ p ∈ r.projects.map Project.id := by
  rw [← not_iff_not, ← hr.ownerOf?_eq_none_iff, Std.ExtTreeMap.mem_keys, ownerOf?,
    getElem?_eq_none_iff]

/-- The index has one entry for each project. -/
theorem Valid.owners_keys_perm (hr : r.Valid) : r.owners.keys.Perm (r.projects.map Project.id) :=
  (List.perm_ext_iff_of_nodup Std.ExtTreeMap.nodup_keys hr.project_keys).mpr
    fun _ => hr.mem_owners_keys

theorem Valid.projectCount_eq (hr : r.Valid) : r.projectCount = r.projects.length := by
  rw [projectCount, ← Std.ExtTreeMap.length_keys, hr.owners_keys_perm.length_eq, List.length_map]

/-- A new project gets the identifier that the projects themselves propose. -/
theorem Valid.nextProjectId?_eq (hr : r.Valid) : r.nextProjectId? =
    nextFreeId? (r.projects.map Project.id) r.projects.length.toUInt64 := by
  rw [nextProjectId?, hr.projectCount_eq, nextFreeId?_of_perm hr.owners_keys_perm]

theorem pointerCount_eq (r : Registry) : r.pointerCount = r.pointers.length := by
  rw [pointerCount, pointers, List.length_flatMap, List.sum_eq_foldl]
  rfl

end PipelineRegistry.Registry
