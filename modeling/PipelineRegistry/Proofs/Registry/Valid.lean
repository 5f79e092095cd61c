import Mathlib
import PipelineRegistry.Proofs.Listing
import PipelineRegistry.Registry.Basic

/-! # Valid registries

The rules that every registry keeps.  Identifiers are unique: those of groups and projects in the
whole registry, those of pointers in their project.  So are the names of groups and the pipelines
that pointers refer to.  Group 0 is the secured group and its first project the secured project, and
the index of owners says which group holds a project.

A change touches one group.  `Valid.replaceGroup` says what is left to check when one group takes
the place of another. -/

namespace PipelineRegistry

/-- The pointers of a project belong to it, have different identifiers, and all of these are below
the next one. -/
structure Project.Valid (p : Project) : Prop where
  pointer_keys : p.pointers.keys.Nodup
  pointer_project : ∀ q ∈ p.pointers.toList, q.projectId = p.id
  pointer_lt : ∀ q ∈ p.pointers.toList, q.id < p.nextPointerId

/-- The group bears the reserved name, and so does project 0, which comes first in it. -/
structure Group.Secured (g : Group) : Prop where
  name_eq : g.name = securedName
  first : ∃ p ps, g.projects.toList = p :: ps ∧ p.id = securedProjectId ∧ p.name = securedName

namespace Registry

/-- The pipelines that pointers refer to, in listing order. -/
def pipelines (r : Registry) : List PipelineId := r.pointers.map Pointer.pipeline

/-- The rules of a registry. -/
structure Valid (r : Registry) : Prop where
  group_keys : r.groups.keys.Nodup
  project_keys : (r.projects.map Project.id).Nodup
  group_names : (r.groups.toList.map Group.name).Nodup
  projects_valid : ∀ p ∈ r.projects, p.Valid
  pipelines_nodup : r.pipelines.Nodup
  owner_iff : ∀ p g, r.ownerOf? p = some g ↔
    ∃ group, r.group? g = some group ∧ p ∈ group.projects.keys
  secured : ∃ g, r.group? securedGroupId = some g ∧ g.Secured

variable {r : Registry} {g : GroupId} {group : Group} {p : ProjectId} {project : Project}

/-! ### Looking up -/

theorem mem_projects : project ∈ r.projects ↔
    ∃ group ∈ r.groups.toList, project ∈ group.projects.toList := List.mem_flatMap

theorem project?_eq_some (howner : r.ownerOf? p = some g) (hgroup : r.group? g = some group) :
    r.project? p = group.projects.get? p := by
  simp [project?, howner, hgroup]

namespace Valid

theorem project_keys_of_mem (hr : r.Valid) (hg : group ∈ r.groups.toList) :
    group.projects.keys.Nodup := by
  obtain ⟨A, B, hAB⟩ := List.append_of_mem hg
  have h := hr.project_keys
  simp only [projects, hAB, List.flatMap_append, List.flatMap_cons, List.map_append] at h
  exact h.of_append_right.of_append_left

theorem project_keys_of_group? (hr : r.Valid) (hg : r.group? g = some group) :
    group.projects.keys.Nodup := hr.project_keys_of_mem (Listing.mem_of_get? hg)

theorem group?_id (hr : r.Valid) (hg : group ∈ r.groups.toList) :
    r.group? group.id = some group := Listing.get?_key hr.group_keys hg

theorem ownerOf?_id (hr : r.Valid) (hg : r.group? g = some group)
    (hp : project ∈ group.projects.toList) : r.ownerOf? project.id = some g :=
  (hr.owner_iff _ _).mpr ⟨group, hg, Listing.mem_keys.mpr ⟨project, hp, rfl⟩⟩

theorem ownerOf?_of_mem_keys (hr : r.Valid) (hg : r.group? g = some group)
    (hp : p ∈ group.projects.keys) : r.ownerOf? p = some g :=
  (hr.owner_iff _ _).mpr ⟨group, hg, hp⟩

theorem not_mem_keys_of_ownerOf?_eq_none (hr : r.Valid) (hg : r.group? g = some group)
    (hp : r.ownerOf? p = none) : p ∉ group.projects.keys := by
  intro hmem
  rw [hr.ownerOf?_of_mem_keys hg hmem] at hp
  cases hp

theorem secured_of_group? (hr : r.Valid) (hg : r.group? securedGroupId = some group) :
    group.Secured := by
  obtain ⟨gr, hgr, hsec⟩ := hr.secured
  rw [hg, Option.some_inj] at hgr
  exact hgr ▸ hsec

theorem name_ne_of_splits (hr : r.Valid) {A B : List Group} {other : Group}
    (hAB : r.groups.Splits g A group B) (hother : other ∈ A ++ B) : other.name ≠ group.name := by
  intro heq
  have hnames := hr.group_names
  rw [hAB.toList_eq, List.map_append, List.map_cons, List.nodup_middle, List.nodup_cons,
    ← List.map_append] at hnames
  exact hnames.1 (heq ▸ List.mem_map_of_mem hother)

theorem ownerOf?_eq_none_iff (hr : r.Valid) :
    r.ownerOf? p = none ↔ p ∉ r.projects.map Project.id := by
  rw [List.mem_map, ← not_iff_not, not_not]
  constructor
  · intro h
    obtain ⟨g, hg⟩ := Option.ne_none_iff_exists'.mp h
    obtain ⟨group, hgroup, hp⟩ := (hr.owner_iff _ _).mp hg
    obtain ⟨project, hproject, hid⟩ := Listing.mem_keys.mp hp
    exact ⟨project, mem_projects.mpr ⟨group, Listing.mem_of_get? hgroup, hproject⟩, hid⟩
  · rintro ⟨project, hproject, rfl⟩ hnone
    obtain ⟨group, hgroup, hp⟩ := mem_projects.mp hproject
    rw [hr.ownerOf?_id (hr.group?_id hgroup) hp] at hnone
    cases hnone

/-- The group 0 and the project 0 that every registry has. -/
theorem project?_secured (hr : r.Valid) : ∃ group project ps, r.group? securedGroupId = some group ∧
    group.projects.toList = project :: ps ∧ project.id = securedProjectId ∧
    r.ownerOf? securedProjectId = some securedGroupId ∧
    r.project? securedProjectId = some project := by
  obtain ⟨group, hgroup, hsec⟩ := hr.secured
  obtain ⟨project, ps, hps, hid, -⟩ := hsec.first
  have hmem : project ∈ group.projects.toList := by rw [hps]; exact List.mem_cons_self
  have howner := hr.ownerOf?_id hgroup hmem
  rw [hid] at howner
  refine ⟨group, project, ps, hgroup, hps, hid, howner, ?_⟩
  rw [project?_eq_some howner hgroup, ← hid]
  exact Listing.get?_key (hr.project_keys_of_group? hgroup) hmem

theorem exists_securedProject (hr : r.Valid) : ∃ secured, r.project? securedProjectId = some secured := by
  obtain ⟨-, secured, -, -, -, -, -, hsecured⟩ := hr.project?_secured
  exact ⟨secured, hsecured⟩

theorem ownerOf?_securedProject (hr : r.Valid) : r.ownerOf? securedProjectId = some securedGroupId := by
  obtain ⟨-, -, -, -, -, -, howner, -⟩ := hr.project?_secured
  exact howner

/-- The secured project is in no other group. -/
theorem securedProjectId_not_mem (hr : r.Valid) (hg : r.group? g = some group)
    (hne : g ≠ securedGroupId) : securedProjectId ∉ group.projects.keys := by
  intro hmem
  have howner := hr.ownerOf?_securedProject
  rw [hr.ownerOf?_of_mem_keys hg hmem, Option.some_inj] at howner
  exact hne howner

end Valid

/-! ### Addresses -/

/-- Each group, project and pointer is found under its own identifier. -/
structure Addressed (r : Registry) : Prop where
  group : ∀ group ∈ r.groups.toList, r.group? group.id = some group
  project : ∀ project ∈ r.projects, r.project? project.id = some project
  pointer : ∀ project ∈ r.projects, ∀ q ∈ project.pointers.toList,
    r.pointer? project.id q.id = some q

theorem Valid.addressed (hr : r.Valid) : r.Addressed := by
  have hproject : ∀ project ∈ r.projects, r.project? project.id = some project := by
    intro project hproject
    obtain ⟨group, hgroup, hp⟩ := mem_projects.mp hproject
    have hid := hr.group?_id hgroup
    rw [project?_eq_some (hr.ownerOf?_id hid hp) hid]
    exact Listing.get?_key (hr.project_keys_of_mem hgroup) hp
  refine ⟨fun group hgroup => hr.group?_id hgroup, hproject, ?_⟩
  intro project hp q hq
  rw [pointer?, hproject project hp]
  exact Listing.get?_key (hr.projects_valid project hp).pointer_keys hq

/-! ### The place of a project -/

/-- Project `p` stands between `C` and `D` in group `g`, which stands between `A` and `B`. -/
structure Place (r : Registry) (g : GroupId) (A : List Group) (group : Group) (B : List Group)
    (p : ProjectId) (C : List Project) (project : Project) (D : List Project) : Prop where
  group_splits : r.groups.Splits g A group B
  project_splits : group.projects.Splits p C project D
  owner : r.ownerOf? p = some g

theorem Valid.exists_place (hr : r.Valid) (hp : r.project? p = some project) :
    ∃ g A group B C D, r.Place g A group B p C project D := by
  cases howner : r.ownerOf? p with
  | none => simp [project?, howner] at hp
  | some g =>
      obtain ⟨group, hgroup, -⟩ := (hr.owner_iff _ _).mp howner
      rw [project?_eq_some howner hgroup] at hp
      obtain ⟨A, B, hAB⟩ := Listing.exists_splits hr.group_keys hgroup
      obtain ⟨C, D, hCD⟩ := Listing.exists_splits (hr.project_keys_of_group? hgroup) hp
      exact ⟨g, A, group, B, C, D, hAB, hCD, howner⟩

theorem Valid.exists_place_of_owner (hr : r.Valid) (howner : r.ownerOf? p = some g)
    (hp : r.project? p = some project) : ∃ A group B C D, r.Place g A group B p C project D := by
  obtain ⟨g', A, group, B, C, D, hplace⟩ := hr.exists_place hp
  obtain rfl : g' = g := Option.some_inj.mp (hplace.owner.symm.trans howner)
  exact ⟨A, group, B, C, D, hplace⟩

/-- All projects of some groups. -/
def projectsOf (gs : List Group) : List Project := gs.flatMap fun g => g.projects.toList

/-- All pointers of some projects. -/
def pointersOf (ps : List Project) : List Pointer := ps.flatMap fun p => p.pointers.toList

@[simp] theorem projectsOf_append (gs hs : List Group) :
    projectsOf (gs ++ hs) = projectsOf gs ++ projectsOf hs := List.flatMap_append

@[simp] theorem projectsOf_cons (g : Group) (gs : List Group) :
    projectsOf (g :: gs) = g.projects.toList ++ projectsOf gs := List.flatMap_cons

@[simp] theorem pointersOf_append (ps qs : List Project) :
    pointersOf (ps ++ qs) = pointersOf ps ++ pointersOf qs := List.flatMap_append

@[simp] theorem pointersOf_cons (p : Project) (ps : List Project) :
    pointersOf (p :: ps) = p.pointers.toList ++ pointersOf ps := List.flatMap_cons

theorem projects_eq (r : Registry) : r.projects = projectsOf r.groups.toList := rfl

theorem pointers_eq (r : Registry) : r.pointers = pointersOf (projectsOf r.groups.toList) := rfl

namespace Place

variable {A B : List Group} {C D : List Project}

theorem group?_eq (h : r.Place g A group B p C project D) : r.group? g = some group :=
  h.group_splits.get?_eq

theorem bind_owner (h : r.Place g A group B p C project D) :
    (r.ownerOf? p).bind r.group? = some group := by
  rw [h.owner, Option.bind_some, h.group?_eq]

theorem modifyProject_eq (h : r.Place g A group B p C project D) (f : Project → Project) :
    r.modifyProject p f =
      r.modifyGroup g fun group => { group with projects := group.projects.modify p f } := by
  simp only [modifyProject, h.owner]

theorem toList_modifyProject (h : r.Place g A group B p C project D) (f : Project → Project) :
    (r.modifyProject p f).groups.toList =
      A ++ { group with projects := ⟨C ++ f project :: D⟩ } :: B := by
  rw [h.modifyProject_eq, modifyGroup, h.group_splits.toList_modify,
    ← h.project_splits.toList_modify f]

theorem toList_eraseProject (h : r.Place g A group B p C project D) :
    (r.eraseProject g p).groups.toList = A ++ { group with projects := ⟨C ++ D⟩ } :: B := by
  simp only [eraseProject]
  rw [h.group_splits.toList_modify, ← h.project_splits.toList_erase]

theorem projects_eq (h : r.Place g A group B p C project D) :
    r.projects = projectsOf A ++ (C ++ project :: D) ++ projectsOf B := by
  rw [Registry.projects_eq, h.group_splits.toList_eq, projectsOf_append, projectsOf_cons,
    h.project_splits.toList_eq]
  simp only [List.append_assoc]

theorem pointers_eq (h : r.Place g A group B p C project D) : r.pointers =
    pointersOf (projectsOf A ++ C) ++ project.pointers.toList ++ pointersOf (D ++ projectsOf B) := by
  rw [Registry.pointers_eq, ← Registry.projects_eq, h.projects_eq]
  simp

theorem pointers_modifyProject (h : r.Place g A group B p C project D) (f : Project → Project) :
    (r.modifyProject p f).pointers = pointersOf (projectsOf A ++ C) ++
      (f project).pointers.toList ++ pointersOf (D ++ projectsOf B) := by
  rw [Registry.pointers_eq, h.toList_modifyProject]
  simp

theorem pointers_eraseProject (h : r.Place g A group B p C project D) :
    (r.eraseProject g p).pointers = pointersOf (projectsOf A ++ C) ++
      pointersOf (D ++ projectsOf B) := by
  rw [Registry.pointers_eq, h.toList_eraseProject]
  simp

end Place

/-! ### Putting a group in the place of another -/

theorem projectsOf_perm_middle (A : List Group) (group : Group) (B : List Group) :
    (projectsOf (A ++ group :: B)).Perm (group.projects.toList ++ projectsOf (A ++ B)) :=
  List.Perm.flatMap_right (fun g : Group => g.projects.toList) List.perm_middle

/-- Where identifiers of projects differ, a project of one group is in no other. -/
theorem not_mem_keys_of_mem {A B : List Group} {other : Group}
    (hkeys : ((projectsOf (A ++ group :: B)).map Project.id).Nodup) (hother : other ∈ A ++ B)
    (hp : p ∈ group.projects.keys) : p ∉ other.projects.keys := by
  intro hp'
  have hnodup := ((projectsOf_perm_middle A group B).map Project.id).nodup_iff.mp hkeys
  rw [List.map_append] at hnodup
  obtain ⟨project, hproject, rfl⟩ := Listing.mem_keys.mp hp
  obtain ⟨project', hproject', hid⟩ := Listing.mem_keys.mp hp'
  have hid : project'.id = project.id := hid
  refine List.disjoint_of_nodup_append hnodup (List.mem_map_of_mem hproject) ?_
  exact hid ▸ List.mem_map_of_mem (List.mem_flatMap.mpr ⟨other, hother, hproject'⟩)

theorem Valid.owner_iff_mem (hr : r.Valid) : r.ownerOf? p = some g ↔
    ∃ group ∈ r.groups.toList, group.id = g ∧ p ∈ group.projects.keys := by
  rw [hr.owner_iff]
  constructor
  · rintro ⟨group, hgroup, hp⟩
    exact ⟨group, Listing.mem_of_get? hgroup, Listing.key_of_get? hgroup, hp⟩
  · rintro ⟨group, hgroup, rfl, hp⟩
    exact ⟨group, hr.group?_id hgroup, hp⟩

section replaceGroup

variable {A B : List Group} {r' : Registry} {group' : Group} {h : GroupId}

theorem group?_eq_some_iff (hgroups : r.groups.keys.Nodup)
    (hlist : r.groups.toList = A ++ group :: B) {other : Group} :
    r.group? h = some other ↔ (other = group ∨ other ∈ A ++ B) ∧ other.id = h := by
  rw [group?, Listing.get?_eq_some_iff hgroups, hlist, List.perm_middle.mem_iff, List.mem_cons]
  rfl

/-- A project of the group in the middle is in this group only. -/
theorem exists_group?_iff_of_mem (hgroups : r.groups.keys.Nodup)
    (hlist : r.groups.toList = A ++ group :: B) (hkeys : (r.projects.map Project.id).Nodup)
    (hp : p ∈ group.projects.keys) :
    (∃ x, r.group? h = some x ∧ p ∈ x.projects.keys) ↔ group.id = h := by
  simp only [group?_eq_some_iff hgroups hlist]
  rw [Registry.projects_eq, hlist] at hkeys
  constructor
  · rintro ⟨x, ⟨rfl | hx, hid⟩, hp'⟩
    · exact hid
    · exact absurd hp' (not_mem_keys_of_mem hkeys hx hp)
  · intro hid
    exact ⟨group, ⟨.inl rfl, hid⟩, hp⟩

/-- A project that is not in the group in the middle is in one of the others, if it is in any. -/
theorem exists_group?_iff_of_not_mem (hgroups : r.groups.keys.Nodup)
    (hlist : r.groups.toList = A ++ group :: B) (hp : p ∉ group.projects.keys) :
    (∃ x, r.group? h = some x ∧ p ∈ x.projects.keys) ↔
      ∃ x ∈ A ++ B, x.id = h ∧ p ∈ x.projects.keys := by
  simp only [group?_eq_some_iff hgroups hlist]
  constructor
  · rintro ⟨x, ⟨rfl | hx, hid⟩, hp'⟩
    · exact absurd hp' hp
    · exact ⟨x, hx, hid, hp'⟩
  · rintro ⟨x, hx, hid, hp'⟩
    exact ⟨x, ⟨.inr hx, hid⟩, hp'⟩

/-- The index of owners of the registry with another group in the middle is right if it follows. -/
theorem Valid.owner_iff_replaceGroup (hr : r.Valid) (hlist₀ : r.groups.toList = A ++ group :: B)
    (hgroups : r'.groups.keys.Nodup) (hlist : r'.groups.toList = A ++ group' :: B)
    (hkeys : (r'.projects.map Project.id).Nodup)
    (howner : ∀ p, r'.ownerOf? p = if p ∈ group'.projects.keys then some group'.id
      else if p ∈ group.projects.keys then none else r.ownerOf? p) (p : ProjectId) (h : GroupId) :
    r'.ownerOf? p = some h ↔ ∃ x, r'.group? h = some x ∧ p ∈ x.projects.keys := by
  rw [howner]
  split
  · rename_i hp
    rw [exists_group?_iff_of_mem hgroups hlist hkeys hp, Option.some_inj]
  · rename_i hp
    rw [exists_group?_iff_of_not_mem hgroups hlist hp]
    split
    · -- `p` was in the former group, hence in no other
      rename_i hp₀
      have hkeys₀ := hr.project_keys
      rw [Registry.projects_eq, hlist₀] at hkeys₀
      refine ⟨nofun, ?_⟩
      rintro ⟨x, hx, -, hp'⟩
      exact absurd hp' (not_mem_keys_of_mem hkeys₀ hx hp₀)
    · rename_i hp₀
      rw [hr.owner_iff, exists_group?_iff_of_not_mem hr.group_keys hlist₀ hp₀]

/-- The secured group is the one in the middle or one of the others. -/
theorem Valid.secured_replaceGroup (hr : r.Valid) (hlist₀ : r.groups.toList = A ++ group :: B)
    (hgroups : r'.groups.keys.Nodup) (hlist : r'.groups.toList = A ++ group' :: B)
    (hid : group'.id = group.id) (hsecured : group.id = securedGroupId → group'.Secured) :
    ∃ x, r'.group? securedGroupId = some x ∧ x.Secured := by
  obtain ⟨x, hx, hsec⟩ := hr.secured
  obtain ⟨rfl | hmem, hkey⟩ := (group?_eq_some_iff hr.group_keys hlist₀).mp hx
  · exact ⟨group', (group?_eq_some_iff hgroups hlist).mpr ⟨.inl rfl, hid.trans hkey⟩, hsecured hkey⟩
  · exact ⟨x, (group?_eq_some_iff hgroups hlist).mpr ⟨.inr hmem, hkey⟩, hsec⟩

/-- The names of groups remain different if the new one is none of the others. -/
theorem Valid.group_names_replaceGroup (hr : r.Valid) (hlist₀ : r.groups.toList = A ++ group :: B)
    (hlist : r'.groups.toList = A ++ group' :: B)
    (hname : ∀ other ∈ A ++ B, other.name ≠ group'.name) :
    (r'.groups.toList.map Group.name).Nodup := by
  have hnames := hr.group_names
  rw [hlist₀, List.map_append, List.map_cons, List.nodup_middle, List.nodup_cons,
    ← List.map_append] at hnames
  rw [hlist, List.map_append, List.map_cons, List.nodup_middle, List.nodup_cons,
    ← List.map_append]
  refine ⟨?_, hnames.2⟩
  intro hmem
  obtain ⟨other, hother, heq⟩ := List.mem_map.mp hmem
  exact hname other hother heq

/-- A registry stays valid when `group'` takes the place of group `g` and the index of owners
follows, as long as names, projects and pipelines remain different. -/
theorem Valid.replaceGroup (hr : r.Valid) (hAB : r.groups.Splits g A group B)
    (hlist : r'.groups.toList = A ++ group' :: B) (hid : group'.id = g)
    (hname : ∀ other ∈ A ++ B, other.name ≠ group'.name)
    (hprojects : ∀ p ∈ group'.projects.toList, p.Valid)
    (hkeys : (r'.projects.map Project.id).Nodup) (hpipelines : r'.pipelines.Nodup)
    (howner : ∀ p, r'.ownerOf? p = if p ∈ group'.projects.keys then some g
      else if p ∈ group.projects.keys then none else r.ownerOf? p)
    (hsecured : g = securedGroupId → group'.Secured) : r'.Valid := by
  obtain rfl : group.id = g := hAB.key_eq
  have hlist₀ := hAB.toList_eq
  have hgroups : r'.groups.keys = r.groups.keys := by
    simp only [Listing.keys, hlist, hlist₀, List.map_append, List.map_cons]
    exact congrArg (fun k => _ ++ k :: _) hid
  have hgroup_keys : r'.groups.keys.Nodup := hgroups ▸ hr.group_keys
  constructor
  case group_keys => exact hgroup_keys
  case project_keys => exact hkeys
  case group_names => exact hr.group_names_replaceGroup hlist₀ hlist hname
  case projects_valid =>
    intro q hq
    obtain ⟨other, hother, hq⟩ := mem_projects.mp hq
    rw [hlist, List.perm_middle.mem_iff, List.mem_cons] at hother
    rcases hother with rfl | hother
    · exact hprojects q hq
    · refine hr.projects_valid q (mem_projects.mpr ⟨other, ?_, hq⟩)
      rw [hlist₀, List.perm_middle.mem_iff]
      exact List.mem_cons_of_mem _ hother
  case pipelines_nodup => exact hpipelines
  case owner_iff =>
    rw [← hid] at howner
    exact hr.owner_iff_replaceGroup hlist₀ hgroup_keys hlist hkeys howner
  case secured => exact hr.secured_replaceGroup hlist₀ hgroup_keys hlist hid hsecured

end replaceGroup

end Registry
end PipelineRegistry
