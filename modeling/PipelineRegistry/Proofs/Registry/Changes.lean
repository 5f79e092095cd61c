import Mathlib
import PipelineRegistry.Proofs.Registry.Ids
import PipelineRegistry.Proofs.Registry.Valid

/-! # Changes that keep a registry valid

Every operation is put together from six changes: listing a group or project, taking one out, and
changing one in its place.  For each of them: what it does to the index of owners and to the
pipelines, and what keeps the registry valid. -/

namespace PipelineRegistry.Registry

variable {r : Registry} {g : GroupId} {group : Group} {p : ProjectId} {project : Project}

/-! ### The index of owners -/

/-- A new project has no owner yet. -/
theorem ownerOf?_of_nextProjectId? (h : r.nextProjectId? = some p) : r.ownerOf? p = none := by
  refine Std.ExtTreeMap.getElem?_eq_none ?_
  rw [← Std.ExtTreeMap.mem_keys]
  exact not_mem_of_nextFreeId? h

theorem ownerOf?_insertProject (r : Registry) (g : GroupId) (project : Project) (p : ProjectId) :
    (r.insertProject g project).ownerOf? p = if project.id = p then some g else r.ownerOf? p := by
  simp [ownerOf?, insertProject, Std.ExtTreeMap.getElem?_insert]

theorem ownerOf?_eraseProject (r : Registry) (g : GroupId) (p q : ProjectId) :
    (r.eraseProject g p).ownerOf? q = if p = q then none else r.ownerOf? q := by
  simp [ownerOf?, eraseProject, Std.ExtTreeMap.getElem?_erase]

@[simp] theorem ownerOf?_modifyGroup (r : Registry) (g : GroupId) (f : Group → Group)
    (p : ProjectId) : (r.modifyGroup g f).ownerOf? p = r.ownerOf? p := rfl

@[simp] theorem ownerOf?_modifyProject (r : Registry) (p : ProjectId) (f : Project → Project)
    (q : ProjectId) : (r.modifyProject p f).ownerOf? q = r.ownerOf? q := by
  unfold modifyProject
  split <;> rfl

theorem getElem?_foldl_insert (ids : List ProjectId) (g : GroupId)
    (owners : Std.ExtTreeMap ProjectId GroupId) (p : ProjectId) :
    (ids.foldl (fun owners q => owners.insert q g) owners)[p]? =
      if p ∈ ids then some g else owners[p]? := by
  induction ids generalizing owners with
  | nil => simp
  | cons id ids ih =>
      rw [List.foldl_cons, ih, Std.ExtTreeMap.getElem?_insert]
      simp only [Std.compare_eq_iff_eq, List.mem_cons]
      split_ifs <;> grind

theorem getElem?_foldl_erase (ids : List ProjectId) (owners : Std.ExtTreeMap ProjectId GroupId)
    (p : ProjectId) : (ids.foldl (fun owners q => owners.erase q) owners)[p]? =
      if p ∈ ids then none else owners[p]? := by
  induction ids generalizing owners with
  | nil => simp
  | cons id ids ih =>
      rw [List.foldl_cons, ih, Std.ExtTreeMap.getElem?_erase]
      simp only [Std.compare_eq_iff_eq, List.mem_cons]
      split_ifs <;> grind

theorem ownerOf?_insertGroup (r : Registry) (group : Group) (p : ProjectId) :
    (r.insertGroup group).ownerOf? p =
      if p ∈ group.projects.keys then some group.id else r.ownerOf? p :=
  getElem?_foldl_insert _ _ _ _

theorem ownerOf?_eraseGroup (r : Registry) (group : Group) (p : ProjectId) :
    (r.eraseGroup group).ownerOf? p = if p ∈ group.projects.keys then none else r.ownerOf? p :=
  getElem?_foldl_erase _ _ _

/-! ### Changing a group or project in its place -/

theorem projects_modifyGroup (hr : r.Valid) (hgroup : r.group? g = some group) {f : Group → Group}
    (hprojects : (f group).projects = group.projects) :
    (r.modifyGroup g f).projects = r.projects := by
  obtain ⟨A, B, hAB⟩ := Listing.exists_splits hr.group_keys hgroup
  have hlist : (r.modifyGroup g f).groups.toList = A ++ f group :: B := hAB.toList_modify f
  simp only [projects_eq, hlist, hAB.toList_eq, projectsOf_append, projectsOf_cons, hprojects]

/-- A group may get another name that no other group has, and anything else but projects. -/
theorem Valid.modifyGroup (hr : r.Valid) (hgroup : r.group? g = some group) (f : Group → Group)
    (hid : (f group).id = group.id) (hprojects : (f group).projects = group.projects)
    (hname : ∀ other ∈ r.groups.toList, other.id ≠ g → other.name ≠ (f group).name)
    (hsecured : g = securedGroupId → (f group).name = securedName) :
    (r.modifyGroup g f).Valid := by
  obtain ⟨A, B, hAB⟩ := Listing.exists_splits hr.group_keys hgroup
  have hlist : (r.modifyGroup g f).groups.toList = A ++ f group :: B := hAB.toList_modify f
  have hall := projects_modifyGroup hr hgroup hprojects
  have hpipelines : (r.modifyGroup g f).pipelines = r.pipelines := by
    simp only [pipelines, pointers, hall]
  refine hr.replaceGroup hAB hlist (hid.trans hAB.key_eq) ?_ ?_ (hall ▸ hr.project_keys)
    (hpipelines ▸ hr.pipelines_nodup) ?_ ?_
  · intro other hother
    have hne : other.id ≠ g := by
      rcases List.mem_append.mp hother with h | h
      · exact hAB.before_ne other h
      · exact hAB.behind_ne other h
    have hmem : other ∈ r.groups.toList := by
      rw [hAB.toList_eq, List.perm_middle.mem_iff]
      exact List.mem_cons_of_mem _ hother
    exact hname other hmem hne
  · intro q hq
    rw [hprojects] at hq
    exact hr.projects_valid q (mem_projects.mpr ⟨group, hAB.mem, hq⟩)
  · intro q
    rw [ownerOf?_modifyGroup, hprojects]
    split
    · rename_i hq
      exact hr.ownerOf?_of_mem_keys hgroup hq
    · rfl
  · intro hg
    have hsec := hr.secured_of_group? (hg ▸ hgroup)
    exact ⟨hsecured hg, hprojects ▸ hsec.first⟩

/-- A project may be changed into another valid one under the same identifier, as long as the
secured project keeps its name and no pipeline comes to stand twice. -/
theorem Valid.modifyProject (hr : r.Valid) (hproject : r.project? p = some project)
    (f : Project → Project) (hid : (f project).id = project.id) (hvalid : (f project).Valid)
    (hname : p = securedProjectId → (f project).name = project.name)
    (hpipelines : (r.modifyProject p f).pipelines.Nodup) : (r.modifyProject p f).Valid := by
  obtain ⟨g, A, group, B, C, D, hplace⟩ := hr.exists_place hproject
  have hlist := hplace.toList_modifyProject f
  have hgroup := hplace.group_splits.mem
  have hkey : project.id = p := hplace.project_splits.key_eq
  have hkeys : (⟨C ++ f project :: D⟩ : Listing Project).keys = group.projects.keys := by
    simp only [Listing.keys, hplace.project_splits.toList_eq, List.map_append, List.map_cons]
    exact congrArg (fun k => _ ++ k :: _) hid
  refine hr.replaceGroup hplace.group_splits hlist hplace.group_splits.key_eq ?_ ?_ ?_ hpipelines
    ?_ ?_
  · intro other hother heq
    exact hr.name_ne_of_splits hplace.group_splits hother heq
  · intro q hq
    rcases List.mem_cons.mp (List.perm_middle.mem_iff.mp hq) with rfl | hq
    · exact hvalid
    · refine hr.projects_valid q (mem_projects.mpr ⟨group, hgroup, ?_⟩)
      rw [hplace.project_splits.toList_eq, List.perm_middle.mem_iff]
      exact List.mem_cons_of_mem _ hq
  · have hall := hr.project_keys
    rw [hplace.projects_eq] at hall
    rw [projects_eq, hlist]
    simpa [hid] using hall
  · intro q
    rw [ownerOf?_modifyProject, hkeys]
    split
    · rename_i hq
      exact hr.ownerOf?_of_mem_keys hplace.group?_eq hq
    · rfl
  · intro hg
    have hsec := hr.secured_of_group? (hg ▸ hplace.group?_eq)
    obtain ⟨q, qs, hqs, hqid, hqname⟩ := hsec.first
    refine ⟨hsec.name_eq, ?_⟩
    rw [hplace.project_splits.toList_eq] at hqs
    cases C with
    | nil =>
        obtain ⟨rfl, rfl⟩ := List.cons.inj hqs
        exact ⟨f project, D, rfl, hid.trans hqid, (hname (hkey.symm.trans hqid)).trans hqname⟩
    | cons c C =>
        obtain ⟨rfl, -⟩ := List.cons.inj hqs
        exact ⟨c, C ++ f project :: D, rfl, hqid, hqname⟩

/-- What comes to a project and what leaves it comes to the registry and leaves it. -/
theorem map_pointers_modifyProject {α : Type} (view : Pointer → α) (hr : r.Valid)
    (hproject : r.project? p = some project) (f : Project → Project) (added removed : List α)
    (hchange : ((f project).pointers.toList.map view ++ removed).Perm
      (project.pointers.toList.map view ++ added)) :
    ((r.modifyProject p f).pointers.map view ++ removed).Perm (r.pointers.map view ++ added) := by
  obtain ⟨g, A, group, B, C, D, hplace⟩ := hr.exists_place hproject
  rw [hplace.pointers_modifyProject, hplace.pointers_eq]
  simp only [List.map_append, List.append_assoc]
  refine List.Perm.append_left _ ?_
  -- what stands behind the project is moved to the end, and back
  have hswap : ∀ xs ys zs : List α, (xs ++ (ys ++ zs)).Perm (xs ++ zs ++ ys) := by
    intro xs ys zs
    rw [List.append_assoc]
    exact List.Perm.append_left _ List.perm_append_comm
  exact (hswap _ _ _).trans ((hchange.append_right _).trans (hswap _ _ _).symm)

/-- Appending pointers to a project appends their pipelines. -/
theorem pipelines_modifyProject (hr : r.Valid) (hproject : r.project? p = some project)
    {f : Project → Project} {new : List PipelineId}
    (hnew : (f project).pointers.toList.map Pointer.pipeline =
      project.pointers.toList.map Pointer.pipeline ++ new) :
    (r.modifyProject p f).pipelines.Perm (r.pipelines ++ new) := by
  have hchange := map_pointers_modifyProject Pointer.pipeline hr hproject f new []
    (by rw [List.append_nil, hnew])
  rwa [List.append_nil] at hchange

/-- Taking pointers out of a project takes their pipelines out. -/
theorem pipelines_modifyProject_sublist (hr : r.Valid) (hproject : r.project? p = some project)
    {f : Project → Project} (hsub : ((f project).pointers.toList.map Pointer.pipeline).Sublist
      (project.pointers.toList.map Pointer.pipeline)) :
    (r.modifyProject p f).pipelines.Sublist r.pipelines := by
  obtain ⟨g, A, group, B, C, D, hplace⟩ := hr.exists_place hproject
  rw [pipelines, pipelines, hplace.pointers_modifyProject, hplace.pointers_eq]
  simp only [List.map_append]
  exact (hsub.append_left _).append_right _

/-! ### Listing and taking out a project -/

theorem group?_insertProject (hgroup : r.group? g = some group) (project : Project) :
    (r.insertProject g project).group? g =
      some { group with projects := group.projects.insert project } := by
  have hget := Listing.get?_modify (l := r.groups) (k := g)
    (f := fun group => { group with projects := group.projects.insert project })
    (fun _ => id) g
  rw [if_pos rfl] at hget
  change (r.insertProject g project).group? g = _ at hget
  rw [hget, show r.groups.get? g = some group from hgroup]
  rfl

theorem toList_insertProject {A B : List Group} (hAB : r.groups.Splits g A group B)
    (hp : project.id ∉ group.projects.keys) : (r.insertProject g project).groups.toList =
      A ++ { group with projects := ⟨group.projects.toList ++ [project]⟩ } :: B := by
  simp only [insertProject]
  rw [hAB.toList_modify, ← Listing.toList_insert hp]

/-- Projects that are new to a group go to its end, one after the other. -/
theorem toList_foldl_insertProject {A B : List Group} (hAB : r.groups.Splits g A group B)
    (ps : List Project) (hkeys : ((group.projects.toList ++ ps).map Project.id).Nodup) :
    (ps.foldl (fun r p => r.insertProject g p) r).groups.toList =
      A ++ { group with projects := ⟨group.projects.toList ++ ps⟩ } :: B := by
  induction ps generalizing r group with
  | nil =>
      rw [List.append_nil]
      exact hAB.toList_eq
  | cons p ps ih =>
      have hp : p.id ∉ group.projects.keys := by
        rw [List.map_append, List.map_cons, List.nodup_middle, List.nodup_cons,
          List.mem_append, not_or] at hkeys
        exact hkeys.1.1
      have hAB' : (r.insertProject g p).groups.Splits g A
          { group with projects := ⟨group.projects.toList ++ [p]⟩ } B :=
        ⟨toList_insertProject hAB hp, hAB.key_eq, hAB.before_ne, hAB.behind_ne⟩
      have happend := List.append_cons group.projects.toList p ps
      rw [happend] at hkeys ⊢
      exact ih hAB' hkeys

/-- Listing a project adds it to all projects. -/
theorem projects_insertProject (hr : r.Valid) (hgroup : r.group? g = some group)
    (project : Project) (hp : project.id ∉ group.projects.keys) :
    (r.insertProject g project).projects.Perm (project :: r.projects) := by
  obtain ⟨A, B, hAB⟩ := Listing.exists_splits hr.group_keys hgroup
  rw [projects_eq, projects_eq, toList_insertProject hAB hp, hAB.toList_eq]
  simp only [projectsOf_append, projectsOf_cons, List.append_assoc]
  rw [← List.append_assoc (projectsOf A), ← List.append_assoc (projectsOf A)]
  exact List.perm_middle

/-- Listing a project adds its pointers. -/
theorem pointers_insertProject (hr : r.Valid) (hgroup : r.group? g = some group)
    (project : Project) (hp : project.id ∉ group.projects.keys) :
    (r.insertProject g project).pointers.Perm (r.pointers ++ project.pointers.toList) := by
  obtain ⟨A, B, hAB⟩ := Listing.exists_splits hr.group_keys hgroup
  rw [pointers_eq, pointers_eq, toList_insertProject hAB hp, hAB.toList_eq]
  simp only [projectsOf_append, projectsOf_cons, pointersOf_append, pointersOf_cons,
    List.append_assoc]
  refine List.Perm.append_left _ (List.Perm.append_left _ ?_)
  simpa [pointersOf] using List.perm_append_comm

theorem pipelines_insertProject (hr : r.Valid) (hgroup : r.group? g = some group)
    (hp : project.id ∉ group.projects.keys) : (r.insertProject g project).pipelines.Perm
      (r.pipelines ++ project.pointers.toList.map Pointer.pipeline) := by
  rw [pipelines, pipelines, ← List.map_append]
  exact (pointers_insertProject hr hgroup _ hp).map _

/-- A valid project that is in no group may be listed, if its pipelines are new. -/
theorem Valid.insertProject (hr : r.Valid) (hgroup : r.group? g = some group)
    (hp : r.ownerOf? project.id = none) (hvalid : project.Valid)
    (hpipelines : (r.pipelines ++ project.pointers.toList.map Pointer.pipeline).Nodup) :
    (r.insertProject g project).Valid := by
  obtain ⟨A, B, hAB⟩ := Listing.exists_splits hr.group_keys hgroup
  have hnotin : project.id ∉ r.projects.map Project.id := hr.ownerOf?_eq_none_iff.mp hp
  have hnotin' : project.id ∉ group.projects.keys := hr.not_mem_keys_of_ownerOf?_eq_none hgroup hp
  have hlist := toList_insertProject hAB hnotin'
  have hkeys : (⟨group.projects.toList ++ [project]⟩ : Listing Project).keys =
      group.projects.keys ++ [project.id] := by
    simp only [Listing.keys, List.map_append]
    rfl
  refine hr.replaceGroup hAB hlist hAB.key_eq ?_ ?_ ?_
    ((pipelines_insertProject hr hgroup hnotin').nodup_iff.mpr hpipelines) ?_ ?_
  · intro other hother heq
    exact hr.name_ne_of_splits hAB hother heq
  · intro q hq
    rcases List.mem_append.mp hq with hq | hq
    · exact hr.projects_valid q (mem_projects.mpr ⟨group, hAB.mem, hq⟩)
    · rw [List.mem_singleton.mp hq]
      exact hvalid
  · rw [((projects_insertProject hr hgroup project hnotin').map Project.id).nodup_iff, List.map_cons, List.nodup_cons]
    exact ⟨hnotin, hr.project_keys⟩
  · intro q
    rw [ownerOf?_insertProject, hkeys]
    simp only [List.mem_append, List.mem_singleton]
    by_cases hq : project.id = q
    · rw [if_pos hq, if_pos (.inr hq.symm)]
    · rw [if_neg hq]
      split
      · rename_i hmem
        exact hr.ownerOf?_of_mem_keys hgroup (hmem.resolve_right (Ne.symm hq))
      · rename_i hmem
        rw [if_neg fun h => hmem (.inl h)]
  · intro hg
    have hsec := hr.secured_of_group? (hg ▸ hgroup)
    obtain ⟨q, qs, hqs, hq⟩ := hsec.first
    exact ⟨hsec.name_eq, q, qs ++ [project], by simp [hqs], hq⟩

/-- Taking a project out takes its pointers out. -/
theorem pointers_eraseProject {A B : List Group} {C D : List Project}
    (hplace : r.Place g A group B p C project D) :
    r.pointers.Perm ((r.eraseProject g p).pointers ++ project.pointers.toList) := by
  rw [hplace.pointers_eraseProject, hplace.pointers_eq, List.append_assoc, List.append_assoc]
  exact List.Perm.append_left _ List.perm_append_comm

/-- Every project but the secured one may be taken out. -/
theorem Valid.eraseProject (hr : r.Valid) {A B : List Group} {C D : List Project}
    (hplace : r.Place g A group B p C project D) (hp : p ≠ securedProjectId) :
    (r.eraseProject g p).Valid := by
  have hlist := hplace.toList_eraseProject
  have hkeys : (⟨C ++ D⟩ : Listing Project).keys = (group.projects.erase p).keys := by
    rw [Listing.keys, Listing.keys, hplace.project_splits.toList_erase]
  have hsub : (C ++ D).Sublist group.projects.toList := by
    rw [hplace.project_splits.toList_eq]
    exact (List.sublist_cons_self _ _).append_left C
  refine hr.replaceGroup hplace.group_splits hlist hplace.group_splits.key_eq ?_ ?_ ?_ ?_ ?_ ?_
  · intro other hother heq
    exact hr.name_ne_of_splits hplace.group_splits hother heq
  · intro q hq
    exact hr.projects_valid q
      (mem_projects.mpr ⟨group, hplace.group_splits.mem, hsub.subset hq⟩)
  · refine (List.Sublist.map _ ?_).nodup hr.project_keys
    rw [projects_eq, hlist, hplace.projects_eq, projectsOf_append, projectsOf_cons,
      ← List.append_assoc]
    exact (((List.sublist_cons_self _ _).append_left C).append_left _).append_right _
  · refine (List.Sublist.map _ ?_).nodup hr.pipelines_nodup
    rw [hplace.pointers_eraseProject, hplace.pointers_eq]
    exact (List.sublist_append_left _ _).append_right _
  · intro q
    rw [ownerOf?_eraseProject, hkeys]
    simp only [Listing.mem_keys_erase]
    by_cases hq : p = q
    · subst hq
      have hmem : p ∈ group.projects.keys :=
        Listing.mem_keys.mpr ⟨project, hplace.project_splits.mem, hplace.project_splits.key_eq⟩
      rw [if_pos rfl, if_neg (by simp), if_pos hmem]
    · rw [if_neg hq]
      split
      · rename_i hmem
        exact hr.ownerOf?_of_mem_keys hplace.group?_eq hmem.1
      · rename_i hmem
        rw [if_neg fun h => hmem ⟨h, Ne.symm hq⟩]
  · intro hg
    have hsec := hr.secured_of_group? (hg ▸ hplace.group?_eq)
    obtain ⟨q, qs, hqs, hqid, hqname⟩ := hsec.first
    refine ⟨hsec.name_eq, ?_⟩
    rw [hplace.project_splits.toList_eq] at hqs
    cases C with
    | nil =>
        obtain ⟨rfl, -⟩ := List.cons.inj hqs
        exact absurd (hplace.project_splits.key_eq.symm.trans hqid) hp
    | cons c C =>
        obtain ⟨rfl, -⟩ := List.cons.inj hqs
        exact ⟨c, C ++ D, rfl, hqid, hqname⟩

/-! ### Listing and taking out a group -/

/-- Projects that are in no group may be listed one after the other; their pointers are added. -/
theorem Valid.foldl_insertProject (hr : r.Valid) (hgroup : r.group? g = some group)
    (ps : List Project) (howner : ∀ p ∈ ps, r.ownerOf? p.id = none)
    (hkeys : (ps.map Project.id).Nodup) (hvalid : ∀ p ∈ ps, p.Valid)
    (hpipelines : (r.pipelines ++ (pointersOf ps).map Pointer.pipeline).Nodup) :
    (ps.foldl (fun r p => r.insertProject g p) r).Valid ∧
      (ps.foldl (fun r p => r.insertProject g p) r).pointers.Perm (r.pointers ++ pointersOf ps) := by
  induction ps generalizing r group with
  | nil => exact ⟨hr, by simp [pointersOf]⟩
  | cons p ps ih =>
      rw [pointersOf_cons, List.map_append, ← List.append_assoc] at hpipelines
      rw [List.map_cons, List.nodup_cons] at hkeys
      have hp : p.id ∉ group.projects.keys :=
        hr.not_mem_keys_of_ownerOf?_eq_none hgroup (howner p List.mem_cons_self)
      have hrest := ih (hr.insertProject hgroup (howner p List.mem_cons_self)
        (hvalid p List.mem_cons_self) hpipelines.of_append_left) (group?_insertProject hgroup p)
        ?_ hkeys.2 (fun q hq => hvalid q (List.mem_cons_of_mem _ hq)) ?_
      · refine ⟨hrest.1, hrest.2.trans ?_⟩
        rw [pointersOf_cons, ← List.append_assoc]
        exact (pointers_insertProject hr hgroup _ hp).append_right _
      · intro q hq
        rw [ownerOf?_insertProject, if_neg]
        · exact howner q (List.mem_cons_of_mem _ hq)
        · intro heq
          exact hkeys.1 (heq ▸ List.mem_map_of_mem hq)
      · exact ((pipelines_insertProject hr hgroup hp).append_right _).nodup_iff.mpr hpipelines

theorem toList_insertGroup (hid : group.id ∉ r.groups.keys) :
    (r.insertGroup group).groups.toList = r.groups.toList ++ [group] := Listing.toList_insert hid

theorem projects_insertGroup (hid : group.id ∉ r.groups.keys)
    (hempty : group.projects.toList = []) : (r.insertGroup group).projects = r.projects := by
  rw [projects_eq, projects_eq, toList_insertGroup hid]
  simp [projectsOf, hempty]

theorem group?_insertGroup (r : Registry) (group : Group) (h : GroupId) :
    (r.insertGroup group).group? h = if h = group.id then some group else r.group? h :=
  Listing.get?_insert _ _

/-- A group without projects owns none. -/
theorem Valid.owner_iff_insertGroup (hr : r.Valid) (hid : group.id ∉ r.groups.keys)
    (hempty : group.projects.toList = []) (p : ProjectId) (h : GroupId) :
    (r.insertGroup group).ownerOf? p = some h ↔
      ∃ x, (r.insertGroup group).group? h = some x ∧ p ∈ x.projects.keys := by
  have hkeys : group.projects.keys = [] := by simp [Listing.keys, hempty]
  rw [ownerOf?_insertGroup, hkeys, if_neg List.not_mem_nil, hr.owner_iff, group?_insertGroup]
  split
  · rename_i hh
    constructor
    · rintro ⟨x, hx, -⟩
      exact absurd (hh ▸ Listing.mem_keys_of_get? hx) hid
    · rintro ⟨x, ⟨⟩, hp⟩
      rw [hkeys] at hp
      exact absurd hp List.not_mem_nil
  · rfl

/-- A group without projects may be listed under a new identifier and a new name. -/
theorem Valid.insertGroup (hr : r.Valid) (hid : group.id ∉ r.groups.keys)
    (hname : ∀ other ∈ r.groups.toList, other.name ≠ group.name)
    (hempty : group.projects.toList = []) : (r.insertGroup group).Valid := by
  have hall := projects_insertGroup hid hempty
  have hpipelines : (r.insertGroup group).pipelines = r.pipelines := by
    simp only [pipelines, pointers, hall]
  constructor
  case group_keys =>
    rw [show (r.insertGroup group).groups.keys = _ from Listing.keys_insert hid]
    refine List.nodup_append.mpr ⟨hr.group_keys, List.nodup_singleton _, ?_⟩
    rintro k hk _ hk' rfl
    rw [List.mem_singleton.mp hk'] at hk
    exact hid hk
  case project_keys => exact hall ▸ hr.project_keys
  case group_names =>
    rw [toList_insertGroup hid, List.map_append]
    refine List.nodup_append.mpr ⟨hr.group_names, List.nodup_singleton _, ?_⟩
    rintro name hmem _ hmem' rfl
    obtain ⟨other, hother, heq⟩ := List.mem_map.mp hmem
    exact hname other hother (heq.trans (List.mem_singleton.mp hmem'))
  case projects_valid => exact hall ▸ hr.projects_valid
  case pipelines_nodup => exact hpipelines ▸ hr.pipelines_nodup
  case owner_iff => exact hr.owner_iff_insertGroup hid hempty
  case secured =>
    obtain ⟨secured, hsecured, hsec⟩ := hr.secured
    have hne : securedGroupId ≠ group.id := fun heq => hid (heq ▸ Listing.mem_keys_of_get? hsecured)
    exact ⟨secured, by rw [group?_insertGroup, if_neg hne, hsecured], hsec⟩

theorem toList_eraseGroup {A B : List Group} (hAB : r.groups.Splits g A group B) :
    (r.eraseGroup group).groups.toList = A ++ B := by
  have hid : group.id = g := hAB.key_eq
  rw [← hAB.toList_erase, ← hid]
  rfl

/-- Taking a group out takes the pointers of its projects out. -/
theorem pointers_eraseGroup (hr : r.Valid) (hgroup : r.group? g = some group) :
    r.pointers.Perm ((r.eraseGroup group).pointers ++ pointersOf group.projects.toList) := by
  obtain ⟨A, B, hAB⟩ := Listing.exists_splits hr.group_keys hgroup
  rw [pointers_eq, pointers_eq, toList_eraseGroup hAB, hAB.toList_eq]
  simp only [projectsOf_append, projectsOf_cons, pointersOf_append, List.append_assoc]
  exact List.Perm.append_left _ List.perm_append_comm

theorem groups_eraseGroup_sublist (r : Registry) (group : Group) :
    (r.eraseGroup group).groups.toList.Sublist r.groups.toList := List.filter_sublist

theorem projects_eraseGroup_sublist (r : Registry) (group : Group) :
    (r.eraseGroup group).projects.Sublist r.projects := (groups_eraseGroup_sublist r group).flatMap _

theorem pipelines_eraseGroup_sublist (r : Registry) (group : Group) :
    (r.eraseGroup group).pipelines.Sublist r.pipelines :=
  ((projects_eraseGroup_sublist r group).flatMap _).map _

theorem group?_eraseGroup (r : Registry) (group : Group) (h : GroupId) :
    (r.eraseGroup group).group? h = if h = group.id then none else r.group? h :=
  Listing.get?_erase _ _ _

/-- The index of owners is right when the projects of the group are out of it. -/
theorem Valid.owner_iff_eraseGroup (hr : r.Valid) (hgroup : r.group? g = some group) (p : ProjectId)
    (h : GroupId) : (r.eraseGroup group).ownerOf? p = some h ↔
      ∃ x, (r.eraseGroup group).group? h = some x ∧ p ∈ x.projects.keys := by
  obtain rfl : group.id = g := Listing.key_of_get? hgroup
  rw [ownerOf?_eraseGroup, group?_eraseGroup]
  split
  · -- `p` was in the group, and is in no other
    rename_i hp
    have howner := hr.ownerOf?_of_mem_keys hgroup hp
    refine ⟨nofun, ?_⟩
    rintro ⟨x, hx, hp'⟩
    split at hx
    · cases hx
    · rename_i hne
      rw [hr.ownerOf?_of_mem_keys hx hp', Option.some_inj] at howner
      exact absurd howner hne
  · rename_i hp
    rw [hr.owner_iff]
    split
    · rename_i hh
      constructor
      · rintro ⟨x, hx, hp'⟩
        rw [hh, hgroup, Option.some_inj] at hx
        exact absurd (hx ▸ hp') hp
      · rintro ⟨x, hx, -⟩
        cases hx
    · rfl

/-- Every group but the secured one may be taken out with its projects. -/
theorem Valid.eraseGroup (hr : r.Valid) (hgroup : r.group? g = some group)
    (hg : g ≠ securedGroupId) : (r.eraseGroup group).Valid := by
  have hgroups := groups_eraseGroup_sublist r group
  have hprojects := projects_eraseGroup_sublist r group
  constructor
  case group_keys => exact (hgroups.map _).nodup hr.group_keys
  case project_keys => exact (hprojects.map _).nodup hr.project_keys
  case group_names => exact (hgroups.map _).nodup hr.group_names
  case projects_valid => exact fun q hq => hr.projects_valid q (hprojects.subset hq)
  case pipelines_nodup => exact (pipelines_eraseGroup_sublist r group).nodup hr.pipelines_nodup
  case owner_iff => exact hr.owner_iff_eraseGroup hgroup
  case secured =>
    obtain ⟨secured, hsecured, hsec⟩ := hr.secured
    have hne : securedGroupId ≠ group.id := fun heq => hg (Listing.key_of_get? hgroup ▸ heq.symm)
    exact ⟨secured, by rw [group?_eraseGroup, if_neg hne, hsecured], hsec⟩

end PipelineRegistry.Registry
