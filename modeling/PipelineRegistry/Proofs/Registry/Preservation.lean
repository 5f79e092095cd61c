import Mathlib
import PipelineRegistry.Proofs.Registry.Adoption
import PipelineRegistry.Proofs.Registry.Changes
import PipelineRegistry.Proofs.Registry.Success

/-! # Operations keep the rules

What a successful operation does to a valid registry is again a valid registry: one lemma for each
operation, and `Valid.perform` for all of them. -/

namespace PipelineRegistry

open Calendar

/-! ### Edits of one entity -/

@[simp] theorem Group.id_edited (g : Group) (now : Timestamp) (edit : Edit) :
    (g.edited now edit).id = g.id := by cases edit <;> rfl

@[simp] theorem Group.projects_edited (g : Group) (now : Timestamp) (edit : Edit) :
    (g.edited now edit).projects = g.projects := by cases edit <;> rfl

@[simp] theorem Project.id_edited (p : Project) (now : Timestamp) (edit : Edit) :
    (p.edited now edit).id = p.id := by cases edit <;> rfl

@[simp] theorem Project.pointers_edited (p : Project) (now : Timestamp) (edit : Edit) :
    (p.edited now edit).pointers = p.pointers := by cases edit <;> rfl

@[simp] theorem Project.nextPointerId_edited (p : Project) (now : Timestamp) (edit : Edit) :
    (p.edited now edit).nextPointerId = p.nextPointerId := by cases edit <;> rfl

@[simp] theorem Pointer.id_edited (q : Pointer) (edit : Edit) : (q.edited edit).id = q.id := by
  cases edit <;> rfl

@[simp] theorem Pointer.projectId_edited (q : Pointer) (edit : Edit) :
    (q.edited edit).projectId = q.projectId := by cases edit <;> rfl

@[simp] theorem Pointer.pipeline_edited (q : Pointer) (edit : Edit) :
    (q.edited edit).pipeline = q.pipeline := by cases edit <;> rfl

theorem Project.valid_create (id : ProjectId) (name : String) (tag description : Option String)
    (now : Timestamp) : (Project.create id name tag description now).Valid :=
  ⟨List.nodup_nil, fun _ hq => absurd hq List.not_mem_nil, fun _ hq => absurd hq List.not_mem_nil⟩

theorem Project.Valid.edited {p : Project} (hp : p.Valid) (now : Timestamp) (edit : Edit) :
    (p.edited now edit).Valid :=
  ⟨by simpa using hp.pointer_keys, by simpa using hp.pointer_project, by simpa using hp.pointer_lt⟩

theorem Project.Valid.erase {p : Project} (hp : p.Valid) (q : PointerId) :
    ({ p with pointers := p.pointers.erase q } : Project).Valid := by
  have hsub : (p.pointers.erase q).toList.Sublist p.pointers.toList := List.filter_sublist
  exact ⟨(Listing.keys_erase_sublist _ _).nodup hp.pointer_keys,
    fun q hq => hp.pointer_project q (hsub.subset hq), fun q hq => hp.pointer_lt q (hsub.subset hq)⟩

theorem Project.Valid.modify {p : Project} (hp : p.Valid) (q : PointerId) (edit : Edit) :
    ({ p with pointers := p.pointers.modify q (·.edited edit) } : Project).Valid := by
  have hmem : ∀ q₁ ∈ (p.pointers.modify q (·.edited edit)).toList, ∃ q₂ ∈ p.pointers.toList,
      q₁.id = q₂.id ∧ q₁.projectId = q₂.projectId := by
    intro q₁ hq₁
    obtain ⟨q₂, hq₂, rfl⟩ := List.mem_map.mp hq₁
    refine ⟨q₂, hq₂, ?_⟩
    split <;> simp
  constructor
  case pointer_keys =>
    have hkeys : (p.pointers.modify q (·.edited edit)).keys = p.pointers.keys :=
      Listing.keys_modify fun q₁ hq₁ => (q₁.id_edited edit).trans hq₁
    exact hkeys ▸ hp.pointer_keys
  case pointer_project =>
    intro q₁ hq₁
    obtain ⟨q₂, hq₂, -, hproject⟩ := hmem q₁ hq₁
    exact hproject.trans (hp.pointer_project q₂ hq₂)
  case pointer_lt =>
    intro q₁ hq₁
    obtain ⟨q₂, hq₂, hid, -⟩ := hmem q₁ hq₁
    exact hid ▸ hp.pointer_lt q₂ hq₂

namespace Registry

variable {r r' : Registry} {now : Timestamp} {g : GroupId} {p : ProjectId} {q : PointerId}

theorem Valid.valid_of_project? (hr : r.Valid) {project : Project}
    (h : r.project? p = some project) : project.Valid := by
  obtain ⟨g, A, group, B, C, D, hplace⟩ := hr.exists_place h
  exact hr.projects_valid project
    (mem_projects.mpr ⟨group, hplace.group_splits.mem, hplace.project_splits.mem⟩)

theorem Valid.id_of_project? (hr : r.Valid) {project : Project}
    (h : r.project? p = some project) : project.id = p := by
  obtain ⟨g, A, group, B, C, D, hplace⟩ := hr.exists_place h
  exact hplace.project_splits.key_eq

theorem Valid.name_of_project?_secured (hr : r.Valid) {project : Project}
    (h : r.project? securedProjectId = some project) : project.name = securedName := by
  obtain ⟨group, found, ps, hgroup, hps, -, -, hfound⟩ := hr.project?_secured
  obtain ⟨found', ps', hps', -, hname⟩ := (hr.secured_of_group? hgroup).first
  rw [hps] at hps'
  rw [hfound, Option.some_inj] at h
  rw [← h, (List.cons.inj hps').1, hname]

/-! ### Groups -/

theorem Valid.createGroup (hr : r.Valid) {request : NewGroup} {group : Group}
    (h : r.createGroup now request = .ok (group, r')) : r'.Valid := by
  obtain ⟨hname, id, hid, rfl, rfl⟩ := createGroup_ok h
  refine hr.insertGroup (not_mem_of_nextFreeId? hid) ?_ rfl
  intro other hother heq
  rw [hasGroupNamed, List.any_eq_false] at hname
  exact hname other hother (beq_iff_eq.mpr heq)

/-- The projects of a group that has been taken out may be listed in the secured group, and their
pointers come back. -/
theorem Valid.rehomeProjects (hr : r.Valid) {group : Group} (hgroup : r.group? g = some group)
    (hg : g ≠ securedGroupId) :
    (group.projects.toList.foldl (fun r p => r.insertProject securedGroupId p)
        (r.eraseGroup group)).Valid ∧
      (group.projects.toList.foldl (fun r p => r.insertProject securedGroupId p)
        (r.eraseGroup group)).pointers.Perm r.pointers := by
  have hrest := hr.eraseGroup hgroup hg
  have hpointers := pointers_eraseGroup hr hgroup
  obtain ⟨secured, hsecured, -⟩ := hrest.secured
  have howner : ∀ p ∈ group.projects.toList, (r.eraseGroup group).ownerOf? p.id = none := by
    intro p hp
    have hmem : p.id ∈ group.projects.keys := Listing.mem_keys.mpr ⟨p, hp, rfl⟩
    rw [ownerOf?_eraseGroup, if_pos hmem]
  have hprojects : ∀ p ∈ group.projects.toList, p.Valid := by
    intro p hp
    exact hr.projects_valid p (mem_projects.mpr ⟨group, Listing.mem_of_get? hgroup, hp⟩)
  have hpipelines := (hpointers.map Pointer.pipeline).nodup_iff.mp hr.pipelines_nodup
  rw [List.map_append] at hpipelines
  obtain ⟨hvalid, hperm⟩ := hrest.foldl_insertProject hsecured group.projects.toList howner
    (hr.project_keys_of_group? hgroup) hprojects hpipelines
  exact ⟨hvalid, hperm.trans hpointers.symm⟩

theorem Valid.deleteGroup (hr : r.Valid) {hard : Bool} {group : Group}
    (h : r.deleteGroup g hard = .ok (group, r')) : r'.Valid := by
  obtain ⟨hgroup, hg, rfl⟩ := deleteGroup_ok h
  split
  · exact hr.eraseGroup hgroup hg
  · exact (hr.rehomeProjects hgroup hg).1

theorem Valid.editGroup (hr : r.Valid) {edit : Edit} {group : Group}
    (h : r.editGroup now g edit = .ok (group, r')) : r'.Valid := by
  obtain ⟨former, hformer, hpermitted, -, rfl⟩ := editGroup_ok h
  have hname : (∀ other ∈ r.groups.toList, other.id ≠ g → other.name ≠ (former.edited now edit).name) ∧
      (g = securedGroupId → (former.edited now edit).name = securedName) := by
    obtain ⟨A, B, hAB⟩ := Listing.exists_splits hr.group_keys hformer
    have hother : ∀ other ∈ r.groups.toList, other.id ≠ g → other.name ≠ former.name := by
      intro other hother hne
      rw [hAB.toList_eq, List.perm_middle.mem_iff, List.mem_cons] at hother
      rcases hother with rfl | hother
      · exact absurd hAB.key_eq hne
      · exact hr.name_ne_of_splits hAB hother
    have hsecured : g = securedGroupId → former.name = securedName :=
      fun hg => (hr.secured_of_group? (hg ▸ hformer)).name_eq
    cases edit with
    | rename name =>
        obtain ⟨hsecured, hfree⟩ := hpermitted name rfl
        exact ⟨fun other hother hne hname =>
          hfree (Listing.mem_namesBeside.mpr ⟨other, hother, hne, hname⟩), hsecured⟩
    | tag value => exact ⟨hother, hsecured⟩
    | describe value => exact ⟨hother, hsecured⟩
  exact hr.modifyGroup hformer _ (former.id_edited now edit) (former.projects_edited now edit)
    hname.1 hname.2

/-! ### Projects -/

theorem Valid.createProject (hr : r.Valid) {request : NewProject} {project : Project}
    (h : r.createProject now request = .ok (project, r')) : r'.Valid := by
  obtain ⟨group, id, hgroup, -, hid, rfl, rfl⟩ := createProject_ok h
  refine hr.insertProject hgroup (ownerOf?_of_nextProjectId? hid) (Project.valid_create _ _ _ _ _) ?_
  · simpa [Project.create] using hr.pipelines_nodup

theorem Valid.deleteProject (hr : r.Valid) {hard : Bool} {removed : Option Project}
    (h : r.deleteProject g p hard = .ok (removed, r')) : r'.Valid := by
  obtain ⟨group, -, -, h⟩ := deleteProject_ok h
  rcases h with ⟨-, -, rfl⟩ | ⟨hp, owner, project, howner, hproject, -, h⟩
  · exact hr
  obtain ⟨A, group', B, C, D, hplace⟩ := hr.exists_place_of_owner howner hproject
  have hrest := hr.eraseProject hplace hp
  rcases h with ⟨-, rfl⟩ | ⟨-, -, hrehome⟩
  · exact hrest
  obtain ⟨secured, adopted, hsecured, hadopted, rfl⟩ := rehome_ok hrehome
  have hsecured_valid := hrest.valid_of_project? hsecured
  obtain ⟨hvalid, hid, hname⟩ := hsecured_valid.adoptAll? hadopted
  have hpipelines := hsecured_valid.map_adoptAll? Pointer.pipeline (fun _ _ _ => rfl)
      hadopted
  refine hrest.modifyProject hsecured _ hid hvalid (fun _ => hname) ?_
  -- the pipelines of the project that was taken out come to the secured project
  refine (pipelines_modifyProject hrest hsecured hpipelines).nodup_iff.mpr ?_
  have hnodup := ((pointers_eraseProject hplace).map Pointer.pipeline).nodup_iff.mp hr.pipelines_nodup
  rwa [List.map_append] at hnodup

theorem Valid.editProject (hr : r.Valid) {edit : Edit} {project : Project}
    (h : r.editProject now p edit = .ok (project, r')) : r'.Valid := by
  obtain ⟨former, hformer, hpermitted, -, rfl⟩ := editProject_ok h
  refine hr.modifyProject hformer _ (former.id_edited now edit)
    ((hr.valid_of_project? hformer).edited now edit) ?_ ?_
  · intro hp
    subst hp
    have hname := hr.name_of_project?_secured hformer
    cases edit with
    | rename name => exact ((hpermitted name rfl).1 rfl).trans hname.symm
    | tag value => rfl
    | describe value => rfl
  · refine (pipelines_modifyProject_sublist hr hformer ?_).nodup hr.pipelines_nodup
    rw [Project.pointers_edited]

/-! ### Pointers -/

theorem Valid.createPointer (hr : r.Valid) {request : NewPointer} {pointer : Pointer}
    (h : r.createPointer request = .ok (pointer, r')) : r'.Valid := by
  obtain ⟨project, adopted, hproject, hpipeline, -, hadopted, rfl⟩ := createPointer_ok h
  have hvalid := hr.valid_of_project? hproject
  obtain ⟨hid, hname, heq⟩ := Project.adopt?_frame hadopted
  refine hr.modifyProject hproject _ hid (hvalid.adopt? hadopted) (fun _ => hname) ?_
  have hpipelines : adopted.pointers.toList.map Pointer.pipeline =
      project.pointers.toList.map Pointer.pipeline ++ [request.pipeline] := by
    rw [hvalid.toList_adopt? hadopted, List.map_append, List.map_singleton, heq]
    rfl
  refine (pipelines_modifyProject hr hproject hpipelines).nodup_iff.mpr ?_
  refine List.nodup_append.mpr ⟨hr.pipelines_nodup, List.nodup_singleton _, ?_⟩
  rintro pipeline hmem _ hmem' rfl
  rw [List.mem_singleton.mp hmem'] at hmem
  obtain ⟨q, hq, heq⟩ := List.mem_map.mp hmem
  rw [containsPipeline, List.any_eq_false] at hpipeline
  exact hpipeline q hq (beq_iff_eq.mpr heq)

theorem Valid.deletePointer (hr : r.Valid) {pointer : Pointer}
    (h : r.deletePointer p q = .ok (pointer, r')) : r'.Valid := by
  obtain ⟨project, hproject, -, rfl⟩ := deletePointer_ok h
  refine hr.modifyProject hproject _ rfl ((hr.valid_of_project? hproject).erase q)
    (fun _ => rfl) ?_
  refine (pipelines_modifyProject_sublist hr hproject ?_).nodup hr.pipelines_nodup
  exact List.filter_sublist.map _

theorem Valid.editPointer (hr : r.Valid) {edit : Edit} {pointer : Pointer}
    (h : r.editPointer p q edit = .ok (pointer, r')) : r'.Valid := by
  obtain ⟨project, former, hproject, -, -, -, rfl⟩ := editPointer_ok h
  refine hr.modifyProject hproject _ rfl ((hr.valid_of_project? hproject).modify q edit)
    (fun _ => rfl) ?_
  have hpipelines : (project.pointers.modify q (·.edited edit)).toList.map Pointer.pipeline =
      project.pointers.toList.map Pointer.pipeline := by
    rw [Listing.toList_modify, List.map_map]
    refine List.map_congr_left ?_
    intro q₁ _
    change (ite _ _ _ : Pointer).pipeline = q₁.pipeline
    split <;> simp
  refine (pipelines_modifyProject_sublist hr hproject ?_).nodup hr.pipelines_nodup
  rw [hpipelines]

/-! ### The first registry -/

theorem valid_initial (now : Timestamp) : (initial now).Valid := by
  have hprojects : (initial now).projects = [securedProject now] := rfl
  have hpointers : (initial now).pointers = [] := rfl
  constructor
  case group_keys => exact List.nodup_singleton _
  case project_keys => exact List.nodup_singleton _
  case group_names => exact List.nodup_singleton _
  case projects_valid =>
    intro p hp
    rw [hprojects, List.mem_singleton] at hp
    subst hp
    exact Project.valid_create _ _ _ _ _
  case pipelines_nodup =>
    rw [pipelines, hpointers]
    exact List.nodup_nil
  case owner_iff =>
    intro p g
    have howner : (initial now).ownerOf? p =
        if p ∈ (securedGroup now).projects.keys then some securedGroupId else none :=
      ownerOf?_insertGroup ⟨.empty, ∅⟩ (securedGroup now) p
    have hgroup : (initial now).group? g =
        if securedGroupId = g then some (securedGroup now) else none := by
      simp only [group?, Listing.get?, show (initial now).groups.toList = [securedGroup now] from rfl,
        List.find?_singleton, decide_eq_true_eq]
      rfl
    rw [howner, hgroup]
    split_ifs <;> simp_all
  case secured => exact ⟨securedGroup now, rfl, rfl, securedProject now, [], rfl, rfl, rfl⟩

/-! ### All operations -/

/-- Every operation that succeeds gives a valid registry. -/
theorem Valid.perform (hr : r.Valid) {operation : Operation} {outcome : Outcome}
    (h : operation.perform now r = .ok (outcome, r')) : r'.Valid := by
  replace h := makes_of_perform h
  cases operation <;> obtain ⟨entity, h⟩ := h
  case createGroup => exact hr.createGroup h
  case createProject => exact hr.createProject h
  case createPointer => exact hr.createPointer h
  case deleteGroup => exact hr.deleteGroup h
  case deleteProject => exact hr.deleteProject h
  case deletePointer => exact hr.deletePointer h
  case editGroup => exact hr.editGroup h
  case editProject => exact hr.editProject h
  case editPointer => exact hr.editPointer h

end Registry
end PipelineRegistry
