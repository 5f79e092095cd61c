import Mathlib
import PipelineRegistry.Proofs.Registry.Preservation

/-! # Pointers are counted as they arrive

A pointer arrives in a project when it is created there, or when its own project is removed softly and
this one is the secured project.  Either way it is adopted: it gets the identifier that the counter of
the project shows, and the counter goes on by one.  Nothing else moves the counter, wherever the project
itself is moved to. -/

namespace PipelineRegistry

open Calendar

/-! ### One project -/

namespace Project

variable {p p' : Project} {stayed arrived qs : List Pointer}

/-- The pointers of `p'` that refer to pipelines no pointer of `p` refers to. -/
def arrivals (p p' : Project) : List Pointer :=
  p'.pointers.toList.filter fun q => q.pipeline ∉ p.pointers.toList.map Pointer.pipeline

/-- What has arrived since the project was `p` is numbered from the counter on, one by one. -/
structure Counts (p p' : Project) : Prop where
  ids : (p.arrivals p').map (·.id.toNat) = List.range' p.nextPointerId.toNat (p.arrivals p').length
  next : p'.nextPointerId.toNat = p.nextPointerId.toNat + (p.arrivals p').length

theorem arrivals_eq_nil (hstayed : ∀ q ∈ p'.pointers.toList,
    q.pipeline ∈ p.pointers.toList.map Pointer.pipeline) : p.arrivals p' = [] := by
  rw [arrivals, List.filter_eq_nil_iff]
  intro q hq
  simpa using hstayed q hq

/-- Where no pointer is new, the counter has to stay. -/
theorem counts_of_stayed (hstayed : ∀ q ∈ p'.pointers.toList,
    q.pipeline ∈ p.pointers.toList.map Pointer.pipeline) (hnext : p'.nextPointerId = p.nextPointerId) :
    p.Counts p' := by
  constructor <;> rw [arrivals_eq_nil hstayed]
  · rfl
  · rw [hnext]
    rfl

theorem counts_refl (p : Project) : p.Counts p :=
  counts_of_stayed (fun _ => List.mem_map_of_mem) rfl

/-- A project counts what it adopts. -/
theorem Valid.counts_adoptAll? (hp : p.Valid) (h : p.adoptAll? qs = some p')
    (hpipelines : (p'.pointers.toList.map Pointer.pipeline).Nodup) : p.Counts p' := by
  obtain ⟨adopted, hlist, hids, hnext⟩ := hp.exists_adopted h
  have harrivals : p.arrivals p' = adopted := by
    rw [hlist, List.map_append] at hpipelines
    have hdisjoint := List.disjoint_of_nodup_append hpipelines
    rw [arrivals, hlist, List.filter_append, List.filter_eq_nil_iff.mpr, List.nil_append,
      List.filter_eq_self]
    · intro q hq
      exact decide_eq_true fun hmem => hdisjoint hmem (List.mem_map_of_mem hq)
    · intro q hq
      simpa using ⟨q, hq, rfl⟩
  exact ⟨harrivals ▸ hids, harrivals ▸ hnext⟩

/-! ### The states of a project, one after the other -/

/-- All pointers that arrive in a project while it goes through these states. -/
def entered : List Project → List Pointer
  | p :: p' :: ps => p.arrivals p' ++ entered (p' :: ps)
  | _ => []

/-- All that enters a project is numbered from the counter on. -/
theorem ids_entered {ps : List Project} (h : (p :: ps).IsChain Counts) :
    (entered (p :: ps)).map (·.id.toNat) =
      List.range' p.nextPointerId.toNat (entered (p :: ps)).length := by
  induction ps generalizing p with
  | nil => rfl
  | cons p' ps ih =>
      obtain ⟨⟨hids, hnext⟩, hrest⟩ := List.isChain_cons_cons.mp h
      rw [entered, List.map_append, hids, ih hrest, hnext, List.length_append, List.range'_append_1]

/-- No identifier is given twice. -/
theorem nodup_entered {ps : List Project} (h : ps.IsChain Counts) :
    ((entered ps).map Pointer.id).Nodup := by
  cases ps with
  | nil => exact List.nodup_nil
  | cons p ps =>
      refine List.Nodup.of_map UInt64.toNat ?_
      rw [List.map_map]
      exact (ids_entered h).symm ▸ List.nodup_range'

/-- The counter never goes back. -/
theorem pairwise_nextPointerId {ps : List Project} (h : ps.IsChain Counts) :
    (ps.map (·.nextPointerId.toNat)).Pairwise (· ≤ ·) := by
  rw [← List.isChain_iff_pairwise, List.isChain_map]
  refine h.imp ?_
  intro p p' hcounts
  rw [hcounts.next]
  exact Nat.le_add_right _ _

end Project

namespace Registry

variable {r r' : Registry} {now : Timestamp} {g : GroupId} {p : ProjectId} {q : PointerId}
  {project : Project} {group : Group}

/-! ### Where projects come from -/

theorem mem_projects_modifyGroup {Q : Project → Prop} {f : Group → Group}
    (hf : ∀ group ∈ r.groups.toList, ∀ x ∈ (f group).projects.toList, x ∈ r.projects ∨ Q x)
    (h : project ∈ (r.modifyGroup g f).projects) : project ∈ r.projects ∨ Q project := by
  obtain ⟨group', hgroup', hproject⟩ := mem_projects.mp h
  obtain ⟨group, hgroup, rfl⟩ := List.mem_map.mp hgroup'
  split at hproject
  · exact hf group hgroup project hproject
  · exact .inl (mem_projects.mpr ⟨group, hgroup, hproject⟩)

theorem mem_projects_modifyProject {f : Project → Project}
    (h : project ∈ (r.modifyProject p f).projects) :
    project ∈ r.projects ∨ ∃ former ∈ r.projects, former.id = p ∧ project = f former := by
  unfold modifyProject at h
  split at h
  · exact .inl h
  · refine mem_projects_modifyGroup
      (Q := fun x => ∃ former ∈ r.projects, former.id = p ∧ x = f former) ?_ h
    intro group hgroup x hx
    obtain ⟨former, hformer, rfl⟩ := List.mem_map.mp hx
    have hmem := mem_projects.mpr ⟨group, hgroup, hformer⟩
    split
    · rename_i hid
      exact .inr ⟨former, hmem, hid, rfl⟩
    · exact .inl hmem

theorem mem_projects_insertProject {new : Project}
    (h : project ∈ (r.insertProject g new).projects) : project ∈ r.projects ∨ project = new := by
  refine mem_projects_modifyGroup (Q := (· = new)) ?_
    (show project ∈ (r.modifyGroup g _).projects from h)
  intro group hgroup
  exact Listing.forall_insert (fun x hx => .inl (mem_projects.mpr ⟨group, hgroup, hx⟩)) (.inr rfl)

theorem mem_projects_foldl_insertProject {ps : List Project}
    (h : project ∈ (ps.foldl (fun r p => r.insertProject g p) r).projects) :
    project ∈ r.projects ∨ project ∈ ps := by
  induction ps generalizing r with
  | nil => exact .inl h
  | cons p ps ih =>
      rcases ih h with h | h
      · rcases mem_projects_insertProject h with h | rfl
        · exact .inl h
        · exact .inr List.mem_cons_self
      · exact .inr (List.mem_cons_of_mem _ h)

theorem mem_projects_eraseProject (h : project ∈ (r.eraseProject g p).projects) :
    project ∈ r.projects := by
  have hmem := mem_projects_modifyGroup (Q := fun _ => False) ?_
    (show project ∈ (r.modifyGroup g _).projects from h)
  · simpa using hmem
  · intro group hgroup x hx
    exact .inl (mem_projects.mpr ⟨group, hgroup, List.mem_of_mem_filter hx⟩)

/-! ### The project with an identifier -/

theorem Valid.project?_eq_some_iff (hr : r.Valid) :
    r.project? p = some project ↔ project ∈ r.projects ∧ project.id = p := by
  constructor
  · intro h
    obtain ⟨g, A, group, B, C, D, hplace⟩ := hr.exists_place h
    exact ⟨mem_projects.mpr ⟨group, hplace.group_splits.mem, hplace.project_splits.mem⟩,
      hplace.project_splits.key_eq⟩
  · rintro ⟨hproject, rfl⟩
    exact hr.addressed.project project hproject

theorem Valid.eq_of_id_eq (hr : r.Valid) {project' : Project} (h : project ∈ r.projects)
    (h' : project' ∈ r.projects) (hid : project'.id = project.id) : project' = project :=
  List.inj_on_of_nodup_map hr.project_keys h' h hid

theorem Valid.pipelines_nodup_of_mem (hr : r.Valid) (h : project ∈ r.projects) :
    (project.pointers.toList.map Pointer.pipeline).Nodup := by
  have hsub : project.pointers.toList.Sublist r.pointers :=
    List.sublist_flatten_of_mem (List.mem_map_of_mem h)
  exact (hsub.map _).nodup hr.pipelines_nodup

/-! ### Operations -/

/-- A project that is in both registries has counted what has arrived in between. -/
def Counts (r r' : Registry) : Prop :=
  ∀ project ∈ r.projects, ∀ project' ∈ r'.projects,
    project'.id = project.id → project.Counts project'

theorem Counts.project? (h : r.Counts r') (hr : r.Valid) (hr' : r'.Valid) {project' : Project}
    (hp : r.project? p = some project) (hp' : r'.project? p = some project') :
    project.Counts project' := by
  obtain ⟨hmem, hid⟩ := hr.project?_eq_some_iff.mp hp
  obtain ⟨hmem', hid'⟩ := hr'.project?_eq_some_iff.mp hp'
  exact h project hmem project' hmem' (hid'.trans hid.symm)

/-- It is enough to know of each project which one it was, where it is not a new one. -/
theorem Valid.counts_of_forall_mem (hr : r.Valid) (h : ∀ project' ∈ r'.projects,
    r.ownerOf? project'.id = none ∨
      ∃ former ∈ r.projects, former.id = project'.id ∧ former.Counts project') : r.Counts r' := by
  intro project hproject project' hproject' hid
  rcases h project' hproject' with hnone | ⟨former, hformer, hsame, hcounts⟩
  · rw [hr.ownerOf?_eq_none_iff, hid] at hnone
    exact absurd (List.mem_map_of_mem hproject) hnone
  · obtain rfl := hr.eq_of_id_eq hproject hformer (hsame.trans hid)
    exact hcounts

theorem Valid.counts_of_subset (hr : r.Valid) (h : ∀ x ∈ r'.projects, x ∈ r.projects) :
    r.Counts r' := by
  refine hr.counts_of_forall_mem ?_
  intro project' hproject'
  exact .inr ⟨project', h project' hproject', rfl, project'.counts_refl⟩

/-- A change of one project, after projects may have gone. -/
theorem Valid.counts_modifyProject (hr : r.Valid) {s : Registry} {f : Project → Project}
    (hs : ∀ x ∈ s.projects, x ∈ r.projects)
    (hf : ∀ x ∈ s.projects, x.id = p → (f x).id = x.id ∧ x.Counts (f x)) :
    r.Counts (s.modifyProject p f) := by
  refine hr.counts_of_forall_mem ?_
  intro project' hproject'
  rcases mem_projects_modifyProject hproject' with hold | ⟨former, hformer, hid, rfl⟩
  · exact .inr ⟨project', hs _ hold, rfl, project'.counts_refl⟩
  · obtain ⟨hsame, hcounts⟩ := hf former hformer hid
    exact .inr ⟨former, hs former hformer, hsame.symm, hcounts⟩

/-- A project adopts pointers, after projects may have gone. -/
theorem Valid.counts_adoptAll? (hr : r.Valid) {s : Registry} (hs : s.Valid)
    (hsub : ∀ x ∈ s.projects, x ∈ r.projects) {former adopted : Project} {qs : List Pointer}
    (hformer : s.project? p = some former) (hadopted : former.adoptAll? qs = some adopted)
    (hr' : (s.modifyProject p fun _ => adopted).Valid) :
    r.Counts (s.modifyProject p fun _ => adopted) := by
  refine hr.counts_modifyProject hsub ?_
  intro x hx hid
  obtain ⟨hmem, hid'⟩ := hs.project?_eq_some_iff.mp hformer
  obtain rfl := hs.eq_of_id_eq hmem hx (hid.trans hid'.symm)
  have hvalid := hs.projects_valid x hmem
  obtain ⟨-, hsame, -⟩ := hvalid.adoptAll? hadopted
  refine ⟨hsame, hvalid.counts_adoptAll? hadopted (hr'.pipelines_nodup_of_mem ?_)⟩
  obtain ⟨g, A, group, B, C, D, hplace⟩ := hs.exists_place hformer
  refine mem_projects.mpr ⟨{ group with projects := ⟨C ++ adopted :: D⟩ }, ?_, ?_⟩
  · rw [hplace.toList_modifyProject]
    exact List.mem_append_right _ List.mem_cons_self
  · exact List.mem_append_right _ List.mem_cons_self

theorem Valid.counts_createGroup (hr : r.Valid) {request : NewGroup}
    (h : r.createGroup now request = .ok (group, r')) : r.Counts r' := by
  obtain ⟨-, id, hnext, rfl, rfl⟩ := createGroup_ok h
  refine hr.counts_of_subset ?_
  rw [projects_insertGroup]
  · exact fun _ hx => hx
  · exact not_mem_of_nextFreeId? hnext
  · rfl

theorem Valid.counts_createProject (hr : r.Valid) {request : NewProject}
    (h : r.createProject now request = .ok (project, r')) : r.Counts r' := by
  obtain ⟨group, id, -, -, hnext, rfl, rfl⟩ := createProject_ok h
  refine hr.counts_of_forall_mem ?_
  intro project' hproject'
  rcases mem_projects_insertProject hproject' with hold | rfl
  · exact .inr ⟨project', hold, rfl, project'.counts_refl⟩
  · exact .inl (ownerOf?_of_nextProjectId? hnext)

theorem Valid.counts_createPointer (hr : r.Valid) {request : NewPointer} {pointer : Pointer}
    (h : r.createPointer request = .ok (pointer, r')) : r.Counts r' := by
  have hr' := hr.createPointer h
  obtain ⟨former, adopted, hformer, -, -, hadopt, rfl⟩ := createPointer_ok h
  have hadopted : former.adoptAll? [requestedPointer request] = some adopted :=
    Option.bind_eq_some_iff.mpr ⟨_, hadopt, rfl⟩
  exact hr.counts_adoptAll? hr (fun _ => id) hformer hadopted hr'

theorem Valid.counts_deleteGroup (hr : r.Valid) {hard : Bool}
    (h : r.deleteGroup g hard = .ok (group, r')) : r.Counts r' := by
  obtain ⟨hgroup, -, rfl⟩ := deleteGroup_ok h
  refine hr.counts_of_subset ?_
  intro x hx
  split at hx
  · exact (projects_eraseGroup_sublist r group).subset hx
  · rcases mem_projects_foldl_insertProject hx with hold | hmoved
    · exact (projects_eraseGroup_sublist r group).subset hold
    · exact mem_projects.mpr ⟨group, Listing.mem_of_get? hgroup, hmoved⟩

theorem Valid.counts_deleteProject (hr : r.Valid) {hard : Bool} {gone : Option Project}
    (h : r.deleteProject g p hard = .ok (gone, r')) : r.Counts r' := by
  have hr' := hr.deleteProject h
  obtain ⟨group, -, -, h⟩ := deleteProject_ok h
  rcases h with ⟨-, -, rfl⟩ | ⟨hp, owner, removed, howner, hremoved, -, h⟩
  · exact hr.counts_of_subset fun _ => id
  obtain ⟨A, group', B, C, D, hplace⟩ := hr.exists_place_of_owner howner hremoved
  rcases h with ⟨-, rfl⟩ | ⟨-, -, hrehome⟩
  · exact hr.counts_of_subset fun _ => mem_projects_eraseProject
  · obtain ⟨secured, adopted, hsecured, hadopted, rfl⟩ := rehome_ok hrehome
    exact hr.counts_adoptAll? (hr.eraseProject hplace hp) (fun _ => mem_projects_eraseProject)
      hsecured hadopted hr'

theorem Valid.counts_deletePointer (hr : r.Valid) {pointer : Pointer}
    (h : r.deletePointer p q = .ok (pointer, r')) : r.Counts r' := by
  obtain ⟨former, -, -, rfl⟩ := deletePointer_ok h
  refine hr.counts_modifyProject (fun _ => id) ?_
  intro x _ _
  refine ⟨rfl, Project.counts_of_stayed ?_ rfl⟩
  intro q hq
  exact List.mem_map_of_mem (List.mem_of_mem_filter hq)

theorem Valid.counts_editGroup (hr : r.Valid) {edit : Edit}
    (h : r.editGroup now g edit = .ok (group, r')) : r.Counts r' := by
  obtain ⟨former, hformer, -, -, rfl⟩ := editGroup_ok h
  refine hr.counts_of_subset ?_
  rw [projects_modifyGroup hr hformer (former.projects_edited now _)]
  exact fun _ => id

theorem Valid.counts_editProject (hr : r.Valid) {edit : Edit}
    (h : r.editProject now p edit = .ok (project, r')) : r.Counts r' := by
  obtain ⟨former, -, -, -, rfl⟩ := editProject_ok h
  refine hr.counts_modifyProject (fun _ => id) ?_
  intro x _ _
  refine ⟨x.id_edited now edit, Project.counts_of_stayed ?_ (x.nextPointerId_edited now edit)⟩
  rw [Project.pointers_edited]
  exact fun _ => List.mem_map_of_mem

theorem Valid.counts_editPointer (hr : r.Valid) {edit : Edit} {pointer : Pointer}
    (h : r.editPointer p q edit = .ok (pointer, r')) : r.Counts r' := by
  obtain ⟨former, -, -, -, -, -, rfl⟩ := editPointer_ok h
  refine hr.counts_modifyProject (fun _ => id) ?_
  intro x _ _
  refine ⟨rfl, Project.counts_of_stayed ?_ rfl⟩
  intro q' hq'
  obtain ⟨q₀, hq₀, rfl⟩ := List.mem_map.mp hq'
  refine List.mem_map.mpr ⟨q₀, hq₀, ?_⟩
  split <;> simp

/-- Whatever the operation, the projects it leaves in the registry have counted what arrived. -/
theorem Valid.counts (hr : r.Valid) {operation : Operation} {outcome : Outcome}
    (h : operation.perform now r = .ok (outcome, r')) : r.Counts r' := by
  replace h := makes_of_perform h
  cases operation <;> obtain ⟨entity, h⟩ := h
  case createGroup => exact hr.counts_createGroup h
  case createProject => exact hr.counts_createProject h
  case createPointer => exact hr.counts_createPointer h
  case deleteGroup => exact hr.counts_deleteGroup h
  case deleteProject => exact hr.counts_deleteProject h
  case deletePointer => exact hr.counts_deletePointer h
  case editGroup => exact hr.counts_editGroup h
  case editProject => exact hr.counts_editProject h
  case editPointer => exact hr.counts_editPointer h

end Registry
end PipelineRegistry
