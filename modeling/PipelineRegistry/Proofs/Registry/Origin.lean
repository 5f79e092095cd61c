import Mathlib
import PipelineRegistry.Proofs.Registry.Preservation

/-! # Origins of pipelines

Where a pipeline comes from is settled when it is registered: the paths of its files and the date of
its creation.  A registry is looked at here as a map from pipelines to origins.  The map does not
depend on where the pointers stand, so that it is enough to know an operation up to the order of the
pointers: what moves from one project or group to another does not show. -/

namespace PipelineRegistry
open Calendar

/-- What is settled about a pipeline when it is registered. -/
structure Origin where
  easefile : Path
  pipelineFile : Path
  created : Timestamp
deriving DecidableEq

/-- The origin of the pipeline that a pointer refers to. -/
def Pointer.origin (q : Pointer) : Origin := ⟨q.easefile, q.pipelineFile, q.created⟩

/-- The origin of the pipeline that is to be registered. -/
def NewPointer.origin (request : NewPointer) : Origin :=
  ⟨request.easefile, request.pipelineFile, request.created⟩

/-- The pipeline that a pointer refers to, and its origin. -/
def Pointer.entry (q : Pointer) : PipelineId × Origin := (q.pipeline, q.origin)

@[simp] theorem Pointer.entry_edited (q : Pointer) (edit : Edit) :
    (q.edited edit).entry = q.entry := by cases edit <;> rfl

namespace Registry

/-- The origin of a pipeline that is registered. -/
def origin? (r : Registry) (pipeline : PipelineId) : Option Origin :=
  (r.pointers.find? (·.pipeline = pipeline)).map Pointer.origin

/-- The origins without those of the pipelines that `qs` refer to. -/
def originsWithout (r : Registry) (qs : List Pointer) (pipeline : PipelineId) : Option Origin :=
  if pipeline ∈ qs.map Pointer.pipeline then none else r.origin? pipeline

/-- The pipelines and their origins, in listing order. -/
def entries (r : Registry) : List (PipelineId × Origin) := r.pointers.map Pointer.entry

variable {r r' : Registry} {now : Timestamp} {g : GroupId} {p : ProjectId} {q : PointerId}
  {pipeline : PipelineId} {origin : Origin}

/-! ### The map and the list -/

theorem map_fst_entries (r : Registry) : r.entries.map Prod.fst = r.pipelines := List.map_map

theorem origin?_eq_none_iff : r.origin? pipeline = none ↔ pipeline ∉ r.pipelines := by
  simp [origin?, pipelines]

theorem Valid.origin?_eq_some_iff (hr : r.Valid) :
    r.origin? pipeline = some origin ↔ (pipeline, origin) ∈ r.entries := by
  rw [origin?, Option.map_eq_some_iff, entries, List.mem_map]
  constructor
  · rintro ⟨q, hq, rfl⟩
    have hpipeline : q.pipeline = pipeline := by simpa using List.find?_some hq
    exact ⟨q, List.mem_of_find?_eq_some hq, Prod.ext hpipeline rfl⟩
  · rintro ⟨q, hq, hentry⟩
    obtain ⟨rfl, rfl⟩ := Prod.mk.inj hentry
    obtain ⟨q', hq'⟩ : ∃ q', r.pointers.find? (·.pipeline = q.pipeline) = some q' :=
      Option.isSome_iff_exists.mp (List.find?_isSome.mpr ⟨q, hq, by simp⟩)
    have hpipeline : q'.pipeline = q.pipeline := by simpa using List.find?_some hq'
    obtain rfl := List.inj_on_of_nodup_map hr.pipelines_nodup (List.mem_of_find?_eq_some hq') hq
      hpipeline
    exact ⟨q', hq', rfl⟩

/-- Each entry of the map is carried by one pointer. -/
theorem Valid.origin?_eq_some_iff_filter (hr : r.Valid) : r.origin? pipeline = some origin ↔
    ∃ q, r.pointers.filter (·.pipeline = pipeline) = [q] ∧ q.origin = origin := by
  constructor
  · intro horigin
    obtain ⟨q, hq, hentry⟩ := List.mem_map.mp (hr.origin?_eq_some_iff.mp horigin)
    obtain ⟨rfl, rfl⟩ := Prod.mk.inj hentry
    obtain ⟨before, behind, hsplit⟩ := List.append_of_mem hq
    have hnodup := hr.pipelines_nodup
    rw [pipelines, hsplit, List.map_append, List.map_cons, List.nodup_middle, List.nodup_cons,
      ← List.map_append] at hnodup
    have hothers : (before ++ behind).filter (·.pipeline = q.pipeline) = [] := by
      rw [List.filter_eq_nil_iff]
      intro other hother heq
      exact hnodup.1 (of_decide_eq_true heq ▸ List.mem_map_of_mem hother)
    rw [List.filter_append, List.append_eq_nil_iff] at hothers
    refine ⟨q, ?_, rfl⟩
    rw [hsplit, List.filter_append, hothers.1, List.filter_cons_of_pos (by simp), hothers.2,
      List.nil_append]
  · rintro ⟨q, hq, rfl⟩
    have hmem : q ∈ r.pointers.filter (·.pipeline = pipeline) := by
      rw [hq]
      exact List.mem_singleton_self q
    rw [List.mem_filter, decide_eq_true_eq] at hmem
    obtain ⟨hmem, rfl⟩ := hmem
    exact hr.origin?_eq_some_iff.mpr (List.mem_map_of_mem hmem)

theorem Valid.origin?_of_perm (hr : r.Valid) (hr' : r'.Valid)
    (hperm : r'.entries.Perm r.entries) : r'.origin? = r.origin? := by
  funext pipeline
  ext origin
  rw [hr.origin?_eq_some_iff, hr'.origin?_eq_some_iff, hperm.mem_iff]

theorem Valid.origin?_of_perm_added (hr : r.Valid) (hr' : r'.Valid)
    (hperm : r'.entries.Perm (r.entries ++ [(pipeline, origin)])) :
    r.origin? pipeline = none ∧ r'.origin? = Function.update r.origin? pipeline (some origin) := by
  have hnew : r.origin? pipeline = none := by
    rw [origin?_eq_none_iff]
    have hnodup := (hperm.map Prod.fst).nodup_iff.mp (r'.map_fst_entries ▸ hr'.pipelines_nodup)
    rw [List.map_append, map_fst_entries] at hnodup
    exact fun hmem => List.disjoint_of_nodup_append hnodup hmem (List.mem_singleton_self _)
  refine ⟨hnew, ?_⟩
  funext other
  ext origin'
  rw [hr'.origin?_eq_some_iff, hperm.mem_iff, List.mem_append, List.mem_singleton, Prod.mk.injEq,
    ← hr.origin?_eq_some_iff, Function.update_apply]
  split
  · rename_i heq
    subst heq
    rw [hnew]
    simp [eq_comm]
  · rename_i hne
    simp [hne]

theorem Valid.origin?_of_perm_removed (hr : r.Valid) (hr' : r'.Valid) {removed : List Pointer}
    (hperm : r.entries.Perm (r'.entries ++ removed.map Pointer.entry)) :
    r'.origin? = r.originsWithout removed := by
  have hnodup := (hperm.map Prod.fst).nodup_iff.mp (r.map_fst_entries ▸ hr.pipelines_nodup)
  rw [List.map_append, map_fst_entries, List.map_map] at hnodup
  funext pipeline
  rw [originsWithout]
  split
  · rename_i hmem
    rw [origin?_eq_none_iff]
    exact fun hmem' => List.disjoint_of_nodup_append hnodup hmem' hmem
  · rename_i hmem
    ext origin
    rw [hr.origin?_eq_some_iff, hr'.origin?_eq_some_iff, hperm.mem_iff, List.mem_append, or_iff_left]
    intro hentry
    obtain ⟨q, hq, hentry⟩ := List.mem_map.mp hentry
    obtain ⟨rfl, rfl⟩ := Prod.mk.inj hentry
    exact hmem (List.mem_map_of_mem hq)

end Registry

/-! ### Operations -/

/-- What becomes of the origins of `r` in an operation that gives `r'`. -/
def Operation.AccountsFor (r r' : Registry) : Operation → Prop
  | createPointer request => r.origin? request.pipeline = none ∧
      r'.origin? = Function.update r.origin? request.pipeline (some request.origin)
  | deletePointer p q => ∃ pointer, r.pointer? p q = some pointer ∧
      r'.origin? = r.originsWithout [pointer]
  | deleteProject _ p true => if p = securedProjectId then r'.origin? = r.origin?
      else ∃ project, r.project? p = some project ∧
        r'.origin? = r.originsWithout project.pointers.toList
  | deleteGroup g true => ∃ group, r.group? g = some group ∧
      r'.origin? = r.originsWithout (Registry.pointersOf group.projects.toList)
  | createGroup _ | createProject _ | deleteGroup _ false | deleteProject _ _ false
  | editGroup _ _ | editProject _ _ | editPointer _ _ _ => r'.origin? = r.origin?

namespace Registry

variable {r r' : Registry} {now : Timestamp} {g : GroupId} {p : ProjectId} {q : PointerId}

theorem entries_of_projects (h : r'.projects = r.projects) : r'.entries = r.entries := by
  rw [entries, entries, pointers, pointers, h]

theorem entries_modifyProject (hr : r.Valid) {project : Project}
    (hproject : r.project? p = some project) (f : Project → Project)
    (added removed : List (PipelineId × Origin))
    (hchange : ((f project).pointers.toList.map Pointer.entry ++ removed).Perm
      (project.pointers.toList.map Pointer.entry ++ added)) :
    ((r.modifyProject p f).entries ++ removed).Perm (r.entries ++ added) :=
  map_pointers_modifyProject Pointer.entry hr hproject f added removed hchange

theorem entries_createGroup {request : NewGroup} {group : Group}
    (h : r.createGroup now request = .ok (group, r')) : r'.entries = r.entries := by
  obtain ⟨-, id, hid, rfl, rfl⟩ := createGroup_ok h
  exact entries_of_projects (projects_insertGroup (not_mem_of_nextFreeId? hid) rfl)

theorem entries_editGroup (hr : r.Valid) {edit : Edit} {group : Group}
    (h : r.editGroup now g edit = .ok (group, r')) : r'.entries = r.entries := by
  obtain ⟨former, hformer, -, -, rfl⟩ := editGroup_ok h
  exact entries_of_projects (projects_modifyGroup hr hformer (former.projects_edited now edit))

/-- A removal of a group takes out what its projects hold, or leaves it all there. -/
theorem entries_deleteGroup (hr : r.Valid) {hard : Bool} {group : Group}
    (h : r.deleteGroup g hard = .ok (group, r')) :
    r.group? g = some group ∧ if hard
      then r.entries.Perm (r'.entries ++ (pointersOf group.projects.toList).map Pointer.entry)
      else r'.entries.Perm r.entries := by
  obtain ⟨hgroup, hg, rfl⟩ := deleteGroup_ok h
  refine ⟨hgroup, ?_⟩
  cases hard with
  | true =>
      rw [if_pos rfl, if_pos rfl, entries, entries, ← List.map_append]
      exact (pointers_eraseGroup hr hgroup).map _
  | false => exact (hr.rehomeProjects hgroup hg).2.map _

theorem entries_createProject (hr : r.Valid) {request : NewProject} {project : Project}
    (h : r.createProject now request = .ok (project, r')) : r'.entries.Perm r.entries := by
  obtain ⟨group, id, hgroup, -, hid, rfl, rfl⟩ := createProject_ok h
  have hnew : id ∉ group.projects.keys :=
    hr.not_mem_keys_of_ownerOf?_eq_none hgroup (ownerOf?_of_nextProjectId? hid)
  have hperm := pointers_insertProject hr hgroup
    (.create id request.name request.tag request.description now) hnew
  exact (hperm.trans (by rw [Project.create]; simp)).map _

theorem entries_editProject (hr : r.Valid) {edit : Edit} {project : Project}
    (h : r.editProject now p edit = .ok (project, r')) : r'.entries.Perm r.entries := by
  obtain ⟨former, hformer, -, -, rfl⟩ := editProject_ok h
  have hperm := entries_modifyProject hr hformer (·.edited now edit) [] [] (by simp)
  simpa using hperm

/-- A removal of a project takes out what it holds, unless the secured project takes it in. -/
theorem entries_deleteProject (hr : r.Valid) {hard : Bool} {removed : Option Project}
    (h : r.deleteProject g p hard = .ok (removed, r')) :
    if hard = true ∧ p ≠ securedProjectId then ∃ project, r.project? p = some project ∧
      r.entries.Perm (r'.entries ++ project.pointers.toList.map Pointer.entry)
    else r'.entries.Perm r.entries := by
  obtain ⟨group, -, -, h⟩ := deleteProject_ok h
  rcases h with ⟨hp, -, rfl⟩ | ⟨hp, owner, project, howner, hproject, -, h⟩
  · rw [if_neg fun h => h.2 hp]
  obtain ⟨A, group', B, C, D, hplace⟩ := hr.exists_place_of_owner howner hproject
  have herased : r.entries.Perm
      ((r.eraseProject owner p).entries ++ project.pointers.toList.map Pointer.entry) := by
    rw [entries, entries, ← List.map_append]
    exact (pointers_eraseProject hplace).map _
  rcases h with ⟨hgone, rfl⟩ | ⟨rfl, -, hrehome⟩
  · split
    · exact ⟨project, hproject, herased⟩
    · rename_i hsoft
      have hempty := hgone.resolve_left fun hhard => hsoft ⟨hhard, hp⟩
      rw [hempty] at herased
      simpa using herased.symm
  · have hrest := hr.eraseProject hplace hp
    obtain ⟨secured, adopted, hsecured, hadopted, rfl⟩ := rehome_ok hrehome
    have hadopted := (hrest.valid_of_project? hsecured).map_adoptAll? Pointer.entry
      (fun _ _ _ => rfl) hadopted
    have hback := entries_modifyProject hrest hsecured (fun _ => adopted)
      (project.pointers.toList.map Pointer.entry) [] (by simp [hadopted])
    rw [List.append_nil] at hback
    exact hback.trans herased.symm

theorem entries_createPointer (hr : r.Valid) {request : NewPointer} {pointer : Pointer}
    (h : r.createPointer request = .ok (pointer, r')) :
    r'.entries.Perm (r.entries ++ [(request.pipeline, request.origin)]) := by
  obtain ⟨project, adopted, hproject, -, -, hadopted, rfl⟩ := createPointer_ok h
  have hlist := (hr.valid_of_project? hproject).toList_adopt? hadopted
  obtain ⟨-, rfl, -⟩ := Project.adopt?_eq_some_iff.mp hadopted
  have hperm := entries_modifyProject hr hproject (fun _ => adopted)
    [(request.pipeline, request.origin)] []
    (by rw [hlist, List.map_append, List.append_nil]; rfl)
  rwa [List.append_nil] at hperm

theorem entries_deletePointer (hr : r.Valid) {pointer : Pointer}
    (h : r.deletePointer p q = .ok (pointer, r')) : r.pointer? p q = some pointer ∧
      r.entries.Perm (r'.entries ++ [pointer.entry]) := by
  obtain ⟨project, hproject, hpointer, rfl⟩ := deletePointer_ok h
  obtain ⟨C, D, hCD⟩ := Listing.exists_splits (hr.valid_of_project? hproject).pointer_keys hpointer
  have hperm := entries_modifyProject hr hproject
    (fun project => { project with pointers := project.pointers.erase q }) [] [pointer.entry] (by
      rw [hCD.toList_erase, hCD.toList_eq]
      simp only [List.map_append, List.map_cons, List.append_assoc, List.append_nil]
      exact List.Perm.append_left _ (List.perm_append_singleton _ _))
  refine ⟨by rw [pointer?, hproject]; exact hpointer, ?_⟩
  rw [List.append_nil] at hperm
  exact hperm.symm

theorem entries_editPointer (hr : r.Valid) {edit : Edit} {pointer : Pointer}
    (h : r.editPointer p q edit = .ok (pointer, r')) : r'.entries.Perm r.entries := by
  obtain ⟨project, former, hproject, hformer, -, -, rfl⟩ := editPointer_ok h
  obtain ⟨C, D, hCD⟩ := Listing.exists_splits (hr.valid_of_project? hproject).pointer_keys hformer
  have hperm := entries_modifyProject hr hproject
    (fun project => { project with pointers := project.pointers.modify q (·.edited edit) }) [] [] (by
      rw [hCD.toList_modify, hCD.toList_eq]
      simp)
  simpa using hperm

/-- A successful operation registers and removes the origins that it names, and no others. -/
theorem Valid.accountsFor (hr : r.Valid) {operation : Operation} {outcome : Outcome}
    (h : operation.perform now r = .ok (outcome, r')) : operation.AccountsFor r r' := by
  have hr' := hr.perform h
  replace h := makes_of_perform h
  cases operation <;> obtain ⟨entity, h⟩ := h
  case createGroup => exact hr.origin?_of_perm hr' (.of_eq (entries_createGroup h))
  case createProject => exact hr.origin?_of_perm hr' (entries_createProject hr h)
  case createPointer => exact hr.origin?_of_perm_added hr' (entries_createPointer hr h)
  case deleteGroup g hard =>
    obtain ⟨hgroup, hperm⟩ := entries_deleteGroup hr h
    cases hard with
    | true => exact ⟨entity, hgroup, hr.origin?_of_perm_removed hr' hperm⟩
    | false => exact hr.origin?_of_perm hr' hperm
  case deleteProject g p hard =>
    have hperm := entries_deleteProject hr h
    cases hard with
    | true =>
        by_cases hp : p = securedProjectId
        · rw [if_neg fun h => h.2 hp] at hperm
          simp only [Operation.AccountsFor, if_pos hp]
          exact hr.origin?_of_perm hr' hperm
        · rw [if_pos ⟨rfl, hp⟩] at hperm
          obtain ⟨project, hproject, hperm⟩ := hperm
          simp only [Operation.AccountsFor, if_neg hp]
          exact ⟨project, hproject, hr.origin?_of_perm_removed hr' hperm⟩
    | false => exact hr.origin?_of_perm hr' hperm
  case deletePointer =>
    obtain ⟨hpointer, hperm⟩ := entries_deletePointer hr h
    exact ⟨entity, hpointer, hr.origin?_of_perm_removed hr' hperm⟩
  case editGroup => exact hr.origin?_of_perm hr' (.of_eq (entries_editGroup hr h))
  case editProject => exact hr.origin?_of_perm hr' (entries_editProject hr h)
  case editPointer => exact hr.origin?_of_perm hr' (entries_editPointer hr h)

end Registry
end PipelineRegistry
