import Mathlib
import PipelineRegistry.Proofs.Chain
import PipelineRegistry.Proofs.Registry.Edit
import PipelineRegistry.Proofs.Registry.Valid

/-! # What a successful operation has found and done

For each operation: when it succeeds, the entities it addressed were there, the checks were passed,
and the registry it gives is the former one after the changes named here. -/

namespace PipelineRegistry.Registry
open Calendar Chain

variable {r r' : Registry} {now : Timestamp} {g : GroupId} {p : ProjectId} {q : PointerId}

/-! ### Groups -/

theorem createGroup_ok {request : NewGroup} {group : Group}
    (h : r.createGroup now request = .ok (group, r')) :
    r.hasGroupNamed request.name = false ∧ ∃ id, r.nextGroupId? = some id ∧
      group = Group.create id request.name request.tag request.description now ∧
      r' = r.insertGroup group := by
  unfold createGroup at h
  rw [check_eq_ok, Bool.not_eq_true] at h
  obtain ⟨hname, h⟩ := h
  cases hid : r.nextGroupId? with
  | none => simp [hid, throw_eq_ok] at h
  | some id =>
      simp only [hid, pure_eq_ok, Prod.mk.injEq] at h
      obtain ⟨rfl, rfl⟩ := h
      exact ⟨hname, id, rfl, rfl, rfl⟩

theorem deleteGroup_ok {hard : Bool} {group : Group}
    (h : r.deleteGroup g hard = .ok (group, r')) :
    r.group? g = some group ∧ g ≠ securedGroupId ∧
      r' = if hard then r.eraseGroup group
        else group.projects.toList.foldl (insertProject · securedGroupId) (r.eraseGroup group) := by
  unfold deleteGroup at h
  cases hg : r.group? g with
  | none => simp [hg, throw_eq_ok] at h
  | some found =>
      simp only [hg, check_eq_ok] at h
      obtain ⟨hne, h⟩ := h
      split at h <;> rename_i hhard <;> simp only [pure_eq_ok, Prod.mk.injEq] at h <;>
        obtain ⟨rfl, rfl⟩ := h
      · exact ⟨rfl, hne, (if_pos hhard).symm⟩
      · exact ⟨rfl, hne, (if_neg hhard).symm⟩

theorem editGroup_ok {edit : Edit} {group : Group}
    (h : r.editGroup now g edit = .ok (group, r')) :
    ∃ former, r.group? g = some former ∧
      edit.Permitted (g = securedGroupId) (r.groups.namesBeside g Group.name) ∧
      group = former.edited now edit ∧ r' = r.modifyGroup g (·.edited now edit) := by
  unfold editGroup at h
  cases hg : r.group? g with
  | none => simp [hg, throw_eq_ok] at h
  | some former =>
      simp only [hg, bind_eq_ok, pure_eq_ok, Prod.mk.injEq, checkGroupEdit_eq] at h
      obtain ⟨_, hcheck, rfl, rfl⟩ := h
      exact ⟨former, rfl, Edit.permitted_of_check hcheck, rfl, rfl⟩

/-! ### Projects -/

theorem createProject_ok {request : NewProject} {project : Project}
    (h : r.createProject now request = .ok (project, r')) :
    ∃ group id, r.group? request.group = some group ∧
      group.hasProjectNamed request.name = false ∧ r.nextProjectId? = some id ∧
      project = Project.create id request.name request.tag request.description now ∧
      r' = r.insertProject request.group project := by
  unfold createProject at h
  cases hg : r.group? request.group with
  | none => simp [hg, throw_eq_ok] at h
  | some group =>
      simp only [hg, check_eq_ok, Bool.not_eq_true] at h
      obtain ⟨hname, h⟩ := h
      cases hid : r.nextProjectId? with
      | none => simp [hid, throw_eq_ok] at h
      | some id =>
          simp only [hid, pure_eq_ok, Prod.mk.injEq] at h
          obtain ⟨rfl, rfl⟩ := h
          exact ⟨group, id, rfl, hname, rfl, rfl, rfl⟩

theorem rehome_ok {pointers : List Pointer} (h : r.rehome pointers = .ok r') :
    ∃ secured adopted, r.project? securedProjectId = some secured ∧
      secured.adoptAll? pointers = some adopted ∧
      r' = r.modifyProject securedProjectId fun _ => adopted := by
  unfold rehome at h
  cases hs : r.project? securedProjectId with
  | none => simp [hs, throw_eq_ok] at h
  | some secured =>
      simp only [hs] at h
      cases ha : secured.adoptAll? pointers with
      | none => simp [ha, throw_eq_ok] at h
      | some adopted =>
          simp only [ha, pure_eq_ok] at h
          exact ⟨secured, adopted, rfl, ha, h.symm⟩

/-- The secured project is left alone; any other project is taken out, and its pointers come to the
secured project if the removal is soft. -/
theorem deleteProject_ok {hard : Bool} {removed : Option Project}
    (h : r.deleteProject g p hard = .ok (removed, r')) :
    ∃ group, r.group? g = some group ∧ p ∈ group.projects.keys ∧
      (p = securedProjectId ∧ removed = none ∧ r' = r ∨
        p ≠ securedProjectId ∧ ∃ owner project, r.ownerOf? p = some owner ∧
          r.project? p = some project ∧ removed = some project ∧
          ((hard = true ∨ project.pointers.toList = []) ∧ r' = r.eraseProject owner p ∨
            hard = false ∧ project.pointers.toList ≠ [] ∧
              (r.eraseProject owner p).rehome project.pointers.toList = .ok r')) := by
  unfold deleteProject at h
  cases hg : r.group? g with
  | none => simp [hg, throw_eq_ok] at h
  | some group =>
      simp only [hg, check_eq_ok, not_not, Listing.contains_iff] at h
      obtain ⟨hp, h⟩ := h
      refine ⟨group, rfl, hp, ?_⟩
      split at h
      · rename_i hsecured
        simp only [pure_eq_ok, Prod.mk.injEq] at h
        exact .inl ⟨hsecured, h.1.symm, h.2.symm⟩
      · rename_i hsecured
        refine .inr ⟨hsecured, ?_⟩
        cases howner : r.ownerOf? p with
        | none => simp [howner, throw_eq_ok] at h
        | some owner =>
            cases hproject : r.project? p with
            | none => simp [howner, hproject, throw_eq_ok] at h
            | some project =>
                simp only [howner, hproject] at h
                split at h
                · rename_i hard_or_empty
                  simp only [pure_eq_ok, Prod.mk.injEq] at h
                  exact ⟨owner, project, rfl, rfl, h.1.symm, .inl ⟨hard_or_empty, h.2.symm⟩⟩
                · rename_i hsoft
                  rw [not_or, Bool.not_eq_true] at hsoft
                  simp only [bind_eq_ok, pure_eq_ok, Prod.mk.injEq] at h
                  obtain ⟨r'', hrehome, rfl, rfl⟩ := h
                  exact ⟨owner, project, rfl, rfl, rfl, .inr ⟨hsoft.1, hsoft.2, hrehome⟩⟩

theorem editProject_ok {edit : Edit} {project : Project}
    (h : r.editProject now p edit = .ok (project, r')) :
    ∃ former, r.project? p = some former ∧
      edit.Permitted (p = securedProjectId) (r.namesBeside p) ∧
      project = former.edited now edit ∧ r' = r.modifyProject p (·.edited now edit) := by
  unfold editProject at h
  cases hp : r.project? p with
  | none => simp [hp, throw_eq_ok] at h
  | some former =>
      simp only [hp, bind_eq_ok, pure_eq_ok, Prod.mk.injEq, checkProjectEdit_eq] at h
      obtain ⟨_, hcheck, rfl, rfl⟩ := h
      exact ⟨former, rfl, Edit.permitted_of_check hcheck, rfl, rfl⟩

/-! ### Pointers -/

theorem createPointer_ok {request : NewPointer} {pointer : Pointer}
    (h : r.createPointer request = .ok (pointer, r')) :
    ∃ project adopted, r.project? request.project = some project ∧
      r.containsPipeline request.pipeline = false ∧
      project.hasPointerNamed request.name = false ∧
      project.adopt? (requestedPointer request) = some (pointer, adopted) ∧
      r' = r.modifyProject request.project fun _ => adopted := by
  unfold createPointer at h
  cases hp : r.project? request.project with
  | none => simp [hp, throw_eq_ok] at h
  | some project =>
      simp only [hp, check_eq_ok, Bool.not_eq_true] at h
      obtain ⟨hpipeline, hname, h⟩ := h
      cases ha : project.adopt? (requestedPointer request) with
      | none => simp [ha, throw_eq_ok] at h
      | some adopted =>
          simp only [ha, pure_eq_ok, Prod.mk.injEq] at h
          obtain ⟨rfl, rfl⟩ := h
          exact ⟨project, adopted.2, rfl, hpipeline, hname, ha, rfl⟩

theorem addressed_ok {project : Project} {pointer : Pointer}
    (h : r.addressed p q = .ok (project, pointer)) :
    r.project? p = some project ∧ project.pointers.get? q = some pointer := by
  unfold addressed at h
  cases hp : r.project? p with
  | none => simp [hp, throw_eq_ok] at h
  | some found =>
      simp only [hp] at h
      cases hq : found.pointers.get? q with
      | none => simp [hq, throw_eq_ok] at h
      | some pointer' =>
          simp only [hq, pure_eq_ok, Prod.mk.injEq] at h
          obtain ⟨rfl, rfl⟩ := h
          exact ⟨rfl, hq⟩

theorem deletePointer_ok {pointer : Pointer}
    (h : r.deletePointer p q = .ok (pointer, r')) :
    ∃ project, r.project? p = some project ∧ project.pointers.get? q = some pointer ∧
      r' = r.modifyProject p fun project =>
        { project with pointers := project.pointers.erase q } := by
  simp only [deletePointer, bind_eq_ok, pure_eq_ok, Prod.mk.injEq] at h
  obtain ⟨⟨project, found⟩, haddressed, rfl, rfl⟩ := h
  obtain ⟨hp, hq⟩ := addressed_ok haddressed
  exact ⟨project, hp, hq, rfl⟩

theorem editPointer_ok {edit : Edit} {pointer : Pointer}
    (h : r.editPointer p q edit = .ok (pointer, r')) :
    ∃ project former, r.project? p = some project ∧ project.pointers.get? q = some former ∧
      edit.Permitted False (project.pointers.namesBeside q Pointer.name) ∧
      pointer = former.edited edit ∧
      r' = r.modifyProject p fun project =>
        { project with pointers := project.pointers.modify q (·.edited edit) } := by
  simp only [editPointer, bind_eq_ok, pure_eq_ok, Prod.mk.injEq, checkPointerEdit_eq] at h
  obtain ⟨⟨project, former⟩, haddressed, _, hcheck, rfl, rfl⟩ := h
  obtain ⟨hp, hq⟩ := addressed_ok haddressed
  exact ⟨project, former, hp, hq, Edit.permitted_of_check hcheck, rfl, rfl⟩

/-! ### All operations -/

/-- The operation makes `r'` of `r`, and it is given as the function that does it. -/
def Makes (now : Timestamp) (r r' : Registry) : Operation → Prop
  | .createGroup request => ∃ group, r.createGroup now request = .ok (group, r')
  | .createProject request => ∃ project, r.createProject now request = .ok (project, r')
  | .createPointer request => ∃ pointer, r.createPointer request = .ok (pointer, r')
  | .deleteGroup g hard => ∃ group, r.deleteGroup g hard = .ok (group, r')
  | .deleteProject g p hard => ∃ removed, r.deleteProject g p hard = .ok (removed, r')
  | .deletePointer p q => ∃ pointer, r.deletePointer p q = .ok (pointer, r')
  | .editGroup g edit => ∃ group, r.editGroup now g edit = .ok (group, r')
  | .editProject p edit => ∃ project, r.editProject now p edit = .ok (project, r')
  | .editPointer p q edit => ∃ pointer, r.editPointer p q edit = .ok (pointer, r')

theorem makes_of_perform {operation : Operation} {outcome : Outcome}
    (h : operation.perform now r = .ok (outcome, r')) : Makes now r r' operation := by
  cases operation <;> simp only [Operation.perform, map_eq_ok, Prod.map, id_eq,
    Prod.mk.injEq] at h <;> obtain ⟨⟨entity, r''⟩, h, -, rfl⟩ := h <;> exact ⟨entity, h⟩

end PipelineRegistry.Registry
