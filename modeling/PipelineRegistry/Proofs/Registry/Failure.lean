import Mathlib
import PipelineRegistry.Proofs.Registry.Removal

/-! # Why operations fail

An operation fails because it offends against a rule of the registry, and then its failure has a reason,
or because no identifier is left for what it creates or moves (`Lacks`). -/

namespace PipelineRegistry.Registry

open Calendar Chain

variable {r : Registry} {now : Timestamp} {g : GroupId} {p : ProjectId} {q : PointerId}
  {edit : Edit} {e : RegistryError}

/-! ### Creations -/

theorem createGroup_error {request : NewGroup} (h : r.createGroup now request = .error e) :
    e.reason?.isSome ∨ e = .idsExhausted .group ∧ r.nextGroupId? = none := by
  unfold createGroup at h
  rcases check_eq_error.mp h with ⟨-, rfl⟩ | ⟨-, h⟩
  · exact .inl rfl
  · cases hid : r.nextGroupId? with
    | none =>
        simp only [hid, throw_eq_error] at h
        exact .inr ⟨h.symm, rfl⟩
    | some id => simp [hid, pure_eq_error] at h

theorem createProject_error {request : NewProject} (h : r.createProject now request = .error e) :
    e.reason?.isSome ∨ e = .idsExhausted .project ∧ r.nextProjectId? = none := by
  unfold createProject at h
  split at h
  · rcases check_eq_error.mp h with ⟨-, rfl⟩ | ⟨-, h⟩
    · exact .inl rfl
    · cases hid : r.nextProjectId? with
      | none =>
          simp only [hid, throw_eq_error] at h
          exact .inr ⟨h.symm, rfl⟩
      | some id => simp [hid, pure_eq_error] at h
  · cases h
    exact .inl rfl

theorem createPointer_error {request : NewPointer} (h : r.createPointer request = .error e) :
    e.reason?.isSome ∨ e = .idsExhausted .pointer ∧
      ∃ project, r.project? request.project = some project ∧ project.nextPointerId + 1 = 0 := by
  unfold createPointer at h
  split at h
  · rename_i project hproject
    rcases check_eq_error.mp h with ⟨-, rfl⟩ | ⟨-, h⟩
    · exact .inl rfl
    rcases check_eq_error.mp h with ⟨-, rfl⟩ | ⟨-, h⟩
    · exact .inl rfl
    split at h
    · cases h
    · rename_i hadopt
      cases h
      refine .inr ⟨rfl, project, hproject, ?_⟩
      by_contra hnext
      exact hadopt _ _ (Project.adopt?_eq_some_iff.mpr ⟨hnext, rfl, rfl⟩)
  · cases h
    exact .inl rfl

/-! ### Removals -/

theorem deleteGroup_error {hard : Bool} (h : r.deleteGroup g hard = .error e) :
    e.reason?.isSome := by
  cases hgroup : r.group? g with
  | none =>
      rw [deleteGroup_of_group?_eq_none hgroup] at h
      cases h
      rfl
  | some group =>
      by_cases hg : g = securedGroupId
      · subst hg
        rw [deleteGroup_secured hgroup] at h
        cases h
        rfl
      · rw [deleteGroup_eq hgroup hg] at h
        cases h

theorem Valid.deleteProject_error (hr : r.Valid) {hard : Bool}
    (h : r.deleteProject g p hard = .error e) : e.reason?.isSome ∨ e = .idsExhausted .pointer ∧
      p ≠ securedProjectId ∧ ∃ project secured, r.project? p = some project ∧
        r.project? securedProjectId = some secured ∧
        UInt64.size ≤ secured.nextPointerId.toNat + project.pointers.size := by
  cases hgroup : r.group? g with
  | none =>
      rw [deleteProject_of_group?_eq_none hgroup] at h
      cases h
      exact .inl rfl
  | some group =>
      cases hproject : group.projects.get? p with
      | none =>
          rw [deleteProject_of_not_mem hgroup (Listing.get?_eq_none_iff.mp hproject)] at h
          cases h
          exact .inl rfl
      | some project =>
          have hmem := Listing.mem_keys_of_get? hproject
          by_cases hp : p = securedProjectId
          · subst hp
            rw [deleteProject_secured hgroup hmem] at h
            cases h
          · obtain ⟨secured, hsecured⟩ := hr.exists_securedProject
            have hfound := (project?_eq_some (hr.ownerOf?_of_mem_keys hgroup hmem) hgroup).trans hproject
            rw [hr.deleteProject_eq hgroup hproject hp hsecured] at h
            split at h
            · cases h
            · rename_i hfit
              cases h
              rw [not_or, not_lt] at hfit
              exact .inr ⟨rfl, hp, project, secured, hfound, hsecured, hfit.2⟩

theorem addressed_error (h : r.addressed p q = .error e) : e.reason?.isSome := by
  unfold addressed at h
  split at h
  · split at h
    · cases h
    · cases h
      rfl
  · cases h
    rfl

theorem deletePointer_error (h : r.deletePointer p q = .error e) : e.reason?.isSome := by
  unfold deletePointer at h
  rcases bind_eq_error.mp h with h | ⟨_, _, h⟩
  · exact addressed_error h
  · cases h

/-! ### Edits -/

theorem editGroup_error (h : r.editGroup now g edit = .error e) : e.reason?.isSome := by
  unfold editGroup at h
  split at h
  · rcases bind_eq_error.mp h with h | ⟨_, _, h⟩
    · rw [checkGroupEdit_eq] at h
      exact Edit.reason?_of_check h
    · cases h
  · cases h
    rfl

theorem editProject_error (h : r.editProject now p edit = .error e) : e.reason?.isSome := by
  unfold editProject at h
  split at h
  · rcases bind_eq_error.mp h with h | ⟨_, _, h⟩
    · rw [checkProjectEdit_eq] at h
      exact Edit.reason?_of_check h
    · cases h
  · cases h
    rfl

theorem editPointer_error (h : r.editPointer p q edit = .error e) : e.reason?.isSome := by
  unfold editPointer at h
  rcases bind_eq_error.mp h with h | ⟨_, _, h⟩
  · exact addressed_error h
  · rcases bind_eq_error.mp h with h | ⟨_, _, h⟩
    · rw [checkPointerEdit_eq] at h
      exact Edit.reason?_of_check h
    · cases h

/-! ### All operations -/

/-- No identifier of this kind is left for what the operation creates or moves. -/
def Lacks (r : Registry) (kind : EntityKind) : Operation → Prop
  | .createGroup _ => kind = .group ∧ r.nextGroupId? = none
  | .createProject _ => kind = .project ∧ r.nextProjectId? = none
  | .createPointer request => kind = .pointer ∧
      ∃ project, r.project? request.project = some project ∧ project.nextPointerId + 1 = 0
  | .deleteProject _ p _ => kind = .pointer ∧ p ≠ securedProjectId ∧
      ∃ project secured, r.project? p = some project ∧ r.project? securedProjectId = some secured ∧
        UInt64.size ≤ secured.nextPointerId.toNat + project.pointers.size
  | _ => False

/-- An operation fails for a reason or for lack of an identifier. -/
theorem Valid.perform_error (hr : r.Valid) {operation : Operation}
    (h : operation.perform now r = .error e) :
    e.reason?.isSome ∨ ∃ kind, e = .idsExhausted kind ∧ r.Lacks kind operation := by
  cases operation <;> simp only [Operation.perform, map_eq_error] at h
  case createGroup => exact (createGroup_error h).imp_right fun h => ⟨_, h.1, rfl, h.2⟩
  case createProject => exact (createProject_error h).imp_right fun h => ⟨_, h.1, rfl, h.2⟩
  case createPointer => exact (createPointer_error h).imp_right fun h => ⟨_, h.1, rfl, h.2⟩
  case deleteGroup => exact .inl (deleteGroup_error h)
  case deleteProject => exact (hr.deleteProject_error h).imp_right fun h => ⟨_, h.1, rfl, h.2⟩
  case deletePointer => exact .inl (deletePointer_error h)
  case editGroup => exact .inl (editGroup_error h)
  case editProject => exact .inl (editProject_error h)
  case editPointer => exact .inl (editPointer_error h)

end PipelineRegistry.Registry
