import Mathlib
import PipelineRegistry.Proofs.Listing
import PipelineRegistry.Registry.Operation

/-! # When an edit is allowed

Only another name may be refused: what is secured keeps the reserved name, and no name is given to two
siblings.  Groups, projects and pointers are checked alike; they differ in what is secured and in what
their siblings are. -/

namespace PipelineRegistry

/-! ### The check -/

/-- Whether an entity may be edited that has siblings with these names. -/
def Edit.check (edit : Edit) (kind : EntityKind) (id : UInt64) (secured : Prop) [Decidable secured]
    (siblings : List String) : Except RegistryError Unit :=
  match edit with
  | .rename name =>
      if secured ∧ name ≠ securedName then .error (.securedEntity kind id)
      else if name ∈ siblings then .error (.nameConflict kind name) else .ok ()
  | .tag _ | .describe _ => .ok ()

/-- No name is set, or one that the entity may have beside siblings with these names. -/
def Edit.Permitted (edit : Edit) (secured : Prop) (siblings : List String) : Prop :=
  ∀ name, edit = .rename name → (secured → name = securedName) ∧ name ∉ siblings

section check

variable {edit : Edit} {kind : EntityKind} {id : UInt64} {secured : Prop} [Decidable secured]
  {siblings : List String} {name : String}

theorem Edit.check_of_secured (hsecured : secured) (hname : name ≠ securedName) :
    (rename name).check kind id secured siblings = .error (.securedEntity kind id) :=
  if_pos ⟨hsecured, hname⟩

theorem Edit.check_of_taken (hname : secured → name = securedName) (htaken : name ∈ siblings) :
    (rename name).check kind id secured siblings = .error (.nameConflict kind name) :=
  (if_neg fun h => h.2 (hname h.1)).trans (if_pos htaken)

theorem Edit.check_of_permitted (h : edit.Permitted secured siblings) :
    edit.check kind id secured siblings = .ok () := by
  cases edit with
  | rename name =>
      obtain ⟨hname, hfree⟩ := h name rfl
      exact (if_neg fun h => h.2 (hname h.1)).trans (if_neg hfree)
  | tag value => rfl
  | describe value => rfl

theorem Edit.permitted_of_check (h : edit.check kind id secured siblings = .ok ()) :
    edit.Permitted secured siblings := by
  rintro name rfl
  by_cases hsecured : secured ∧ name ≠ securedName
  · rw [check_of_secured hsecured.1 hsecured.2] at h
    cases h
  · have hname : secured → name = securedName := fun hs => not_not.mp fun hne => hsecured ⟨hs, hne⟩
    refine ⟨hname, fun htaken => ?_⟩
    rw [check_of_taken hname htaken] at h
    cases h

/-- A refused edit has offended against a rule of the registry. -/
theorem Edit.reason?_of_check {e : RegistryError} (h : edit.check kind id secured siblings = .error e) :
    e.reason?.isSome := by
  cases edit with
  | rename name =>
      simp only [check] at h
      split_ifs at h <;> cases h <;> rfl
  | tag value => cases h
  | describe value => cases h

end check

/-! ### Siblings -/

namespace Listing

variable {α κ : Type} [Keyed α κ] [DecidableEq κ]

/-- The names of the entities beside the one under `k`. -/
def namesBeside (l : Listing α) (k : κ) (name : α → String) : List String :=
  (l.erase k).toList.map name

theorem mem_namesBeside {l : Listing α} {k : κ} {name : α → String} {taken : String} :
    taken ∈ l.namesBeside k name ↔ ∃ x ∈ l.toList, Keyed.key x ≠ k ∧ name x = taken := by
  simp [namesBeside, and_assoc]

theorem any_iff_mem_namesBeside {l : Listing α} {k : κ} {name : α → String} {taken : String} :
    (l.toList.any fun x => Keyed.key x ≠ k ∧ name x = taken) = true ↔ taken ∈ l.namesBeside k name := by
  simp [mem_namesBeside]

end Listing

namespace Registry

variable {r : Registry} {p : ProjectId} {group : Group}

/-- The names of the projects beside project `p` in its group. -/
def namesBeside (r : Registry) (p : ProjectId) : List String :=
  ((r.ownerOf? p).bind r.group?).elim [] (·.projects.namesBeside p Project.name)

theorem namesBeside_eq (hgroup : (r.ownerOf? p).bind r.group? = some group) :
    r.namesBeside p = group.projects.namesBeside p Project.name := by
  rw [namesBeside, hgroup, Option.elim_some]

theorem checkGroupEdit_eq (r : Registry) (g : GroupId) (edit : Edit) : r.checkGroupEdit g edit =
    edit.check .group g (g = securedGroupId) (r.groups.namesBeside g Group.name) := by
  cases edit with
  | rename name =>
      have htaken : (r.groups.toList.any fun other => other.id ≠ g ∧ other.name = name) = true ↔
        name ∈ r.groups.namesBeside g Group.name := Listing.any_iff_mem_namesBeside
      simp only [checkGroupEdit, Edit.check, htaken]
      split_ifs <;> rfl
  | tag value => rfl
  | describe value => rfl

theorem checkProjectEdit_eq (r : Registry) (p : ProjectId) (edit : Edit) : r.checkProjectEdit p edit =
    edit.check .project p (p = securedProjectId) (r.namesBeside p) := by
  cases edit with
  | rename name =>
      have htaken : ((((r.ownerOf? p).bind r.group?).elim [] (·.projects.toList)).any
          fun other => other.id ≠ p ∧ other.name = name) = true ↔ name ∈ r.namesBeside p := by
        unfold namesBeside
        cases (r.ownerOf? p).bind r.group? with
        | none => simp
        | some group => exact Listing.any_iff_mem_namesBeside
      simp only [checkProjectEdit, Edit.check, htaken]
      split_ifs <;> rfl
  | tag value => rfl
  | describe value => rfl

theorem checkPointerEdit_eq (project : Project) (q : PointerId) (edit : Edit) :
    checkPointerEdit project q edit =
      edit.check .pointer q False (project.pointers.namesBeside q Pointer.name) := by
  cases edit with
  | rename name =>
      have htaken : (project.pointers.toList.any fun other => other.id ≠ q ∧ other.name = name) = true ↔
        name ∈ project.pointers.namesBeside q Pointer.name := Listing.any_iff_mem_namesBeside
      simp only [checkPointerEdit, Edit.check, htaken, false_and, if_false]
      split_ifs <;> rfl
  | tag value => rfl
  | describe value => rfl

end Registry
end PipelineRegistry
