import Mathlib
import PipelineRegistry.Proofs.Registry.Replacement

/-! # Edits

An edit that is allowed sets one of the three labels of an entity, its name, its tag or its description,
and records the time in groups and projects.  It puts the edited entity in the place of the former one. -/

namespace PipelineRegistry

open Calendar

/-! ### Labels -/

/-- The labels of an entity. -/
structure Labels where
  name : String
  tag : Option String
  description : Option String

/-- The labels after an edit: the one that it sets, and the others as they were. -/
def Edit.relabel (labels : Labels) : Edit → Labels
  | .rename name => { labels with name }
  | .tag value => { labels with tag := some value }
  | .describe value => { labels with description := some value }

/-- The labels of a group. -/
def Group.labels (g : Group) : Labels := ⟨g.name, g.tag, g.description⟩

/-- The labels of a project. -/
def Project.labels (p : Project) : Labels := ⟨p.name, p.tag, p.description⟩

/-- The labels of a pointer. -/
def Pointer.labels (q : Pointer) : Labels := ⟨q.name, q.tag, q.description⟩

/-- `g'` is `g` after an edit at the time `now`. -/
structure Group.EditedTo (g : Group) (now : Timestamp) (edit : Edit) (g' : Group) : Prop where
  labels : g'.labels = edit.relabel g.labels
  modified : g'.modified = some now
  other : { g' with
    name := g.name, tag := g.tag, description := g.description, modified := g.modified } = g

/-- `p'` is `p` after an edit at the time `now`. -/
structure Project.EditedTo (p : Project) (now : Timestamp) (edit : Edit) (p' : Project) : Prop where
  labels : p'.labels = edit.relabel p.labels
  modified : p'.modified = some now
  other : { p' with
    name := p.name, tag := p.tag, description := p.description, modified := p.modified } = p

/-- `q'` is `q` after an edit. -/
structure Pointer.EditedTo (q : Pointer) (edit : Edit) (q' : Pointer) : Prop where
  labels : q'.labels = edit.relabel q.labels
  other : { q' with name := q.name, tag := q.tag, description := q.description } = q

theorem Group.editedTo (g : Group) (now : Timestamp) (edit : Edit) :
    g.EditedTo now edit (g.edited now edit) := by
  cases edit <;> exact ⟨rfl, rfl, rfl⟩

theorem Project.editedTo (p : Project) (now : Timestamp) (edit : Edit) :
    p.EditedTo now edit (p.edited now edit) := by
  cases edit <;> exact ⟨rfl, rfl, rfl⟩

theorem Pointer.editedTo (q : Pointer) (edit : Edit) : q.EditedTo edit (q.edited edit) := by
  cases edit <;> exact ⟨rfl, rfl⟩

namespace Registry

variable {r : Registry} {g : GroupId} {p : ProjectId} {q : PointerId} {group : Group}
  {project : Project} {pointer : Pointer}

/-! ### Groups -/

theorem editGroup_of_group?_eq_none (hgroup : r.group? g = none) (now : Timestamp) (edit : Edit) :
    r.editGroup now g edit = .error (.notFound .group g) := by
  unfold editGroup
  simp only [hgroup]
  rfl

theorem editGroup_eq (hgroup : r.group? g = some group) (now : Timestamp) (edit : Edit) :
    r.editGroup now g edit =
      (edit.check .group g (g = securedGroupId) (r.groups.namesBeside g Group.name)).map fun _ =>
        (group.edited now edit, r.modifyGroup g (·.edited now edit)) := by
  unfold editGroup
  rw [checkGroupEdit_eq]
  simp only [hgroup]
  rfl

theorem Valid.editGroup_replaces (hr : r.Valid) (hgroup : r.group? g = some group) (now : Timestamp)
    (edit : Edit) :
    r.ReplacesGroup (r.modifyGroup g (·.edited now edit)) g (group.edited now edit) :=
  hr.replacesGroup hgroup (fun x => x.id_edited now edit) fun x => x.projects_edited now edit

/-! ### Projects -/

theorem editProject_of_project?_eq_none (hproject : r.project? p = none) (now : Timestamp)
    (edit : Edit) : r.editProject now p edit = .error (.notFound .project p) := by
  unfold editProject
  simp only [hproject]
  rfl

theorem editProject_eq (hgroup : (r.ownerOf? p).bind r.group? = some group)
    (hproject : r.project? p = some project) (now : Timestamp) (edit : Edit) :
    r.editProject now p edit =
      (edit.check .project p (p = securedProjectId) (group.projects.namesBeside p Project.name)).map
        fun _ => (project.edited now edit, r.modifyProject p (·.edited now edit)) := by
  unfold editProject
  rw [checkProjectEdit_eq, namesBeside_eq hgroup]
  simp only [hproject]
  rfl

theorem Valid.editProject_replaces (hr : r.Valid) (hproject : r.project? p = some project)
    (now : Timestamp) (edit : Edit) :
    r.ReplacesProject (r.modifyProject p (·.edited now edit)) p (project.edited now edit) :=
  hr.replacesProject hproject fun x => x.id_edited now edit

/-! ### Pointers -/

theorem editPointer_of_project?_eq_none (hproject : r.project? p = none) (q : PointerId)
    (edit : Edit) : r.editPointer p q edit = .error (.notFound .project p) := by
  unfold editPointer addressed
  simp only [hproject]
  rfl

theorem editPointer_of_get?_eq_none (hproject : r.project? p = some project)
    (hpointer : project.pointers.get? q = none) (edit : Edit) :
    r.editPointer p q edit = .error (.notFound .pointer q) := by
  unfold editPointer addressed
  simp only [hproject, hpointer]
  rfl

theorem editPointer_eq (hproject : r.project? p = some project)
    (hpointer : project.pointers.get? q = some pointer) (edit : Edit) : r.editPointer p q edit =
      (edit.check .pointer q False (project.pointers.namesBeside q Pointer.name)).map fun _ =>
        (pointer.edited edit, r.modifyProject p fun project =>
          { project with pointers := project.pointers.modify q (·.edited edit) }) := by
  unfold editPointer addressed
  simp only [hproject, hpointer]
  rw [← checkPointerEdit_eq]
  rfl

theorem Valid.editPointer_replaces (hr : r.Valid) (hproject : r.project? p = some project)
    (hpointer : project.pointers.get? q = some pointer) (edit : Edit) :
    r.ReplacesPointer (r.modifyProject p fun project =>
      { project with pointers := project.pointers.modify q (·.edited edit) }) p q (pointer.edited edit) :=
  hr.replacesPointer hproject hpointer fun x => x.id_edited edit

end Registry
end PipelineRegistry
