import Mathlib
import PipelineRegistry.Proofs.Registry.Success

/-! # The times of a registry can be written

Times enter a registry from the clock, from the request for a pointer and from documents.  As long as
these are times that can be written, so are all times of the registry: operations take times from
there or leave them as they are. -/

namespace PipelineRegistry

open Calendar

/-- The times of a pointer can be written. -/
def Pointer.Dated (q : Pointer) : Prop := q.created.IsValid

/-- The times of a project and its pointers can be written. -/
structure Project.Dated (p : Project) : Prop where
  created : p.created.IsValid
  modified : ∀ t ∈ p.modified, t.IsValid
  pointers : ∀ q ∈ p.pointers.toList, q.Dated

/-- The times of a group and all in it can be written. -/
structure Group.Dated (g : Group) : Prop where
  created : g.created.IsValid
  modified : ∀ t ∈ g.modified, t.IsValid
  projects : ∀ p ∈ g.projects.toList, p.Dated

/-- The times of a registry can be written. -/
def Registry.Dated (r : Registry) : Prop := ∀ g ∈ r.groups.toList, g.Dated

/-- The time that a request brings along can be written. -/
def Operation.Dated : Operation → Prop
  | .createPointer request => request.created.IsValid
  | _ => True

instance : (operation : Operation) → Decidable operation.Dated
  | .createPointer request => inferInstanceAs (Decidable request.created.IsValid)
  | .createGroup _ | .createProject _ | .deleteGroup _ _ | .deleteProject _ _ _
  | .deletePointer _ _ | .editGroup _ _ | .editProject _ _ | .editPointer _ _ _ => .isTrue trivial

variable {now : Timestamp}

/-! ### Entities -/

theorem Pointer.Dated.edited {q : Pointer} (hq : q.Dated) (edit : Edit) : (q.edited edit).Dated := by
  cases edit <;> exact hq

namespace Project.Dated

variable {p p' : Project}

theorem create (hnow : now.IsValid) (id : ProjectId) (name : String)
    (tag description : Option String) : (Project.create id name tag description now).Dated :=
  ⟨hnow, nofun, nofun⟩

theorem edited (hp : p.Dated) (hnow : now.IsValid) (edit : Edit) : (p.edited now edit).Dated := by
  have hmodified : ∀ t ∈ some now, t.IsValid := by
    rintro t ⟨⟩
    exact hnow
  cases edit <;> exact ⟨hp.created, hmodified, hp.pointers⟩

theorem adopt? (hp : p.Dated) {q q' : Pointer} (hq : q.Dated) (h : p.adopt? q = some (q', p')) :
    p'.Dated := by
  unfold Project.adopt? at h
  split at h
  · cases h
  · cases h
    exact ⟨hp.created, hp.modified, Listing.forall_insert hp.pointers hq⟩

theorem adoptAll? (hp : p.Dated) {qs : List Pointer} (hqs : ∀ q ∈ qs, q.Dated)
    (h : p.adoptAll? qs = some p') : p'.Dated := by
  induction qs generalizing p with
  | nil =>
      cases h
      exact hp
  | cons q qs ih =>
      rw [List.forall_mem_cons] at hqs
      rw [Project.adoptAll?, Option.bind_eq_some_iff] at h
      obtain ⟨⟨q', p₁⟩, hadopt, h⟩ := h
      exact ih (hp.adopt? hqs.1 hadopt) hqs.2 h

end Project.Dated

namespace Group.Dated

variable {g : Group}

theorem create (hnow : now.IsValid) (id : GroupId) (name : String)
    (tag description : Option String) : (Group.create id name tag description now).Dated :=
  ⟨hnow, nofun, nofun⟩

theorem edited (hg : g.Dated) (hnow : now.IsValid) (edit : Edit) : (g.edited now edit).Dated := by
  have hmodified : ∀ t ∈ some now, t.IsValid := by
    rintro t ⟨⟩
    exact hnow
  cases edit <;> exact ⟨hg.created, hmodified, hg.projects⟩

end Group.Dated

/-! ### Changes -/

namespace Registry

variable {r r' : Registry} {g : GroupId} {p : ProjectId}

theorem Dated.of_group? (hr : r.Dated) {group : Group} (h : r.group? g = some group) :
    group.Dated := hr group (Listing.mem_of_get? h)

theorem Dated.of_project? (hr : r.Dated) {project : Project} (h : r.project? p = some project) :
    project.Dated := by
  obtain ⟨g, -, h⟩ := Option.bind_eq_some_iff.mp h
  obtain ⟨group, hgroup, h⟩ := Option.bind_eq_some_iff.mp h
  exact (hr.of_group? hgroup).projects project (Listing.mem_of_get? h)

theorem Dated.insertGroup (hr : r.Dated) {group : Group} (hgroup : group.Dated) :
    (r.insertGroup group).Dated := Listing.forall_insert hr hgroup

theorem Dated.eraseGroup (hr : r.Dated) (group : Group) : (r.eraseGroup group).Dated :=
  Listing.forall_erase hr group.id

theorem Dated.modifyGroup (hr : r.Dated) {f : Group → Group} (hf : ∀ g, g.Dated → (f g).Dated)
    (g : GroupId) : (r.modifyGroup g f).Dated := Listing.forall_modify hr hf g

theorem Dated.insertProject (hr : r.Dated) {project : Project} (hproject : project.Dated)
    (g : GroupId) : (r.insertProject g project).Dated := by
  refine Listing.forall_modify hr ?_ g
  intro group hgroup
  exact ⟨hgroup.created, hgroup.modified, Listing.forall_insert hgroup.projects hproject⟩

theorem Dated.foldl_insertProject (hr : r.Dated) {projects : List Project}
    (hprojects : ∀ p ∈ projects, p.Dated) (g : GroupId) :
    (projects.foldl (Registry.insertProject · g) r).Dated := by
  induction projects generalizing r with
  | nil => exact hr
  | cons p projects ih =>
      rw [List.forall_mem_cons] at hprojects
      exact ih (hr.insertProject hprojects.1 g) hprojects.2

theorem Dated.eraseProject (hr : r.Dated) (g : GroupId) (p : ProjectId) :
    (r.eraseProject g p).Dated := by
  refine Listing.forall_modify hr ?_ g
  intro group hgroup
  exact ⟨hgroup.created, hgroup.modified, Listing.forall_erase hgroup.projects p⟩

theorem Dated.modifyProject (hr : r.Dated) {f : Project → Project}
    (hf : ∀ p, p.Dated → (f p).Dated) (p : ProjectId) : (r.modifyProject p f).Dated := by
  unfold Registry.modifyProject
  split
  · exact hr
  · refine hr.modifyGroup ?_ _
    intro group hgroup
    exact ⟨hgroup.created, hgroup.modified, Listing.forall_modify hgroup.projects hf p⟩

theorem dated_initial (hnow : now.IsValid) : (initial now).Dated := by
  refine Dated.insertGroup (fun g hg => absurd hg List.not_mem_nil) ⟨hnow, nofun, ?_⟩
  intro p hp
  rw [List.mem_singleton.mp hp]
  exact Project.Dated.create hnow _ _ _ _

/-! ### Operations -/

theorem Dated.deleteProject (hr : r.Dated) {hard : Bool} {removed : Option Project}
    (h : r.deleteProject g p hard = .ok (removed, r')) : r'.Dated := by
  obtain ⟨group, -, -, h⟩ := deleteProject_ok h
  rcases h with ⟨-, -, rfl⟩ | ⟨-, owner, project, -, hproject, -, ⟨-, rfl⟩ | ⟨-, -, hrehome⟩⟩
  · exact hr
  · exact hr.eraseProject owner p
  · have hrest := hr.eraseProject owner p
    obtain ⟨secured, adopted, hsecured, hadopted, rfl⟩ := rehome_ok hrehome
    have hdated := (hrest.of_project? hsecured).adoptAll? (hr.of_project? hproject).pointers hadopted
    exact hrest.modifyProject (fun _ _ => hdated) _

/-- The times of a registry can still be written after an operation. -/
theorem Dated.perform (hr : r.Dated) (hnow : now.IsValid) {operation : Operation}
    (hoperation : operation.Dated) {outcome : Outcome}
    (h : operation.perform now r = .ok (outcome, r')) : r'.Dated := by
  replace h := makes_of_perform h
  cases operation <;> obtain ⟨entity, h⟩ := h
  case createGroup =>
    obtain ⟨-, id, -, rfl, rfl⟩ := createGroup_ok h
    exact hr.insertGroup (Group.Dated.create hnow _ _ _ _)
  case createProject =>
    obtain ⟨group, id, -, -, -, rfl, rfl⟩ := createProject_ok h
    exact hr.insertProject (Project.Dated.create hnow _ _ _ _) _
  case createPointer =>
    obtain ⟨project, adopted, hproject, -, -, hadopted, rfl⟩ := createPointer_ok h
    have hrequested : (requestedPointer _).Dated := hoperation
    have hdated := (hr.of_project? hproject).adopt? hrequested hadopted
    exact hr.modifyProject (fun _ _ => hdated) _
  case deleteGroup =>
    obtain ⟨hgroup, -, rfl⟩ := deleteGroup_ok h
    split
    · exact hr.eraseGroup _
    · exact (hr.eraseGroup _).foldl_insertProject (hr.of_group? hgroup).projects _
  case deleteProject => exact hr.deleteProject h
  case deletePointer =>
    obtain ⟨project, -, -, rfl⟩ := deletePointer_ok h
    refine hr.modifyProject ?_ _
    intro p hp
    exact ⟨hp.created, hp.modified, Listing.forall_erase hp.pointers _⟩
  case editGroup =>
    obtain ⟨former, -, -, -, rfl⟩ := editGroup_ok h
    exact hr.modifyGroup (fun g hg => hg.edited hnow _) _
  case editProject =>
    obtain ⟨former, -, -, -, rfl⟩ := editProject_ok h
    exact hr.modifyProject (fun p hp => hp.edited hnow _) _
  case editPointer =>
    obtain ⟨project, former, -, -, -, -, rfl⟩ := editPointer_ok h
    refine hr.modifyProject ?_ _
    intro p hp
    exact ⟨hp.created, hp.modified, Listing.forall_modify hp.pointers (fun q hq => hq.edited _) _⟩

end Registry
end PipelineRegistry
