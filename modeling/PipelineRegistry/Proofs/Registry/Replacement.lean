import Mathlib
import PipelineRegistry.Proofs.Registry.Preservation
import PipelineRegistry.Proofs.Registry.Lookup

/-! # One entity in the place of another

A change in its place puts another entity where one was.  Everything else stays where it is and as it
is: the entities that hold it but for this one entry of theirs, the entities beside it, their order, and
the index of owners. -/

namespace PipelineRegistry.Registry

variable {r r' : Registry} {g : GroupId} {p : ProjectId} {q : PointerId} {group : Group}
  {project : Project} {pointer : Pointer}

/-! ### Groups -/

/-- `r'` is `r` with `group` in the place of group `g`, and with the same projects in it. -/
structure ReplacesGroup (r r' : Registry) (g : GroupId) (group : Group) : Prop where
  groups : r'.groups.toList = r.groups.toList.map fun x => if x.id = g then group else x
  owner : ∀ p, r'.ownerOf? p = r.ownerOf? p
  found : r'.group? g = some group
  other_group : ∀ x, x ≠ g → r'.group? x = r.group? x
  project : ∀ p, r'.project? p = r.project? p

theorem group?_modifyGroup {f : Group → Group} (hid : ∀ x, (f x).id = x.id) (r : Registry)
    (g x : GroupId) :
    (r.modifyGroup g f).group? x = if x = g then (r.group? g).map f else r.group? x :=
  Listing.get?_modify (fun y hy => (hid y).trans hy) x

theorem Valid.replacesGroup (hr : r.Valid) (hgroup : r.group? g = some group) {f : Group → Group}
    (hid : ∀ x, (f x).id = x.id) (hprojects : ∀ x, (f x).projects = x.projects) :
    r.ReplacesGroup (r.modifyGroup g f) g (f group) := by
  constructor
  case groups => exact congrArg Listing.toList (Listing.modify_eq_const hr.group_keys hgroup f)
  case owner => exact fun _ => rfl
  case found => rw [group?_modifyGroup hid, if_pos rfl, hgroup, Option.map_some]
  case other_group =>
    intro x hx
    rw [group?_modifyGroup hid, if_neg hx]
  case project =>
    intro p
    simp only [project?, ownerOf?_modifyGroup, group?_modifyGroup hid]
    cases r.ownerOf? p with
    | none => rfl
    | some x =>
        by_cases hx : x = g
        · subst hx
          simp [hgroup, hprojects]
        · simp [hx]

/-! ### Projects -/

/-- `r'` is `r` with `project` in the place of project `p`. -/
structure ReplacesProject (r r' : Registry) (p : ProjectId) (project : Project) : Prop where
  groups : r'.groups.toList = r.groups.toList.map fun group =>
    { group with projects := ⟨group.projects.toList.map fun x => if x.id = p then project else x⟩ }
  owner : ∀ x, r'.ownerOf? x = r.ownerOf? x
  found : r'.project? p = some project
  other_project : ∀ x, x ≠ p → r'.project? x = r.project? x

theorem Valid.replacesProject (hr : r.Valid) (hproject : r.project? p = some project)
    {f : Project → Project} (hid : ∀ x, (f x).id = x.id) :
    r.ReplacesProject (r.modifyProject p f) p (f project) := by
  constructor
  case groups =>
    have hcongr : r.modifyProject p f = r.modifyProject p fun _ => f project :=
      hr.modifyProject_congr hproject rfl
    rw [hcongr, hr.groups_modifyProject]
    rfl
  case owner => exact fun x => ownerOf?_modifyProject r p f x
  case found => rw [hr.project?_modifyProject hid, if_pos rfl, hproject, Option.map_some]
  case other_project =>
    intro x hx
    rw [hr.project?_modifyProject hid, if_neg hx]

/-! ### Pointers -/

/-- `r'` is `r` with `pointer` in the place of pointer `q` of project `p`. -/
structure ReplacesPointer (r r' : Registry) (p : ProjectId) (q : PointerId) (pointer : Pointer) :
    Prop where
  groups : r'.groups.toList = r.groups.toList.map fun group =>
    { group with projects := ⟨group.projects.toList.map fun x => if x.id = p
        then { x with pointers := ⟨x.pointers.toList.map fun y => if y.id = q then pointer else y⟩ }
        else x⟩ }
  owner : ∀ x, r'.ownerOf? x = r.ownerOf? x
  found : r'.pointer? p q = some pointer
  other_pointer : ∀ x y, (x, y) ≠ (p, q) → r'.pointer? x y = r.pointer? x y

theorem Valid.replacesPointer (hr : r.Valid) (hproject : r.project? p = some project)
    (hpointer : project.pointers.get? q = some pointer) {f : Pointer → Pointer}
    (hid : ∀ x, (f x).id = x.id) :
    r.ReplacesPointer (r.modifyProject p fun project =>
      { project with pointers := project.pointers.modify q f }) p q (f pointer) := by
  have hreplaces := hr.replacesProject hproject
    (f := fun project => { project with pointers := project.pointers.modify q f }) fun _ => rfl
  have hkeys := (hr.valid_of_project? hproject).pointer_keys
  have hget : ∀ y, (project.pointers.modify q f).get? y =
      if y = q then some (f pointer) else project.pointers.get? y := by
    intro y
    rw [Listing.get?_modify fun x hx => (hid x).trans hx, hpointer, Option.map_some]
  constructor
  case groups =>
    have hpointers := Listing.modify_eq_const hkeys hpointer f
    have hcongr : (r.modifyProject p fun x => { x with pointers := x.pointers.modify q f }) =
        r.modifyProject p fun x => { x with pointers := x.pointers.modify q fun _ => f pointer } :=
      hr.modifyProject_congr hproject (congrArg (fun pointers => { project with pointers }) hpointers)
    rw [hcongr, hr.groups_modifyProject]
    rfl
  case owner => exact hreplaces.owner
  case found =>
    rw [pointer?, hreplaces.found]
    exact (hget q).trans (if_pos rfl)
  case other_pointer =>
    intro x y hxy
    rw [pointer?, pointer?]
    by_cases hx : x = p
    · subst hx
      rw [hreplaces.found, hproject]
      exact (hget y).trans (if_neg fun hy => hxy (congrArg _ hy))
    · rw [hreplaces.other_project x hx]

end PipelineRegistry.Registry
