import Mathlib
import PipelineRegistry.Proofs.Registry.Lookup

/-! # The index of owners and a scan of all groups

The index of owners is a second record of where projects are.  Without it a project would be found by a
scan of all groups in listing order.  In a valid registry the two never differ, in what is found, in what
is changed and in what is counted. -/

namespace PipelineRegistry.Registry

variable {r : Registry} {p : ProjectId} {group : Group} {project : Project}

/-- The first project with an identifier that a scan of all groups comes to, and the group it is in. -/
def scan? (r : Registry) (p : ProjectId) : Option (GroupId × Project) :=
  r.groups.toList.findSome? fun group =>
    (group.projects.toList.find? fun project => project.id = p).map fun project => (group.id, project)

/-- What the index tells of projects is what a scan tells. -/
structure AgreesWithScan (r : Registry) : Prop where
  project : ∀ p, r.project? p = (r.scan? p).map Prod.snd
  owner : ∀ p, r.ownerOf? p = (r.scan? p).map Prod.fst
  modify : ∀ p f, r.modifyProject p f = { r with
    groups := ⟨r.groups.toList.map fun group => { group with
      projects := ⟨group.projects.toList.map fun project =>
        if r.scan? p = some (group.id, project) then f project else project⟩ }⟩ }
  count : r.projectCount = (r.groups.toList.map fun group => group.projects.toList.length).sum
  next : r.nextProjectId? = nextFreeId? (r.projects.map Project.id) r.projects.length.toUInt64
  next_unordered : ∀ ids, ids.Perm r.owners.keys →
    nextFreeId? ids r.projectCount.toUInt64 = r.nextProjectId?

/-- A scan ends at a project with the identifier. -/
theorem mem_of_scan? {g : GroupId} (h : r.scan? p = some (g, project)) :
    ∃ group ∈ r.groups.toList, group.id = g ∧ project ∈ group.projects.toList ∧ project.id = p := by
  obtain ⟨group, hgroup, hfound⟩ := List.exists_of_findSome?_eq_some h
  obtain ⟨found, hfind, heq⟩ := Option.map_eq_some_iff.mp hfound
  cases heq
  have hid := List.find?_some hfind
  exact ⟨group, hgroup, rfl, List.mem_of_find?_eq_some hfind, of_decide_eq_true hid⟩

/-- A scan that ends nowhere has come to no project with the identifier. -/
theorem ne_of_scan?_eq_none (h : r.scan? p = none) (hgroup : group ∈ r.groups.toList)
    (hproject : project ∈ group.projects.toList) : project.id ≠ p := by
  have hnone := List.findSome?_eq_none_iff.mp h group hgroup
  rw [Option.map_eq_none_iff, List.find?_eq_none] at hnone
  simpa using hnone project hproject

/-- Where a scan ends, the index leads. -/
theorem Valid.lookup_of_scan? (hr : r.Valid) {g : GroupId} (h : r.scan? p = some (g, project)) :
    r.ownerOf? p = some g ∧ r.project? p = some project := by
  obtain ⟨group, hgroup, rfl, hproject, rfl⟩ := mem_of_scan? h
  exact ⟨hr.ownerOf?_id (hr.group?_id hgroup) hproject,
    hr.addressed.project project (mem_projects.mpr ⟨group, hgroup, hproject⟩)⟩

/-- Where a scan ends nowhere, the index leads nowhere. -/
theorem Valid.lookup_of_scan?_eq_none (hr : r.Valid) (h : r.scan? p = none) :
    r.ownerOf? p = none ∧ r.project? p = none := by
  have howner : r.ownerOf? p = none := by
    rw [hr.ownerOf?_eq_none_iff, List.mem_map]
    rintro ⟨project, hproject, hid⟩
    obtain ⟨group, hgroup, hin⟩ := mem_projects.mp hproject
    exact ne_of_scan?_eq_none h hgroup hin hid
  exact ⟨howner, by rw [project?, howner]; rfl⟩

/-- A scan comes to a project where it is. -/
theorem Valid.scan?_eq_some_iff (hr : r.Valid) (hgroup : group ∈ r.groups.toList)
    (hproject : project ∈ group.projects.toList) :
    r.scan? p = some (group.id, project) ↔ project.id = p := by
  constructor
  · intro h
    obtain ⟨-, -, -, -, hid⟩ := mem_of_scan? h
    exact hid
  · rintro rfl
    have howner := hr.ownerOf?_id (hr.group?_id hgroup) hproject
    have hlookup := hr.addressed.project project (mem_projects.mpr ⟨group, hgroup, hproject⟩)
    cases hscan : r.scan? project.id with
    | none =>
        rw [(hr.lookup_of_scan?_eq_none hscan).1] at howner
        cases howner
    | some found =>
        obtain ⟨howner', hlookup'⟩ := hr.lookup_of_scan? hscan
        rw [howner, Option.some_inj] at howner'
        rw [hlookup, Option.some_inj] at hlookup'
        rw [howner', hlookup']

theorem Valid.agreesWithScan (hr : r.Valid) : r.AgreesWithScan := by
  constructor
  case project =>
    intro p
    cases hscan : r.scan? p with
    | none => exact (hr.lookup_of_scan?_eq_none hscan).2
    | some found => exact (hr.lookup_of_scan? hscan).2
  case owner =>
    intro p
    cases hscan : r.scan? p with
    | none => exact (hr.lookup_of_scan?_eq_none hscan).1
    | some found => exact (hr.lookup_of_scan? hscan).1
  case modify =>
    intro p f
    refine congrArg₂ Registry.mk ((hr.groups_modifyProject p f).trans ?_) (owners_modifyProject r p f)
    refine congrArg Listing.ofList (List.map_congr_left ?_)
    intro group hgroup
    refine congrArg (fun projects => { group with projects }) (congrArg Listing.ofList ?_)
    refine List.map_congr_left ?_
    intro project hproject
    simp only [hr.scan?_eq_some_iff hgroup hproject]
    rfl
  case count => rw [hr.projectCount_eq, projects, List.length_flatMap]
  case next => exact hr.nextProjectId?_eq
  case next_unordered =>
    intro ids hids
    exact nextFreeId?_of_perm hids r.projectCount.toUInt64

end PipelineRegistry.Registry
