import Mathlib
import PipelineRegistry.Proofs.Registry.Preservation
import PipelineRegistry.Proofs.Registry.Removal
import PipelineRegistry.Registry.Operation

/-! # Two ways to dissolve a group

A group and its projects may be removed in two orders, softly all along: the group first, so that its
projects come to the secured group and are removed there, or the projects first and then the empty
group.  Either way the secured project takes in the pointers of one project after the other.

One project makes a square: it does not matter whether it is removed before its group or after.  The
rest is an induction on the projects, which carries the removal of the group past each of them. -/

namespace PipelineRegistry

open Calendar

/-- The group when project `p`, which may be in it, has been removed, and the secured project, which may
be in it, has taken in pointers. -/
def Group.without (g : Group) (p : ProjectId) (kept : List Pointer) : Group :=
  { g with projects := (g.projects.erase p).modify securedProjectId (·.takeIn kept) }

/-- What becomes of projects that a group takes in becomes of them in the group they come from. -/
theorem Group.without_takeIn (g g' : Group) (p : ProjectId) (kept : List Pointer) :
    (g.takeIn g'.projects.toList).without p kept =
      (g.without p kept).takeIn (g'.without p kept).projects.toList := by
  simp only [Group.without, Group.takeIn, Listing.modify, Listing.erase, List.filter_append,
    List.map_append]

theorem Group.keys_without (g : Group) (p : ProjectId) (kept : List Pointer) :
    (g.without p kept).projects.keys = (g.projects.erase p).keys :=
  Listing.keys_modify fun _ h => h

/-- The group is removed first, and its projects `ps` then from the secured group. -/
def groupFirst (g : GroupId) (ps : List ProjectId) : List Operation :=
  .deleteGroup g false :: ps.map fun p => .deleteProject securedGroupId p false

/-- The projects `ps` of the group are removed first, and then the group. -/
def groupLast (g : GroupId) (ps : List ProjectId) (hard : Bool) : List Operation :=
  (ps.map fun p => .deleteProject g p false) ++ [.deleteGroup g hard]

namespace Registry

variable {r r' r₀ r₁ : Registry} {g : GroupId} {p : ProjectId} {group : Group} {project : Project}
  {kept : List Pointer}

theorem eq_of_toList_of_ownerOf? (hgroups : r.groups.toList = r'.groups.toList)
    (howner : ∀ p, r.ownerOf? p = r'.ownerOf? p) : r = r' :=
  congrArg₂ Registry.mk (congrArg Listing.ofList hgroups)
    (Std.ExtTreeMap.ext_getElem? fun p => howner p)

/-! ### The square -/

/-- The registries at the two ends of the square are the same: what the four removals do to groups and
owners leaves no room for a difference. -/
theorem LosesGroup.square (hgroup₀ : r.LosesGroup r₀ group false)
    (hproject₀ : r₀.LosesProject r' securedGroupId p kept) (hproject₁ : r.LosesProject r₁ g p kept)
    {r'' : Registry} (hgroup₁ : r₁.LosesGroup r'' (group.without p kept) false) : r' = r'' := by
  refine eq_of_toList_of_ownerOf? ?_ ?_
  · rw [hproject₀.groups, hgroup₀.groups, hgroup₁.groups, hproject₁.groups, List.filter_map,
      List.map_map, List.map_map]
    refine List.map_congr_left ?_
    intro other _
    change (ite _ (other.takeIn _) other : Group).without p kept =
      if other.id = securedGroupId then (other.without p kept).takeIn _ else other.without p kept
    split
    · exact other.without_takeIn group p kept
    · rfl
  · intro q
    rw [hproject₀.owner, hgroup₀.owner, hgroup₁.owner, hproject₁.owner, Group.keys_without]
    simp only [Listing.mem_keys_erase]
    split_ifs <;> grind

theorem LosesProject.group? (h : r.LosesProject r' g p kept) (x : GroupId) :
    r'.group? x = (r.group? x).map (·.without p kept) :=
  group?_of_groups_eq (f := (·.without p kept)) (congrArg Listing.ofList h.groups) (fun _ => rfl) x

/-- The registry without a group, whose projects have come to the secured group. -/
def merged (r : Registry) (group : Group) : Registry := r.withoutGroup group group.projects.toList

theorem deleteGroup_soft (hgroup : r.group? g = some group) (hg : g ≠ securedGroupId) :
    r.deleteGroup g false = .ok (group, r.merged group) := deleteGroup_eq hgroup hg false

/-- A project of the group is where it was, but in the secured group, once the group has been removed. -/
theorem Valid.exists_taken (hr : r.Valid) (hgroup : r.group? g = some group) (hg : g ≠ securedGroupId)
    (hproject : group.projects.get? p = some project) :
    (r.merged group).ownerOf? p = some securedGroupId ∧ ∃ taken,
      (r.merged group).group? securedGroupId = some taken ∧ taken.projects.get? p = some project := by
  have hmerged : r.LosesGroup (r.merged group) group false := hr.losesGroup hgroup hg false
  have hr₀ : (r.merged group).Valid := hr.deleteGroup (deleteGroup_soft hgroup hg)
  have hp := Listing.mem_keys_of_get? hproject
  have howner : (r.merged group).ownerOf? p = some securedGroupId := by
    rw [hmerged.owner, if_pos hp]
    rfl
  obtain ⟨taken, htaken, -⟩ := (hr₀.owner_iff p securedGroupId).mp howner
  refine ⟨howner, taken, htaken, ?_⟩
  rw [← project?_eq_some howner htaken, hmerged.project, if_neg (by simp),
    project?_eq_some (hr.ownerOf?_of_mem_keys hgroup hp) hgroup, hproject]

/-- A project of the group is removed before the group or after it: either fails for want of
identifiers, or either succeeds and the registries are the same in the end. -/
theorem Valid.square (hr : r.Valid) (hgroup : r.group? g = some group) (hg : g ≠ securedGroupId)
    (hp : p ∈ group.projects.keys) :
    (r.deleteProject g p false = .error (.idsExhausted .pointer) ∧
      (r.merged group).deleteProject securedGroupId p false = .error (.idsExhausted .pointer)) ∨
    ∃ project r₁ group₁, r.deleteProject g p false = .ok (some project, r₁) ∧
      r₁.group? g = some group₁ ∧ group₁.projects.keys = group.projects.keys.erase p ∧
      (r.merged group).deleteProject securedGroupId p false = .ok (some project, r₁.merged group₁) := by
  obtain ⟨project, hproject⟩ := Option.ne_none_iff_exists'.mp fun h => Listing.get?_eq_none_iff.mp h hp
  obtain ⟨secured, hsecured⟩ := hr.exists_securedProject
  obtain ⟨howner₀, taken, htaken, hproject₀⟩ := hr.exists_taken hgroup hg hproject
  have hne : p ≠ securedProjectId := fun h => hr.securedProjectId_not_mem hgroup hg (h ▸ hp)
  have hmerged : r.LosesGroup (r.merged group) group false := hr.losesGroup hgroup hg false
  have hr₀ : (r.merged group).Valid := hr.deleteGroup (deleteGroup_soft hgroup hg)
  have hsecured₀ := hmerged.secured.trans hsecured
  -- the secured project is the same on both ways, so that the same identifiers are left
  have hdelete := hr.deleteProject_eq hgroup hproject hne hsecured false
  have hdelete₀ := hr₀.deleteProject_eq htaken hproject₀ hne hsecured₀ false
  by_cases hfit : false = true ∨ secured.nextPointerId.toNat + project.pointers.size < UInt64.size
  · rw [if_pos hfit] at hdelete hdelete₀
    have hkept := Project.length_kept_lt hfit
    have hloses := hr.losesProject (hr.ownerOf?_of_mem_keys hgroup hp) hne hsecured hkept
    have hgroup₁ : (r.withoutProject g p (project.kept false)).group? g =
        some (group.without p (project.kept false)) := by
      rw [hloses.group?, hgroup]
      rfl
    have hend := hmerged.square (hr₀.losesProject howner₀ hne hsecured₀ hkept) hloses
      ((hr.deleteProject hdelete).losesGroup hgroup₁ hg false)
    have hkeys := (group.keys_without p (project.kept false)).trans
      (Listing.keys_erase (hr.project_keys_of_group? hgroup) p)
    refine .inr ⟨project, _, _, hdelete, hgroup₁, hkeys, ?_⟩
    rw [hdelete₀, hend]
    rfl
  · rw [if_neg hfit] at hdelete hdelete₀
    exact .inl ⟨hdelete, hdelete₀⟩

/-! ### All projects of a group -/

/-- Performs operations one after the other until one of them fails, at the times of a clock.  Gives the
operation that has failed and why, and the registry that has been reached. -/
def performAll (clock : ℕ → Timestamp) (r : Registry) :
    List Operation → Except (Operation × RegistryError) Unit × Registry
  | [] => (.ok (), r)
  | operation :: operations =>
    match operation.perform (clock 0) r with
    | .error e => (.error (operation, e), r)
    | .ok (_, r') => r'.performAll (fun i => clock (i + 1)) operations

variable {clock clock' : ℕ → Timestamp} {operation : Operation} {operations : List Operation}

theorem performAll_of_ok {outcome : Outcome} (h : operation.perform (clock 0) r = .ok (outcome, r')) :
    r.performAll clock (operation :: operations) =
      r'.performAll (fun i => clock (i + 1)) operations := by
  rw [performAll, h]

theorem performAll_of_error {e : RegistryError} (h : operation.perform (clock 0) r = .error e) :
    r.performAll clock (operation :: operations) = (.error (operation, e), r) := by
  rw [performAll, h]

theorem perform_deleteGroup {hard : Bool} (h : r.deleteGroup g hard = .ok (group, r'))
    (now : Timestamp) : (Operation.deleteGroup g hard).perform now r = .ok (.group group, r') := by
  rw [Operation.perform, h]
  rfl

theorem perform_deleteProject {hard : Bool} (h : r.deleteProject g p hard = .ok (some project, r'))
    (now : Timestamp) :
    (Operation.deleteProject g p hard).perform now r = .ok (.project project, r') := by
  rw [Operation.perform, h]
  rfl

theorem perform_deleteProject_error {hard : Bool} {e : RegistryError}
    (h : r.deleteProject g p hard = .error e) (now : Timestamp) :
    (Operation.deleteProject g p hard).perform now r = .error e := by
  rw [Operation.perform, h]
  rfl

theorem performAll_groupFirst (hgroup : r.group? g = some group) (hg : g ≠ securedGroupId)
    (clock : ℕ → Timestamp) (ps : List ProjectId) : r.performAll clock (groupFirst g ps) =
      (r.merged group).performAll (fun i => clock (i + 1))
        (ps.map fun p => .deleteProject securedGroupId p false) :=
  performAll_of_ok (perform_deleteGroup (deleteGroup_soft hgroup hg) (clock 0))

/-- Both ways of dissolving a group come to the same registry, or they fail at the same project, for
which the secured project has not enough identifiers left. -/
theorem Valid.dissolution (hr : r.Valid) (hgroup : r.group? g = some group) (hg : g ≠ securedGroupId)
    (clock clock' : ℕ → Timestamp) (hard : Bool) {ps : List ProjectId} (hps : group.projects.keys = ps) :
    (∃ r', r.performAll clock (groupFirst g ps) = (.ok (), r') ∧
      r.performAll clock' (groupLast g ps hard) = (.ok (), r')) ∨
    ∃ p ∈ ps,
      (r.performAll clock (groupFirst g ps)).1 =
        .error (.deleteProject securedGroupId p false, .idsExhausted .pointer) ∧
      (r.performAll clock' (groupLast g ps hard)).1 =
        .error (.deleteProject g p false, .idsExhausted .pointer) := by
  induction ps generalizing r group clock clock' with
  | nil =>
      -- an empty group takes nothing along, so that a hard removal is a soft one
      have hempty : group.projects.toList = [] := List.map_eq_nil_iff.mp hps
      have hkept : group.kept hard = group.projects.toList := by
        rw [Group.kept, hempty, ite_self]
      refine .inl ⟨r.merged group, performAll_groupFirst hgroup hg clock [], ?_⟩
      have hdelete := deleteGroup_eq hgroup hg hard
      rw [hkept] at hdelete
      exact performAll_of_ok (perform_deleteGroup hdelete (clock' 0))
  | cons p ps ih =>
      have hp : p ∈ group.projects.keys := hps ▸ List.mem_cons_self
      rw [performAll_groupFirst hgroup hg, List.map_cons, groupLast, List.map_cons, List.cons_append]
      rcases hr.square hgroup hg hp with ⟨hdelete, hdelete₀⟩ |
        ⟨project, r₁, group₁, hdelete, hgroup₁, hkeys₁, hdelete₀⟩
      · refine .inr ⟨p, List.mem_cons_self, ?_, ?_⟩
        · rw [performAll_of_error (perform_deleteProject_error hdelete₀ _)]
        · rw [performAll_of_error (perform_deleteProject_error hdelete _)]
      · -- what is left are the two ways to dissolve the group without the project
        have hps₁ : group₁.projects.keys = ps := by rw [hkeys₁, hps, List.erase_cons_head]
        have hrest := ih (hr.deleteProject hdelete) hgroup₁ (fun i => clock (i + 1))
          (fun i => clock' (i + 1)) hps₁
        rw [performAll_groupFirst hgroup₁ hg] at hrest
        rw [performAll_of_ok (perform_deleteProject hdelete₀ _),
          performAll_of_ok (perform_deleteProject hdelete _)]
        refine hrest.imp_right ?_
        rintro ⟨q, hq, hfails⟩
        exact ⟨q, List.mem_cons_of_mem p hq, hfails⟩

end Registry
end PipelineRegistry
