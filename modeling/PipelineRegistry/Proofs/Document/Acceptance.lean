import Mathlib
import PipelineRegistry.Proofs.Document.RoundTrip

/-! # Which documents are accepted

A document is accepted exactly if it keeps a list of rules (`Tree.KeepsRules`).  They are stated of
the document as it is written and not in the order in which they are checked: some are checked while
the lists are read, some by what has been met before, some by the greatest identifier.  The registry
then says what the document says (`Tree.LoadsAs`), except that a count of pointers that is absent or
too low is brought above all pointers of its project. -/

namespace PipelineRegistry.Document

open Calendar Registry

/-! ### The rules -/

/-- The rules of documents. -/
structure Tree.KeepsRules (t : Tree) : Prop where
  group_ids : (t.groups.map GroupNode.id).Nodup
  project_ids : ∀ g ∈ t.groups, (g.projects.map ProjectNode.id).Nodup
  pointer_ids : ∀ p ∈ t.projects, (p.pointers.map Pointer.id).Nodup
  secured : ∃ g ∈ t.groups, g.id = 0 ∧ g.name = "other" ∧
    ∃ p ps, g.projects = p :: ps ∧ p.id = 0 ∧ p.name = "other"
  group_names : (t.groups.map GroupNode.name).Nodup
  one_group : t.groups.Pairwise fun g g' => ∀ p ∈ g.projects, ∀ p' ∈ g'.projects, p.id ≠ p'.id
  pointer_project : ∀ p ∈ t.projects, ∀ q ∈ p.pointers, q.projectId = p.id
  pipelines : (t.pointers.map Pointer.pipeline).Nodup
  pointer_id_lt : ∀ q ∈ t.pointers, q.id.toNat < 2 ^ 64 - 1

/-! ### What is loaded -/

/-- `p` is what the project `n` of a document becomes: all is as it is written, but the count is at
least one more than the greatest identifier of a pointer. -/
structure ProjectNode.LoadsAs (n : ProjectNode) (p : Project) : Prop where
  fields : p = { n.project with nextPointerId := p.nextPointerId }
  count : p.nextPointerId.toNat =
    max (n.nextPointerId.getD 0).toNat ((n.pointers.map fun q => q.id.toNat + 1).max?.getD 0)

/-- `g` is what the group `n` of a document becomes. -/
structure GroupNode.LoadsAs (n : GroupNode) (g : Group) : Prop where
  fields : g = { n.group with projects := g.projects }
  projects : List.Forall₂ ProjectNode.LoadsAs n.projects g.projects.toList

/-- `r` is what a document becomes: its groups in their order, and the index of which group holds
which project. -/
structure Tree.LoadsAs (t : Tree) (r : Registry) : Prop where
  groups : List.Forall₂ GroupNode.LoadsAs t.groups r.groups.toList
  owners : ∀ p g, r.ownerOf? p = some g ↔
    ∃ n ∈ t.groups, n.id = g ∧ p ∈ n.projects.map ProjectNode.id

/-! ### Counts of pointers -/

theorem toNat_max (a b : UInt64) : (max a b).toNat = max a.toNat b.toNat := by
  rw [max_eq_ite]
  split
  · rename_i hab
    exact (Nat.max_eq_right (UInt64.le_iff_toNat_le.mp hab)).symm
  · rename_i hab
    rw [UInt64.le_iff_toNat_le] at hab
    omega

theorem add_one_ne_zero_iff {id : UInt64} : id + 1 ≠ 0 ↔ id.toNat < 2 ^ 64 - 1 := by
  have := id.toNat_lt
  rw [ne_eq, ← UInt64.toNat_inj, UInt64.toNat_add]
  simp only [UInt64.toNat_one, UInt64.toNat_zero]
  omega

/-- The least count above all pointers is one more than their greatest identifier. -/
theorem toNat_pointerFloor {p : Project} (hp : p.idsExhausted = false) : p.pointerFloor.toNat =
    (p.pointers.toList.map fun q => q.id.toNat + 1).max?.getD 0 := by
  unfold Project.pointerFloor
  cases hgreatest : greatestId? p.pointers.keys with
  | none =>
      rw [greatestId?, List.max?_eq_none_iff, Listing.keys, List.map_eq_nil_iff] at hgreatest
      rw [hgreatest]
      rfl
  | some greatest =>
      obtain ⟨hmem, hle⟩ := greatestId?_eq_some_iff.mp hgreatest
      obtain ⟨q, hq, rfl⟩ := Listing.mem_keys.mp hmem
      have hlt := add_one_ne_zero_iff.mp (Project.idsExhausted_eq_false_iff.mp hp q hq)
      have hmax : (p.pointers.toList.map fun q => q.id.toNat + 1).max? = some (q.id.toNat + 1) := by
        refine List.max?_eq_some_iff.mpr ⟨List.mem_map.mpr ⟨q, hq, rfl⟩, ?_⟩
        intro n hn
        obtain ⟨q', hq', rfl⟩ := List.mem_map.mp hn
        have := UInt64.le_iff_toNat_le.mp (hle _ (Listing.mem_keys.mpr ⟨q', hq', rfl⟩))
        exact Nat.succ_le_succ this
      rw [hmax]
      -- counting on from the greatest identifier does not start over at zero
      change (q.id + 1).toNat = q.id.toNat + 1
      rw [UInt64.toNat_add]
      exact Nat.mod_eq_of_lt (by simp only [UInt64.toNat_one]; omega)

namespace ProjectNode

variable {n : ProjectNode}

theorem sound_iff : n.project.Sound ↔
    (∀ q ∈ n.pointers, q.projectId = n.id) ∧ ∀ q ∈ n.pointers, q.id.toNat < 2 ^ 64 - 1 := by
  simp only [Project.Sound, Project.idsExhausted_eq_false_iff, add_one_ne_zero_iff]
  rfl

theorem loadsAs_settled (hn : n.project.Sound) : n.LoadsAs n.project.settled where
  fields := rfl
  count := by
    rw [Project.settled, toNat_max, toNat_pointerFloor hn.2]
    rfl

end ProjectNode

/-! ### Groups and documents -/

theorem GroupNode.secured_iff {n : GroupNode} : n.group.Secured ↔ n.name = "other" ∧
    ∃ p ps, n.projects = p :: ps ∧ p.id = 0 ∧ p.name = "other" := by
  constructor
  · rintro ⟨hname, _, _, hps, hid, hpname⟩
    obtain ⟨p, ps, hnodes, rfl, -⟩ := List.map_eq_cons_iff.mp hps
    exact ⟨hname, p, ps, hnodes, hid, hpname⟩
  · rintro ⟨hname, p, ps, hps, hid, hpname⟩
    refine ⟨hname, p.project, ps.map ProjectNode.project, ?_, hid, hpname⟩
    exact congrArg (List.map ProjectNode.project) hps

namespace Tree

variable {t : Tree} {s : String} {r : Registry}

theorem projectsOf_listing (t : Tree) :
    projectsOf t.listing.toList = t.projects.map ProjectNode.project := by
  simp only [listing, projectsOf, projects, List.flatMap_map, List.map_flatMap]
  rfl

theorem pointersOf_listing (t : Tree) : pointersOf (projectsOf t.listing.toList) = t.pointers := by
  rw [projectsOf_listing, pointersOf, List.flatMap_map]
  rfl

/-- The identifiers of projects differ in each group and between groups. -/
theorem nodup_projects_iff : (t.projects.map ProjectNode.id).Nodup ↔
    (∀ g ∈ t.groups, (g.projects.map ProjectNode.id).Nodup) ∧
      t.groups.Pairwise fun g g' => ∀ p ∈ g.projects, ∀ p' ∈ g'.projects, p.id ≠ p'.id := by
  have hdisjoint : Function.onFun List.Disjoint (fun g => g.projects.map ProjectNode.id) =
      fun g g' : GroupNode => ∀ p ∈ g.projects, ∀ p' ∈ g'.projects, p.id ≠ p'.id := by
    funext g g'
    simp only [Function.onFun, List.disjoint_iff_ne, List.forall_mem_map]
  rw [projects, List.map_flatMap, List.nodup_flatMap, hdisjoint]

theorem distinct_iff : t.Distinct ↔ (t.groups.map GroupNode.id).Nodup ∧
    (∀ g ∈ t.groups, (g.projects.map ProjectNode.id).Nodup) ∧
      ∀ p ∈ t.projects, (p.pointers.map Pointer.id).Nodup := by
  simp only [Distinct, GroupNode.Distinct, ProjectNode.Distinct, projects, List.forall_mem_flatMap]
  constructor
  · rintro ⟨hgroups, hids⟩
    exact ⟨hids, fun g hg => (hgroups g hg).2, fun g hg => (hgroups g hg).1⟩
  · rintro ⟨hids, hprojects, hpointers⟩
    exact ⟨fun g hg => ⟨hpointers g hg, hprojects g hg⟩, hids⟩

/-- Group 0 is found in the list of groups and is secured. -/
theorem secured_iff (ht : (t.groups.map GroupNode.id).Nodup) :
    (∃ g, t.listing.get? securedGroupId = some g ∧ g.Secured) ↔
      ∃ g ∈ t.groups, g.id = 0 ∧ g.name = "other" ∧
        ∃ p ps, g.projects = p :: ps ∧ p.id = 0 ∧ p.name = "other" := by
  have hkeys : t.listing.keys.Nodup := by
    rw [Listing.keys, listing, List.map_map]
    exact ht
  simp only [Listing.get?_eq_some_iff hkeys]
  simp only [listing, List.mem_map]
  constructor
  · rintro ⟨_, ⟨⟨g, hg, rfl⟩, hid⟩, hsecured⟩
    exact ⟨g, hg, hid, GroupNode.secured_iff.mp hsecured⟩
  · rintro ⟨g, hg, hid, hsecured⟩
    exact ⟨g.group, ⟨⟨g, hg, rfl⟩, hid⟩, GroupNode.secured_iff.mpr hsecured⟩

theorem sound_iff : (∀ p ∈ projectsOf t.listing.toList, p.Sound) ↔
    (∀ p ∈ t.projects, ∀ q ∈ p.pointers, q.projectId = p.id) ∧
      ∀ q ∈ t.pointers, q.id.toNat < 2 ^ 64 - 1 := by
  simp only [projectsOf_listing, List.forall_mem_map, ProjectNode.sound_iff, pointers,
    List.forall_mem_flatMap, forall_and]

/-- The check of a document that lists no identifier twice is passed if the rules are kept. -/
theorem distinct_and_ofGroups?_iff : t.Distinct ∧ ofGroups? t.listing = .ok r ↔ t.KeepsRules ∧
    r = ⟨⟨t.listing.toList.map .settled⟩, Checked.ownersOf ∅ t.listing.toList⟩ := by
  have hnames : t.listing.toList.map Group.name = t.groups.map GroupNode.name := by
    rw [listing, List.map_map]
    rfl
  have hids : (projectsOf t.listing.toList).map Project.id = t.projects.map ProjectNode.id := by
    rw [projectsOf_listing, List.map_map]
    rfl
  rw [distinct_iff, ofGroups?_eq_ok, hnames, hids, nodup_projects_iff, sound_iff, pointersOf_listing]
  constructor
  · rintro ⟨⟨hgroups, hprojects, hpointers⟩, hsecured, hnames, ⟨-, hone⟩, ⟨hbelongs, hlt⟩,
      hpipelines, hr⟩
    exact ⟨⟨hgroups, hprojects, hpointers, (secured_iff hgroups).mp hsecured, hnames, hone, hbelongs,
      hpipelines, hlt⟩, hr⟩
  · rintro ⟨ht, hr⟩
    exact ⟨⟨ht.group_ids, ht.project_ids, ht.pointer_ids⟩, (secured_iff ht.group_ids).mpr ht.secured,
      ht.group_names, ⟨ht.project_ids, ht.one_group⟩, ⟨ht.pointer_project, ht.pointer_id_lt⟩,
      ht.pipelines, hr⟩

theorem parse_registry_iff (hs : parse s = .ok t) : Registry.parse s = .ok r ↔ t.KeepsRules ∧
    r = ⟨⟨t.listing.toList.map .settled⟩, Checked.ownersOf ∅ t.listing.toList⟩ := by
  rw [Registry.parse_eq_ok, ← distinct_and_ofGroups?_iff]
  constructor
  · rintro ⟨t', ht', h⟩
    -- a text stands for one tree only
    rw [hs] at ht'
    cases ht'
    exact h
  · intro h
    exact ⟨t, hs, h⟩

theorem loadsAs_of_parse (hs : parse s = .ok t) (hr : Registry.parse s = .ok r) : t.LoadsAs r := by
  have hvalid := (Registry.valid_of_parse hr).1
  obtain ⟨ht, rfl⟩ := (parse_registry_iff hs).mp hr
  have hsound := sound_iff.mpr ⟨ht.pointer_project, ht.pointer_id_lt⟩
  constructor
  case groups =>
    simp only [listing, List.map_map, List.forall₂_map_right_iff, List.forall₂_same]
    intro g hg
    refine ⟨rfl, ?_⟩
    simp only [Function.comp_apply, Group.settled, GroupNode.group, List.map_map,
      List.forall₂_map_right_iff, List.forall₂_same]
    intro p hp
    refine ProjectNode.loadsAs_settled (hsound _ ?_)
    rw [projectsOf_listing]
    exact List.mem_map_of_mem (List.mem_flatMap.mpr ⟨g, hg, hp⟩)
  case owners =>
    intro p g
    have hkeys : ∀ n : GroupNode,
        n.group.settled.projects.keys = n.projects.map ProjectNode.id := by
      intro n
      rw [keys_settled, Listing.keys, GroupNode.group, List.map_map]
      rfl
    rw [hvalid.owner_iff_mem]
    constructor
    · rintro ⟨_, hsettled, rfl, hp⟩
      obtain ⟨_, hgroup, rfl⟩ := List.mem_map.mp hsettled
      obtain ⟨n, hn, rfl⟩ := List.mem_map.mp hgroup
      exact ⟨n, hn, rfl, hkeys n ▸ hp⟩
    · rintro ⟨n, hn, rfl, hp⟩
      refine ⟨n.group.settled, ?_, rfl, (hkeys n).symm ▸ hp⟩
      exact List.mem_map_of_mem (List.mem_map_of_mem hn)

end Tree

/-! ### Acceptance -/

/-- Every document that can be written is read from some text.  Whatever text a document is read
from, it is accepted exactly if it keeps the rules, and becomes a registry that says what it says. -/
theorem accepted_iff_keepsRules :
    (∀ t : Tree, t.Writable → ∃ s, Tree.parse s = .ok t) ∧
    (∀ s r, Registry.parse s = .ok r → ∃ t, Tree.parse s = .ok t) ∧
    ∀ s t, Tree.parse s = .ok t → ((∃ r, Registry.parse s = .ok r) ↔ t.KeepsRules) ∧
      ∀ r, Registry.parse s = .ok r → t.LoadsAs r := by
  refine ⟨fun t => Tree.exists_parse, ?_, ?_⟩
  · intro s r h
    obtain ⟨t, ht, -⟩ := Registry.parse_eq_ok.mp h
    exact ⟨t, ht⟩
  · intro s t ht
    refine ⟨⟨?_, ?_⟩, fun r => Tree.loadsAs_of_parse ht⟩
    · rintro ⟨r, hr⟩
      exact ((Tree.parse_registry_iff ht).mp hr).1
    · intro hrules
      exact ⟨_, (Tree.parse_registry_iff ht).mpr ⟨hrules, rfl⟩⟩

/-- A document with two pointers, the second of which has the identifier `id`, and without a count. -/
def pairTree (id : PointerId) : Tree :=
  let now : Timestamp := ⟨⟨2024, 2, 29⟩, 720, 30, 0⟩
  let first : Pointer :=
    ⟨0, 5, "build", "build", .ofString "/w/Easefile", .ofString "/w/build.pipe", none, none, now⟩
  let second : Pointer :=
    ⟨0, id, "test", "test", .ofString "/w/Easefile", .ofString "/w/test.pipe", none, none, now⟩
  let project : ProjectNode := ⟨0, "other", none, none, now, none, none, [first, second]⟩
  ⟨[⟨0, "other", none, none, now, none, [project]⟩]⟩

theorem pairTree_writable (id : PointerId) : (pairTree id).Writable := by
  have hnow : Timestamp.IsValid ⟨⟨2024, 2, 29⟩, 720, 30, 0⟩ := by decide
  constructor
  case dated =>
    rintro _ (_ | ⟨_, ⟨⟩⟩)
    refine ⟨hnow, nofun, ?_⟩
    rintro _ (_ | ⟨_, ⟨⟩⟩)
    refine ⟨hnow, nofun, ?_⟩
    rintro _ (_ | ⟨_, _ | ⟨_, ⟨⟩⟩⟩) <;> exact hnow
  case paths =>
    rintro _ (_ | ⟨_, _ | ⟨_, ⟨⟩⟩⟩) <;> simp only [Path.text?_ofString] <;> exact ⟨rfl, rfl⟩

/-- With a lower identifier the document is accepted and the count comes to be six; with the greatest
identifier there is it is refused. -/
theorem accepted_iff_keepsRules_pair :
    (∃ s r, Tree.parse s = .ok (pairTree 3) ∧ Registry.parse s = .ok r ∧
      r.projects.map Project.nextPointerId = [6]) ∧
    ∃ s, Tree.parse s = .ok (pairTree 0xffffffffffffffff) ∧ ∀ r, Registry.parse s ≠ .ok r := by
  constructor
  · obtain ⟨s, hs⟩ := accepted_iff_keepsRules.1 _ (pairTree_writable 3)
    obtain ⟨haccepted, hloads⟩ := accepted_iff_keepsRules.2.2 s _ hs
    have hrules : (pairTree 3).KeepsRules := by
      have hsecured : ∃ g ∈ (pairTree 3).groups, g.id = 0 ∧ g.name = "other" ∧
          ∃ p ps, g.projects = p :: ps ∧ p.id = 0 ∧ p.name = "other" :=
        ⟨_, List.mem_cons_self, rfl, rfl, _, _, rfl, rfl, rfl⟩
      refine ⟨?_, ?_, ?_, hsecured, ?_, ?_, ?_, ?_, ?_⟩ <;> decide +kernel
    obtain ⟨r, hr⟩ := haccepted.mpr hrules
    obtain ⟨hgroups, -⟩ := hloads r hr
    refine ⟨s, r, hs, hr, ?_⟩
    obtain ⟨g, _, ⟨-, hprojects⟩, ⟨⟩, hgroups⟩ := List.forall₂_cons_left_iff.mp hgroups
    obtain ⟨p, _, ⟨-, hcount⟩, ⟨⟩, hprojects⟩ := List.forall₂_cons_left_iff.mp hprojects
    rw [Registry.projects, hgroups, List.flatMap_singleton, hprojects]
    exact congrArg (fun count => [count]) (UInt64.toNat_inj.mp hcount)
  · obtain ⟨s, hs⟩ := accepted_iff_keepsRules.1 _ (pairTree_writable 0xffffffffffffffff)
    refine ⟨s, hs, fun r hr => ?_⟩
    have hrules := (accepted_iff_keepsRules.2.2 s _ hs).1.mp ⟨r, hr⟩
    exact absurd (hrules.pointer_id_lt _ (List.mem_cons_of_mem _ List.mem_cons_self)) (by decide)

end PipelineRegistry.Document
