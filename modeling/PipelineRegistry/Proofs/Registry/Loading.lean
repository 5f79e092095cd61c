import Mathlib
import PipelineRegistry.Proofs.Chain
import PipelineRegistry.Proofs.Registry.Changes
import PipelineRegistry.Proofs.Registry.Ids
import PipelineRegistry.Registry.Loading

/-! # Which documents are registries

The check of a document is passed exactly if its names, projects and pipelines are different, its
pointers are where they say they are and no project has used up its identifiers.  What the check has
met on its way is described by lists, so that the rules come out as statements about whole lists and
not about the order in which they are checked.

A document that passes gives a valid registry, and the groups of a valid registry pass and give the
same registry back. -/

namespace PipelineRegistry

open Chain

/-! ### Lists of new elements -/

/-- The elements of `xs` differ from each other and from those that were seen. -/
def Fresh {α : Type} (xs : List α) (seen : α → Prop) : Prop := xs.Nodup ∧ ∀ x ∈ xs, ¬seen x

namespace Fresh

variable {α : Type} {x : α} {xs ys : List α} {seen : α → Prop}

theorem nil : Fresh [] seen := ⟨List.nodup_nil, fun _ h => absurd h List.not_mem_nil⟩

theorem append_iff :
    Fresh (xs ++ ys) seen ↔ Fresh xs seen ∧ Fresh ys fun y => y ∈ xs ∨ seen y := by
  unfold Fresh
  rw [List.nodup_append]
  constructor
  · rintro ⟨⟨hxs, hys, hne⟩, hseen⟩
    refine ⟨⟨hxs, fun x hx => hseen x (List.mem_append_left _ hx)⟩, hys, ?_⟩
    rintro y hy (hx | hy')
    · exact hne y hx y hy rfl
    · exact hseen y (List.mem_append_right _ hy) hy'
  · rintro ⟨⟨hxs, hxseen⟩, hys, hyseen⟩
    refine ⟨⟨hxs, hys, ?_⟩, ?_⟩
    · rintro x hx y hy rfl
      exact hyseen x hy (.inl hx)
    · intro x hx
      rcases List.mem_append.mp hx with hx | hx
      · exact hxseen x hx
      · exact fun h => hyseen x hx (.inr h)

theorem singleton_iff : Fresh [x] seen ↔ ¬seen x := by
  simp [Fresh]

theorem cons_iff : Fresh (x :: xs) seen ↔ ¬seen x ∧ Fresh xs fun y => y = x ∨ seen y := by
  rw [← List.singleton_append, append_iff, singleton_iff]
  simp only [List.mem_singleton]

theorem nothing_iff : Fresh xs (fun _ => False) ↔ xs.Nodup := by
  simp [Fresh]

end Fresh

/-! ### What the check meets -/

namespace Project

/-- The pointers of a project belong to it and leave an identifier. -/
def Sound (p : Project) : Prop :=
  (∀ q ∈ p.pointers.toList, q.projectId = p.id) ∧ p.idsExhausted = false

end Project

namespace Checked

variable {c c' : Checked} {g : GroupId} {p : ProjectId}

open Registry

theorem pointer_eq_ok {q : Pointer} : pointer p c q = .ok c' ↔
    q.projectId = p ∧ q.pipeline ∉ c.pipelines ∧
      c' = { c with pipelines := q.pipeline :: c.pipelines } := by
  unfold pointer
  split
  · simp_all
  · split
    · simp_all
    · simp_all [eq_comm]

theorem pointers_eq_ok {qs : List Pointer} : qs.foldlM (pointer p) c = .ok c' ↔
    (∀ q ∈ qs, q.projectId = p) ∧ Fresh (qs.map Pointer.pipeline) (· ∈ c.pipelines) ∧
      c' = { c with pipelines := (qs.map Pointer.pipeline).reverse ++ c.pipelines } := by
  induction qs generalizing c with
  | nil =>
      rw [List.foldlM_nil, pure_eq_ok]
      simp [Fresh.nil, eq_comm]
  | cons q qs ih =>
      simp only [List.foldlM_cons, bind_eq_ok, pointer_eq_ok, ih, List.forall_mem_cons,
        List.map_cons, List.reverse_cons, Fresh.cons_iff, List.append_assoc, List.singleton_append]
      constructor
      · rintro ⟨c₁, ⟨hp, hnew, rfl⟩, hps, hfresh, rfl⟩
        exact ⟨⟨hp, hps⟩, ⟨hnew, by simpa only [List.mem_cons] using hfresh⟩, rfl⟩
      · rintro ⟨⟨hp, hps⟩, ⟨hnew, hfresh⟩, rfl⟩
        exact ⟨_, ⟨hp, hnew, rfl⟩, hps, by simpa only [List.mem_cons] using hfresh, rfl⟩

theorem project_eq_ok {project : Project} : Checked.project g c project = .ok c' ↔
    project.id ∉ c.owners ∧ project.Sound ∧
      Fresh (project.pointers.toList.map Pointer.pipeline) (· ∈ c.pipelines) ∧
      c' = ⟨c.groupNames, (project.pointers.toList.map Pointer.pipeline).reverse ++ c.pipelines,
        c.owners.insert project.id g⟩ := by
  simp only [Checked.project, check_eq_ok, bind_eq_ok, pointers_eq_ok, pure_eq_ok, Project.Sound,
    Bool.not_eq_true]
  constructor
  · rintro ⟨hnew, c₁, ⟨hps, hfresh, rfl⟩, hids, rfl⟩
    exact ⟨hnew, ⟨hps, hids⟩, hfresh, rfl⟩
  · rintro ⟨hnew, ⟨hps, hids⟩, hfresh, rfl⟩
    exact ⟨hnew, _, ⟨hps, hfresh, rfl⟩, hids, rfl⟩

theorem projects_eq_ok {ps : List Project} : ps.foldlM (Checked.project g) c = .ok c' ↔
    Fresh (ps.map Project.id) (· ∈ c.owners) ∧ (∀ p ∈ ps, p.Sound) ∧
      Fresh ((pointersOf ps).map Pointer.pipeline) (· ∈ c.pipelines) ∧
      c' = ⟨c.groupNames, ((pointersOf ps).map Pointer.pipeline).reverse ++ c.pipelines,
        (ps.map Project.id).foldl (fun owners p => owners.insert p g) c.owners⟩ := by
  induction ps generalizing c with
  | nil =>
      rw [List.foldlM_nil, pure_eq_ok]
      simp [Fresh.nil, pointersOf, eq_comm]
  | cons p ps ih =>
      simp only [List.foldlM_cons, bind_eq_ok, project_eq_ok, ih, List.forall_mem_cons,
        List.map_cons, pointersOf_cons, List.map_append, List.reverse_append, Fresh.cons_iff,
        Fresh.append_iff, List.append_assoc, List.foldl_cons]
      have howners : (fun y => y ∈ c.owners.insert p.id g) = fun y => y = p.id ∨ y ∈ c.owners := by
        funext y
        simp only [Std.ExtTreeMap.mem_insert, Std.compare_eq_iff_eq, @eq_comm _ p.id]
      constructor
      · rintro ⟨c₁, ⟨hnew, hsound, hpipelines, rfl⟩, hids, hsounds, hfresh, rfl⟩
        simp only [List.mem_append, List.mem_reverse, howners] at hids hfresh
        exact ⟨⟨hnew, hids⟩, ⟨hsound, hsounds⟩, ⟨hpipelines, hfresh⟩, rfl⟩
      · rintro ⟨⟨hnew, hids⟩, ⟨hsound, hsounds⟩, ⟨hpipelines, hfresh⟩, rfl⟩
        refine ⟨_, ⟨hnew, hsound, hpipelines, rfl⟩, ?_⟩
        simp only [List.mem_append, List.mem_reverse, howners]
        exact ⟨hids, hsounds, hfresh, trivial⟩

/-- The index of owners that the check of some groups builds. -/
def ownersOf (owners : Std.ExtTreeMap ProjectId GroupId) (gs : List Group) :
    Std.ExtTreeMap ProjectId GroupId :=
  gs.foldl (fun owners g => g.projects.keys.foldl (fun owners p => owners.insert p g.id) owners)
    owners

theorem groups_eq_ok {gs : List Group} : gs.foldlM Checked.group c = .ok c' ↔
    Fresh (gs.map Group.name) (· ∈ c.groupNames) ∧
      Fresh ((projectsOf gs).map Project.id) (· ∈ c.owners) ∧ (∀ p ∈ projectsOf gs, p.Sound) ∧
      Fresh ((pointersOf (projectsOf gs)).map Pointer.pipeline) (· ∈ c.pipelines) ∧
      c' = ⟨(gs.map Group.name).reverse ++ c.groupNames,
        ((pointersOf (projectsOf gs)).map Pointer.pipeline).reverse ++ c.pipelines,
        ownersOf c.owners gs⟩ := by
  induction gs generalizing c with
  | nil =>
      rw [List.foldlM_nil, pure_eq_ok]
      simp [Fresh.nil, pointersOf, projectsOf, ownersOf, eq_comm]
  | cons g gs ih =>
      have howners : (fun y => y ∈ (g.projects.toList.map Project.id).foldl
          (fun owners p => owners.insert p g.id) c.owners) =
          fun y => y ∈ g.projects.toList.map Project.id ∨ y ∈ c.owners := by
        funext y
        rw [Std.ExtTreeMap.mem_iff_isSome_getElem?, getElem?_foldl_insert,
          Std.ExtTreeMap.mem_iff_isSome_getElem?]
        split <;> simp_all
      simp only [List.foldlM_cons, Checked.group, bind_eq_ok, check_eq_ok, projects_eq_ok, ih,
        projectsOf_cons, pointersOf_append, List.map_append, List.map_cons, Fresh.cons_iff,
        Fresh.append_iff, List.forall_mem_append, List.reverse_append, List.reverse_cons,
        List.append_assoc, List.singleton_append]
      constructor
      · rintro ⟨c₁, ⟨hname, hids, hsound, hpipelines, rfl⟩, hnames, hids', hsounds, hfresh, rfl⟩
        simp only [List.mem_append, List.mem_reverse, List.mem_cons, howners] at hnames hids' hfresh
        exact ⟨⟨hname, hnames⟩, ⟨hids, hids'⟩, ⟨hsound, hsounds⟩, ⟨hpipelines, hfresh⟩, rfl⟩
      · rintro ⟨⟨hname, hnames⟩, ⟨hids, hids'⟩, ⟨hsound, hsounds⟩, ⟨hpipelines, hfresh⟩, rfl⟩
        refine ⟨_, ⟨hname, hids, hsound, hpipelines, rfl⟩, ?_⟩
        simp only [List.mem_append, List.mem_reverse, List.mem_cons, howners]
        exact ⟨hnames, hids', hsounds, hfresh, rfl⟩

/-- The index says of each project that was met which group holds it. -/
theorem getElem?_ownersOf {gs : List Group} (hgs : ((projectsOf gs).map Project.id).Nodup)
    (owners : Std.ExtTreeMap ProjectId GroupId) :
    (∀ group ∈ gs, p ∈ group.projects.keys → (ownersOf owners gs)[p]? = some group.id) ∧
      ((∀ group ∈ gs, p ∉ group.projects.keys) → (ownersOf owners gs)[p]? = owners[p]?) := by
  induction gs generalizing owners with
  | nil => exact ⟨fun _ h => absurd h List.not_mem_nil, fun _ => rfl⟩
  | cons g gs ih =>
      have hrest : ((projectsOf gs).map Project.id).Nodup := by
        rw [projectsOf_cons, List.map_append] at hgs
        exact hgs.of_append_right
      obtain ⟨hmem, hnot⟩ := ih hrest (g.projects.keys.foldl (fun owners p => owners.insert p g.id) owners)
      rw [getElem?_foldl_insert] at hnot
      simp only [List.forall_mem_cons]
      refine ⟨⟨?_, hmem⟩, ?_⟩
      · intro hp
        rw [if_pos hp] at hnot
        refine hnot ?_
        intro other hother
        exact not_mem_keys_of_mem (A := []) hgs hother hp
      · rintro ⟨hp, hps⟩
        rw [if_neg hp] at hnot
        exact hnot hps

end Checked

/-! ### The secured group and project -/

theorem secured_iff {g : Group} : g.Secured ↔ g.name = securedName ∧
    ∃ p, g.projects.get? securedProjectId = some p ∧ p.name = securedName ∧
      g.projects.keys.head? = some securedProjectId := by
  constructor
  · rintro ⟨hname, p, ps, hps, hid, hpname⟩
    refine ⟨hname, p, ?_, hpname, ?_⟩
    · rw [Listing.get?, hps]
      exact List.find?_cons_of_pos (decide_eq_true hid)
    · rw [Listing.keys, hps]
      exact congrArg some hid
  · rintro ⟨hname, p, hp, hpname, hhead⟩
    rw [Listing.keys, List.head?_map, Option.map_eq_some_iff] at hhead
    obtain ⟨p', hp', hid⟩ := hhead
    obtain ⟨ps, hps⟩ := List.head?_eq_some_iff.mp hp'
    -- the first project has identifier 0, so it is the one that is found
    rw [Listing.get?, hps, List.find?_cons, decide_eq_true hid, Option.some_inj] at hp
    exact ⟨hname, p', ps, hps, hid, hp ▸ hpname⟩

theorem checkSecured_eq_ok {groups : Listing Group} {u : Unit} :
    checkSecured groups = .ok u ↔ ∃ g, groups.get? securedGroupId = some g ∧ g.Secured := by
  unfold checkSecured
  cases groups.get? securedGroupId with
  | none => simp [throw_eq_ok]
  | some g =>
      simp only [secured_iff, check_eq_ok, Option.some.injEq, exists_eq_left', not_not]
      cases g.projects.get? securedProjectId with
      | none => simp [throw_eq_ok]
      | some p =>
          simp only [check_eq_ok, Option.some.injEq, exists_eq_left', not_not]
          split <;> simp_all [throw_eq_ok, pure_eq_ok]

/-! ### Counts of pointers -/

theorem add_one_ne_zero_of_lt {id id' : UInt64} (h : id < id') : id + 1 ≠ 0 ∧ id + 1 ≤ id' := by
  rw [UInt64.lt_iff_toNat_lt] at h
  have := id'.toNat_lt
  rw [ne_eq, ← UInt64.toNat_inj, UInt64.le_iff_toNat_le, UInt64.toNat_add]
  simp only [UInt64.toNat_one, UInt64.toNat_zero]
  omega

namespace Project

variable {p : Project} {q : Pointer}

theorem idsExhausted_eq_false_iff :
    p.idsExhausted = false ↔ ∀ q ∈ p.pointers.toList, q.id + 1 ≠ 0 := by
  simp only [idsExhausted, List.any_eq_false, decide_eq_true_eq, Listing.keys, List.forall_mem_map]
  rfl

theorem Sound.lt_pointerFloor (hp : p.Sound) (hq : q ∈ p.pointers.toList) :
    q.id < p.pointerFloor := by
  have hkey : q.id ∈ p.pointers.keys := Listing.mem_keys.mpr ⟨q, hq, rfl⟩
  unfold pointerFloor
  cases hgreatest : greatestId? p.pointers.keys with
  | none =>
      rw [greatestId?, List.max?_eq_none_iff] at hgreatest
      rw [hgreatest] at hkey
      exact absurd hkey List.not_mem_nil
  | some greatest =>
      obtain ⟨hmem, hle⟩ := greatestId?_eq_some_iff.mp hgreatest
      obtain ⟨q', hq', rfl⟩ := Listing.mem_keys.mp hmem
      have hne := idsExhausted_eq_false_iff.mp hp.2 q' hq'
      exact Std.lt_of_le_of_lt (hle _ hkey) (lt_add_one_of_ne_zero hne)

theorem Sound.valid_settled (hp : p.Sound) (hkeys : p.pointers.keys.Nodup) : p.settled.Valid := by
  have := lawfulOrderMax
  refine ⟨hkeys, hp.1, ?_⟩
  intro q hq
  exact Std.lt_of_lt_of_le (hp.lt_pointerFloor hq) Std.right_le_max

theorem Valid.sound (hp : p.Valid) : p.Sound := by
  refine ⟨hp.pointer_project, idsExhausted_eq_false_iff.mpr ?_⟩
  intro q hq
  exact (add_one_ne_zero_of_lt (hp.pointer_lt q hq)).1

/-- A count that is above all pointers is kept. -/
theorem Valid.settled_eq (hp : p.Valid) : p.settled = p := by
  have hfloor : p.pointerFloor ≤ p.nextPointerId := by
    unfold pointerFloor
    cases hgreatest : greatestId? p.pointers.keys with
    | none => exact UInt64.zero_le
    | some greatest =>
        obtain ⟨q, hq, rfl⟩ := Listing.mem_keys.mp (greatestId?_eq_some_iff.mp hgreatest).1
        exact (add_one_ne_zero_of_lt (hp.pointer_lt q hq)).2
  have hmax : max p.nextPointerId p.pointerFloor = p.nextPointerId := by
    rw [max_eq_ite]
    split
    · exact Std.le_antisymm hfloor ‹_›
    · rfl
  rw [settled, hmax]

end Project

theorem Group.Secured.settled {g : Group} (hg : g.Secured) : g.settled.Secured := by
  obtain ⟨hname, p, ps, hps, hid, hpname⟩ := hg
  refine ⟨hname, p.settled, ps.map .settled, ?_, hid, hpname⟩
  rw [Group.settled, hps, List.map_cons]

theorem Group.Secured.of_settled {g : Group} (hg : g.settled.Secured) : g.Secured := by
  obtain ⟨hname, _, _, hsettled, hid, hpname⟩ := hg
  obtain ⟨p, ps, hps, rfl, -⟩ := List.map_eq_cons_iff.mp hsettled
  exact ⟨hname, p, ps, hps, hid, hpname⟩

/-! ### Documents -/

namespace Registry

/-- A document passes the check exactly if it keeps these rules. -/
theorem ofGroups?_eq_ok {groups : Listing Group} {r : Registry} : ofGroups? groups = .ok r ↔
    (∃ g, groups.get? securedGroupId = some g ∧ g.Secured) ∧
      (groups.toList.map Group.name).Nodup ∧ ((projectsOf groups.toList).map Project.id).Nodup ∧
      (∀ p ∈ projectsOf groups.toList, p.Sound) ∧
      ((pointersOf (projectsOf groups.toList)).map Pointer.pipeline).Nodup ∧
      r = ⟨⟨groups.toList.map .settled⟩, Checked.ownersOf ∅ groups.toList⟩ := by
  simp only [ofGroups?, bind_eq_ok, checkSecured_eq_ok, Checked.groups_eq_ok, pure_eq_ok]
  simp only [Checked.nothing, List.not_mem_nil, Std.ExtTreeMap.not_mem_empty, Fresh.nothing_iff]
  constructor
  · rintro ⟨-, hsecured, c, ⟨hnames, hids, hsound, hpipelines, rfl⟩, rfl⟩
    exact ⟨hsecured, hnames, hids, hsound, hpipelines, rfl⟩
  · rintro ⟨hsecured, hnames, hids, hsound, hpipelines, rfl⟩
    exact ⟨(), hsecured, _, ⟨hnames, hids, hsound, hpipelines, rfl⟩, rfl⟩

theorem projectsOf_settled (gs : List Group) :
    projectsOf (gs.map .settled) = (projectsOf gs).map .settled := by
  simp only [projectsOf, List.flatMap_map, List.map_flatMap]
  rfl

theorem pointersOf_settled (ps : List Project) : pointersOf (ps.map .settled) = pointersOf ps := by
  simp only [pointersOf, List.flatMap_map]
  rfl

theorem keys_settled (g : Group) : g.settled.projects.keys = g.projects.keys := by
  simp only [Listing.keys, Group.settled, List.map_map]
  rfl

/-- The registry of a document is valid. -/
theorem Valid.ofGroups? {groups : Listing Group} {r : Registry} (hgroups : groups.keys.Nodup)
    (hpointers : ∀ p ∈ projectsOf groups.toList, p.pointers.keys.Nodup)
    (h : ofGroups? groups = .ok r) : r.Valid := by
  obtain ⟨⟨g, hg, hsecured⟩, hnames, hids, hsound, hpipelines, rfl⟩ := ofGroups?_eq_ok.mp h
  have hkeys : (⟨groups.toList.map .settled⟩ : Listing Group).keys = groups.keys := by
    simp only [Listing.keys, List.map_map]
    rfl
  constructor
  case group_keys => exact hkeys ▸ hgroups
  case project_keys =>
    rw [projects_eq, projectsOf_settled, List.map_map]
    exact hids
  case group_names =>
    rw [List.map_map]
    exact hnames
  case projects_valid =>
    intro p hp
    rw [projects_eq, projectsOf_settled] at hp
    obtain ⟨p₀, hp₀, rfl⟩ := List.mem_map.mp hp
    exact (hsound p₀ hp₀).valid_settled (hpointers p₀ hp₀)
  case pipelines_nodup =>
    rw [pipelines, pointers_eq, projectsOf_settled, pointersOf_settled]
    exact hpipelines
  case owner_iff =>
    intro p g
    obtain ⟨hmem, hnot⟩ := Checked.getElem?_ownersOf (p := p) hids ∅
    simp only [ownerOf?, group?, Listing.get?_eq_some_iff (hkeys ▸ hgroups), List.mem_map]
    constructor
    · intro howner
      by_cases hp : ∃ group ∈ groups.toList, p ∈ group.projects.keys
      · obtain ⟨group, hgroup, hp⟩ := hp
        rw [hmem group hgroup hp, Option.some_inj] at howner
        exact ⟨group.settled, ⟨⟨group, hgroup, rfl⟩, howner⟩, keys_settled group ▸ hp⟩
      · rw [hnot fun group hgroup hmem => hp ⟨group, hgroup, hmem⟩] at howner
        simp at howner
    · rintro ⟨_, ⟨⟨group, hgroup, rfl⟩, rfl⟩, hp⟩
      exact hmem group hgroup (keys_settled group ▸ hp)
  case secured =>
    refine ⟨g.settled, ?_, hsecured.settled⟩
    obtain ⟨hmem, hkey⟩ := (Listing.get?_eq_some_iff hgroups).mp hg
    exact (Listing.get?_eq_some_iff (hkeys ▸ hgroups)).mpr ⟨List.mem_map_of_mem hmem, hkey⟩

/-- The index of owners does not depend on the counts. -/
theorem ownersOf_settled (owners : Std.ExtTreeMap ProjectId GroupId) (gs : List Group) :
    Checked.ownersOf owners (gs.map .settled) = Checked.ownersOf owners gs := by
  simp only [Checked.ownersOf, List.foldl_map, keys_settled]
  rfl

theorem get?_settled (groups : Listing Group) (g : GroupId) :
    (⟨groups.toList.map .settled⟩ : Listing Group).get? g = (groups.get? g).map .settled := by
  rw [Listing.get?, List.find?_map]
  rfl

namespace Valid

variable {r : Registry}

/-- The counts of a valid registry are above all pointers. -/
theorem settled_groups (hr : r.Valid) : r.groups.toList.map .settled = r.groups.toList := by
  refine (List.map_congr_left ?_).trans (List.map_id _)
  intro group hgroup
  have hps : group.projects.toList.map .settled = group.projects.toList := by
    refine (List.map_congr_left ?_).trans (List.map_id _)
    intro p hp
    exact (hr.projects_valid p (mem_projects.mpr ⟨group, hgroup, hp⟩)).settled_eq
  rw [Group.settled, hps]
  rfl

/-- The index of a valid registry is the one that the check of its groups builds. -/
theorem owners_eq (hr : r.Valid) : r.owners = Checked.ownersOf ∅ r.groups.toList := by
  refine Std.ExtTreeMap.ext_getElem? ?_
  intro p
  obtain ⟨hmem, hnot⟩ := Checked.getElem?_ownersOf (p := p) hr.project_keys ∅
  cases howner : r.ownerOf? p with
  | some g =>
      obtain ⟨group, hgroup, rfl, hp⟩ := hr.owner_iff_mem.mp howner
      exact howner.trans (hmem group hgroup hp).symm
  | none =>
      refine howner.trans (Eq.symm ((hnot ?_).trans Std.ExtTreeMap.getElem?_empty))
      intro group hgroup hp
      rw [hr.owner_iff_mem.mpr ⟨group, hgroup, rfl, hp⟩] at howner
      cases howner

/-- A document with the groups of a valid registry gives the registry back, even if counts in it are too
low. -/
theorem ofGroups?_of_settled (hr : r.Valid) {groups : Listing Group}
    (h : groups.toList.map .settled = r.groups.toList) : Registry.ofGroups? groups = .ok r := by
  have hgroups : r.groups = ⟨groups.toList.map .settled⟩ := by
    rw [h]
  have hprojects : r.projects = (projectsOf groups.toList).map .settled := by
    rw [← projectsOf_settled, h]
    rfl
  refine ofGroups?_eq_ok.mpr ⟨?_, ?_, ?_, ?_, ?_, ?_⟩
  · obtain ⟨_, hsettled, hsecured⟩ := hr.secured
    rw [group?, hgroups, get?_settled] at hsettled
    obtain ⟨g, hg, rfl⟩ := Option.map_eq_some_iff.mp hsettled
    exact ⟨g, hg, hsecured.of_settled⟩
  · have hnames := hr.group_names
    rwa [hgroups, List.map_map] at hnames
  · have hkeys := hr.project_keys
    rwa [hprojects, List.map_map] at hkeys
  · intro p hp
    have hvalid := hr.projects_valid p.settled (hprojects ▸ List.mem_map_of_mem hp)
    exact hvalid.sound
  · have hpipelines := hr.pipelines_nodup
    rwa [pipelines, pointers_eq, ← projects_eq, hprojects, pointersOf_settled] at hpipelines
  · have howners : r.owners = Checked.ownersOf ∅ groups.toList := by
      rw [← ownersOf_settled, h]
      exact hr.owners_eq
    rw [← hgroups, ← howners]

/-- The groups of a valid registry are a document that gives the registry back. -/
theorem ofGroups?_groups (hr : r.Valid) : Registry.ofGroups? r.groups = .ok r :=
  hr.ofGroups?_of_settled hr.settled_groups

end Valid
end Registry
end PipelineRegistry
