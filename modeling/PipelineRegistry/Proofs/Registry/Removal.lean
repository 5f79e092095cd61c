import Mathlib
import PipelineRegistry.Proofs.Registry.Counting
import PipelineRegistry.Proofs.Registry.Lookup

/-! # Removals

A removal takes a project or a group out, and everything in it.  A soft removal keeps what was in it: the
pointers of a project go to the end of the secured project, which gives them new identifiers, and the
projects of a group go to the end of the secured group as they are. -/

namespace PipelineRegistry

open Calendar

/-- The pointers that stay in the registry when the project is removed. -/
def Project.kept (p : Project) (hard : Bool) : List Pointer := if hard then [] else p.pointers.toList

theorem Project.length_kept_le (p : Project) (hard : Bool) : (p.kept hard).length ≤ p.pointers.size := by
  cases hard with
  | true => exact Nat.zero_le _
  | false => exact Nat.le_refl _

/-- There are identifiers for what is kept. -/
theorem Project.length_kept_lt {p : Project} {hard : Bool} {next : PointerId}
    (hfit : hard = true ∨ next.toNat + p.pointers.size < UInt64.size) :
    next.toNat + (p.kept hard).length < UInt64.size := by
  cases hard with
  | true => exact next.toNat_lt_size
  | false => exact hfit.resolve_left Bool.false_ne_true

/-- The projects that stay in the registry when the group is removed. -/
def Group.kept (g : Group) (hard : Bool) : List Project := if hard then [] else g.projects.toList

theorem Group.kept_sublist (g : Group) (hard : Bool) : (g.kept hard).Sublist g.projects.toList := by
  cases hard with
  | true => exact List.nil_sublist _
  | false => exact List.Sublist.refl _

/-- The group with projects at the end of its own. -/
def Group.takeIn (g : Group) (ps : List Project) : Group :=
  { g with projects := ⟨g.projects.toList ++ ps⟩ }

namespace Registry

variable {r r' : Registry} {g : GroupId} {p : ProjectId} {project secured : Project}
  {group removed : Group} {hard : Bool} {kept : List Pointer}

/-! ### Removing a project -/

/-- The registry without project `p` of group `g`; the secured project has taken in the pointers that
are kept. -/
def withoutProject (r : Registry) (g : GroupId) (p : ProjectId) (kept : List Pointer) : Registry :=
  (r.eraseProject g p).modifyProject securedProjectId (·.takeIn kept)

/-- The secured project adopts pointers as long as its identifiers last. -/
theorem Valid.rehome_eq (hr : r.Valid) (hsecured : r.project? securedProjectId = some secured)
    (qs : List Pointer) : r.rehome qs =
      if secured.nextPointerId.toNat + qs.length < UInt64.size
      then .ok (r.modifyProject securedProjectId (·.takeIn qs))
      else .error (.idsExhausted .pointer) := by
  have hcongr : (r.modifyProject securedProjectId fun _ => secured.takeIn qs) =
      r.modifyProject securedProjectId (·.takeIn qs) := hr.modifyProject_congr hsecured rfl
  have hadopt := (hr.valid_of_project? hsecured).adoptAll?_eq qs
  unfold rehome
  simp only [hsecured, hadopt]
  by_cases hfit : secured.nextPointerId.toNat + qs.length < UInt64.size
  · simp only [if_pos hfit, ← hcongr]
    rfl
  · simp only [if_neg hfit]
    rfl

theorem deleteProject_of_group?_eq_none (h : r.group? g = none) (p : ProjectId) (hard : Bool) :
    r.deleteProject g p hard = .error (.notFound .group g) := by
  unfold deleteProject
  simp only [h]
  rfl

theorem deleteProject_of_not_mem (hgroup : r.group? g = some group) (hp : p ∉ group.projects.keys)
    (hard : Bool) : r.deleteProject g p hard = .error (.notFound .project p) := by
  unfold deleteProject
  simp only [hgroup, Listing.contains_eq_false_iff.mpr hp]
  rfl

/-- The secured project is left alone. -/
theorem deleteProject_secured (hgroup : r.group? g = some group)
    (hp : securedProjectId ∈ group.projects.keys) (hard : Bool) :
    r.deleteProject g securedProjectId hard = .ok (none, r) := by
  unfold deleteProject
  simp only [hgroup, Listing.contains_iff.mpr hp]
  rfl

/-- What comes of the removal of a project that is there and is not the secured one. -/
theorem Valid.deleteProject_eq (hr : r.Valid) (hgroup : r.group? g = some group)
    (hproject : group.projects.get? p = some project) (hp : p ≠ securedProjectId)
    (hsecured : r.project? securedProjectId = some secured) (hard : Bool) :
    r.deleteProject g p hard =
      if hard = true ∨ secured.nextPointerId.toNat + project.pointers.size < UInt64.size
      then .ok (some project, r.withoutProject g p (project.kept hard))
      else .error (.idsExhausted .pointer) := by
  have hmem := Listing.mem_keys_of_get? hproject
  have hcontains : group.projects.contains p = true := Listing.contains_iff.mpr hmem
  have howner := hr.ownerOf?_of_mem_keys hgroup hmem
  have hfound := (project?_eq_some howner hgroup).trans hproject
  obtain ⟨A, group', B, C, D, hplace⟩ := hr.exists_place_of_owner howner hfound
  have hrest := hr.eraseProject hplace hp
  unfold Registry.deleteProject
  simp only [hgroup, hcontains, not_true_eq_false, if_false, if_neg hp, howner, hfound]
  by_cases hgone : hard = true ∨ project.pointers.toList = []
  · have hnothing : project.kept hard = [] := by
      rcases hgone with rfl | hempty <;> simp [Project.kept, *]
    have hfits : hard = true ∨ secured.nextPointerId.toNat + project.pointers.size < UInt64.size := by
      refine hgone.imp_right fun hempty => ?_
      simpa [Listing.size, hempty] using secured.nextPointerId.toNat_lt_size
    rw [if_pos hgone, if_pos hfits, hnothing]
    simp only [withoutProject, Project.takeIn_nil, modifyProject_id]
    rfl
  · obtain ⟨rfl, -⟩ : hard = false ∧ project.pointers.toList ≠ [] := by simpa using hgone
    have hsecured' : (r.eraseProject g p).project? securedProjectId = some secured := by
      rw [hr.project?_eraseProject howner, if_neg (Ne.symm hp), hsecured]
    rw [if_neg hgone, hrest.rehome_eq hsecured']
    simp only [Bool.false_eq_true, false_or, Project.kept, if_false, Listing.size]
    split <;> rfl

/-- `r'` is `r` without project `p` of group `g`; the secured project has taken in the pointers that
are kept, under the identifiers that come next. -/
structure LosesProject (r r' : Registry) (g : GroupId) (p : ProjectId) (kept : List Pointer) : Prop where
  groups : r'.groups.toList = r.groups.toList.map fun group =>
    { group with projects := (group.projects.erase p).modify securedProjectId (·.takeIn kept) }
  other_group : ∀ x, x ≠ g → x ≠ securedGroupId → r'.group? x = r.group? x
  owner : ∀ q, r'.ownerOf? q = if q = p then none else r.ownerOf? q
  gone : r'.project? p = none
  other_project : ∀ q, q ≠ p → q ≠ securedProjectId → r'.project? q = r.project? q
  secured : ∀ secured, r.project? securedProjectId = some secured →
    r'.project? securedProjectId = some (secured.takeIn kept) ∧
    (∀ q ∈ secured.numbered kept, q.projectId = securedProjectId) ∧
    (secured.takeIn kept).nextPointerId.toNat = secured.nextPointerId.toNat + kept.length ∧
    (secured.numbered kept).map (·.id.toNat) = List.range' secured.nextPointerId.toNat kept.length

theorem Valid.losesProject (hr : r.Valid) (howner : r.ownerOf? p = some g)
    (hp : p ≠ securedProjectId) (hsecured : r.project? securedProjectId = some secured)
    (hfit : secured.nextPointerId.toNat + kept.length < UInt64.size) :
    r.LosesProject (r.withoutProject g p kept) g p kept := by
  obtain ⟨group, hgroup, hmem⟩ := (hr.owner_iff p g).mp howner
  obtain ⟨project, hproject⟩ := Option.ne_none_iff_exists'.mp fun h => Listing.get?_eq_none_iff.mp h hmem
  obtain ⟨A, _, B, C, D, hplace⟩ :=
    hr.exists_place_of_owner howner ((project?_eq_some howner hgroup).trans hproject)
  have hrest := hr.eraseProject hplace hp
  have hgroups : (r.withoutProject g p kept).groups = ⟨r.groups.toList.map fun group =>
      { group with projects := (group.projects.erase p).modify securedProjectId (·.takeIn kept) }⟩ := by
    rw [withoutProject, hrest.groups_modifyProject, hr.groups_eraseProject howner, List.map_map]
    rfl
  have hlookup : ∀ q, (r.withoutProject g p kept).project? q = if q = p then none
      else if q = securedProjectId then (r.project? q).map (·.takeIn kept) else r.project? q := by
    intro q
    rw [withoutProject, hrest.project?_modifyProject (f := (·.takeIn kept)) (fun _ => rfl),
      hr.project?_eraseProject howner]
    split_ifs <;> rfl
  constructor
  case groups => rw [hgroups]
  case other_group =>
    intro x hx hx₀
    rw [group?_of_groups_eq hgroups fun _ => rfl]
    cases hother : r.group? x with
    | none => rfl
    | some other =>
        have hp' : p ∉ other.projects.keys := by
          intro hmem
          rw [hr.ownerOf?_of_mem_keys hother hmem, Option.some_inj] at howner
          exact hx howner
        have hsecured' := hr.securedProjectId_not_mem hother hx₀
        rw [Option.map_some, Listing.erase_eq_self hp', Listing.modify_of_not_mem hsecured']
  case owner =>
    intro q
    rw [withoutProject, ownerOf?_modifyProject, ownerOf?_eraseProject]
    simp only [eq_comm]
  case gone => rw [hlookup, if_pos rfl]
  case other_project =>
    intro q hq hq₀
    rw [hlookup, if_neg hq, if_neg hq₀]
  case secured =>
    intro secured' hsecured'
    obtain rfl := Option.some_inj.mp (hsecured'.symm.trans hsecured)
    refine ⟨?_, ?_, Project.toNat_nextPointerId_takeIn hfit, Project.ids_numbered hfit⟩
    · rw [hlookup, if_neg hp.symm, if_pos rfl, hsecured]
      rfl
    · intro q hq
      obtain ⟨i, hi, rfl⟩ := List.mem_mapIdx.mp hq
      exact hr.id_of_project? hsecured

/-! ### Removing a group -/

/-- The registry without a group; the secured group has taken in the projects that are kept. -/
def withoutGroup (r : Registry) (group : Group) (kept : List Project) : Registry :=
  kept.foldl (fun r p => r.insertProject securedGroupId p) (r.eraseGroup group)

theorem deleteGroup_of_group?_eq_none (h : r.group? g = none) (hard : Bool) :
    r.deleteGroup g hard = .error (.notFound .group g) := by
  unfold deleteGroup
  simp only [h]
  rfl

/-- The secured group is left alone. -/
theorem deleteGroup_secured (hgroup : r.group? securedGroupId = some group) (hard : Bool) :
    r.deleteGroup securedGroupId hard = .error (.securedEntity .group securedGroupId) := by
  unfold deleteGroup
  simp only [hgroup]
  rfl

/-- What comes of the removal of a group that is there and is not the secured one. -/
theorem deleteGroup_eq (hgroup : r.group? g = some group) (hg : g ≠ securedGroupId) (hard : Bool) :
    r.deleteGroup g hard = .ok (group, r.withoutGroup group (group.kept hard)) := by
  unfold deleteGroup
  simp only [hgroup, if_neg hg]
  cases hard <;> rfl

/-- The projects of two groups have different identifiers. -/
theorem Valid.nodup_keys_append (hr : r.Valid) {g' : GroupId} {group' : Group}
    (hgroup : r.group? g = some group) (hgroup' : r.group? g' = some group') (hne : g ≠ g') :
    ((group.projects.toList ++ group'.projects.toList).map Project.id).Nodup := by
  rw [List.map_append, List.nodup_append]
  refine ⟨hr.project_keys_of_group? hgroup, hr.project_keys_of_group? hgroup', ?_⟩
  rintro p hp _ hp' rfl
  have howner := hr.ownerOf?_of_mem_keys hgroup hp
  rw [hr.ownerOf?_of_mem_keys hgroup' hp'] at howner
  exact hne (Option.some_inj.mp howner).symm

/-- The projects of a group that are kept go to the end of the secured group. -/
theorem Valid.groups_withoutGroup (hr : r.Valid) (hgroup : r.group? g = some group)
    (hg : g ≠ securedGroupId) {ps : List Project} (hps : ps.Sublist group.projects.toList) :
    (r.withoutGroup group ps).groups = (r.groups.erase g).modify securedGroupId (·.takeIn ps) ∧
      (r.withoutGroup group ps).projects.Perm ((r.eraseGroup group).projects ++ ps) := by
  have hid : group.id = g := Listing.key_of_get? hgroup
  have hrest := hr.eraseGroup hgroup hg
  obtain ⟨secured, hsecured, -⟩ := hrest.secured
  obtain ⟨A, B, hAB⟩ := Listing.exists_splits hrest.group_keys hsecured
  have hsecured₀ : r.group? securedGroupId = some secured := by
    rw [← show secured.id = securedGroupId from hAB.key_eq]
    exact hr.group?_id (List.mem_of_mem_filter hAB.mem)
  have hkeys := ((hps.append_left secured.projects.toList).map Project.id).nodup
    (hr.nodup_keys_append hsecured₀ hgroup hg.symm)
  have hlist : (r.withoutGroup group ps).groups.toList = A ++ secured.takeIn ps :: B :=
    toList_foldl_insertProject hAB ps hkeys
  constructor
  · rw [← hid]
    exact congrArg Listing.ofList (hlist.trans (hAB.toList_modify (·.takeIn ps)).symm)
  · rw [projects_eq, projects_eq, hlist, hAB.toList_eq]
    simp only [projectsOf_append, projectsOf_cons, Group.takeIn, List.append_assoc]
    exact List.Perm.append_left _ (List.Perm.append_left _ List.perm_append_comm)

/-- Taking a group out takes its projects out. -/
theorem projects_eraseGroup (hr : r.Valid) (hgroup : r.group? g = some group) :
    r.projects.Perm ((r.eraseGroup group).projects ++ group.projects.toList) := by
  obtain ⟨A, B, hAB⟩ := Listing.exists_splits hr.group_keys hgroup
  rw [projects_eq, projects_eq, toList_eraseGroup hAB, hAB.toList_eq, projectsOf_append,
    projectsOf_append, projectsOf_cons, List.append_assoc]
  exact List.Perm.append_left _ List.perm_append_comm

theorem ownerOf?_withoutGroup (r : Registry) (group : Group) (hard : Bool) (p : ProjectId) :
    (r.withoutGroup group (group.kept hard)).ownerOf? p = if p ∈ group.projects.keys
      then if hard then none else some securedGroupId else r.ownerOf? p := by
  rw [withoutGroup, ownerOf?_foldl_insertProject, ownerOf?_eraseGroup]
  cases hard with
  | true => rfl
  | false =>
      change (if p ∈ group.projects.keys then _ else _) = _
      split <;> rfl

/-- The projects that are kept are found as they were. -/
theorem Valid.project?_withoutGroup (hr : r.Valid) (hgroup : r.group? g = some group)
    (hg : g ≠ securedGroupId) (hr' : (r.withoutGroup group (group.kept hard)).Valid) (p : ProjectId) :
    (r.withoutGroup group (group.kept hard)).project? p =
      if hard = true ∧ p ∈ group.projects.keys then none else r.project? p := by
  split
  · rename_i hgone
    have hnone := r.ownerOf?_withoutGroup group hard p
    rw [if_pos hgone.2, if_pos hgone.1] at hnone
    simp [Registry.project?, hnone]
  · rename_i hstays
    obtain ⟨-, hprojects⟩ := hr.groups_withoutGroup hgroup hg (group.kept_sublist hard)
    ext project
    rw [hr'.project?_eq_some_iff, hr.project?_eq_some_iff, hprojects.mem_iff,
      (projects_eraseGroup hr hgroup).mem_iff]
    refine and_congr_left fun hp => ?_
    cases hard with
    | false => rfl
    | true =>
        have hnot : project ∉ group.projects.toList := fun hmem =>
          hstays ⟨rfl, Listing.mem_keys.mpr ⟨project, hmem, hp⟩⟩
        simp [Group.kept, hnot]

/-- `r'` is `r` without the group `removed`, whose projects have gone to the secured group, or nowhere
if the removal is hard. -/
structure LosesGroup (r r' : Registry) (removed : Group) (hard : Bool) : Prop where
  groups : r'.groups.toList = (r.groups.toList.filter (·.id ≠ removed.id)).map fun group =>
    if group.id = securedGroupId then group.takeIn (removed.kept hard) else group
  gone : r'.group? removed.id = none
  other_group : ∀ g, g ≠ removed.id → r'.group? g = if g = securedGroupId
    then (r.group? g).map (·.takeIn (removed.kept hard)) else r.group? g
  owner : ∀ p, r'.ownerOf? p = if p ∈ removed.projects.keys
    then if hard then none else some securedGroupId else r.ownerOf? p
  project : ∀ p, r'.project? p =
    if hard = true ∧ p ∈ removed.projects.keys then none else r.project? p
  secured : r'.project? securedProjectId = r.project? securedProjectId
  counts : hard = false → r'.projectCount = r.projectCount ∧ r'.pointerCount = r.pointerCount

theorem Valid.losesGroup (hr : r.Valid) (hgroup : r.group? g = some removed)
    (hg : g ≠ securedGroupId) (hard : Bool) :
    r.LosesGroup (r.withoutGroup removed (removed.kept hard)) removed hard := by
  have hid : removed.id = g := Listing.key_of_get? hgroup
  have hr' := hr.deleteGroup (deleteGroup_eq hgroup hg hard)
  have hproject := hr.project?_withoutGroup hgroup hg hr'
  obtain ⟨hgroups, hprojects⟩ := hr.groups_withoutGroup hgroup hg (removed.kept_sublist hard)
  have hlookup : ∀ x, (r.withoutGroup removed (removed.kept hard)).group? x = if x = securedGroupId
      then (r.group? x).map (·.takeIn (removed.kept hard))
      else if x = g then none else r.group? x := by
    intro x
    have hkey : ∀ group : Group, Keyed.key group = securedGroupId →
        Keyed.key (group.takeIn (removed.kept hard)) = securedGroupId := fun _ => id
    rw [Registry.group?, hgroups, Listing.get?_modify hkey, Listing.get?_erase, Listing.get?_erase,
      if_neg hg.symm]
    split
    · rename_i hx
      rw [hx]
      rfl
    · rfl
  constructor
  case groups =>
    rw [hgroups, ← hid]
    rfl
  case gone => rw [hlookup, hid, if_neg hg, if_pos rfl]
  case other_group =>
    intro x hx
    rw [hid] at hx
    rw [hlookup, if_neg hx]
  case owner => exact r.ownerOf?_withoutGroup removed hard
  case project => exact hproject
  case secured =>
    rw [hproject, if_neg]
    exact fun hgone => hr.securedProjectId_not_mem hgroup hg hgone.2
  case counts =>
    rintro rfl
    rw [hr'.projectCount_eq, hr.projectCount_eq, pointerCount_eq, pointerCount_eq]
    exact ⟨(hprojects.trans (projects_eraseGroup hr hgroup).symm).length_eq,
      (hr.rehomeProjects hgroup hg).2.length_eq⟩

end Registry
end PipelineRegistry
