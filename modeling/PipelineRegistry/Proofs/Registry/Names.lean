import Mathlib
import PipelineRegistry.Proofs.Registry.Removal

/-! # Names of projects

A name for a project is checked against the names of the other projects of its group when the project
is created and when it is renamed.  Only one other thing brings projects to a group: the soft removal of
a group lists its projects in the secured group, and there nothing is checked.  So the names differ in
every other group, and in the secured group they differ as long as no group is removed softly that has a
name in common with it. -/

namespace PipelineRegistry

open Calendar

/-- The projects of the group have different names. -/
def Group.NamesApart (g : Group) : Prop := (g.projects.toList.map Project.name).Nodup

instance (g : Group) : Decidable g.NamesApart := inferInstanceAs (Decidable (List.Nodup _))

/-- A project may get a name that no other project of its group has. -/
theorem Group.NamesApart.modify {g : Group} (h : g.NamesApart) (hkeys : g.projects.keys.Nodup)
    {p : ProjectId} {f : Project → Project} {name : String} (hf : ∀ x : Project, (f x).name = name)
    (hother : ∀ x ∈ g.projects.toList, x.id ≠ p → x.name ≠ name) :
    ({ g with projects := g.projects.modify p f } : Group).NamesApart := by
  unfold Group.NamesApart at h ⊢
  unfold Listing.keys at hkeys
  rw [Listing.toList_modify, List.map_map]
  rw [List.nodup_iff_pairwise_ne, List.pairwise_map] at h hkeys ⊢
  refine (h.and hkeys).imp_of_mem ?_
  rintro x y hx hy ⟨hname, hid⟩
  change Project.name (ite _ _ _) ≠ Project.name (ite _ _ _)
  split <;> rename_i hxp <;> split <;> rename_i hyp
  · exact absurd (hxp.trans hyp.symm) hid
  · rw [hf]
    exact (hother y hy hyp).symm
  · rw [hf]
    exact hother x hx hxp
  · exact hname

/-- Projects may be listed behind those of a group if the group has none of their names. -/
theorem Group.NamesApart.append_iff {g : Group} (h : g.NamesApart) {ps : List Project}
    (hps : (ps.map Project.name).Nodup) :
    ({ g with projects := ⟨g.projects.toList ++ ps⟩ } : Group).NamesApart ↔
      ∀ p ∈ ps, g.hasProjectNamed p.name = false := by
  unfold Group.NamesApart at h ⊢
  rw [List.map_append, List.nodup_append]
  constructor
  · rintro ⟨-, -, hne⟩ p hp
    rw [Group.hasProjectNamed, List.any_eq_false]
    intro x hx hname
    exact hne _ (List.mem_map_of_mem hx) _ (List.mem_map_of_mem hp) (beq_iff_eq.mp hname)
  · intro hnew
    refine ⟨h, hps, ?_⟩
    intro name hname name' hname' heq
    obtain ⟨x, hx, rfl⟩ := List.mem_map.mp hname
    obtain ⟨p, hp, rfl⟩ := List.mem_map.mp hname'
    have hfree := hnew p hp
    rw [Group.hasProjectNamed, List.any_eq_false] at hfree
    exact hfree x hx (beq_iff_eq.mpr heq)

namespace Registry

variable {r r' r'' : Registry} {now : Timestamp} {g : GroupId} {p : ProjectId} {group : Group}
  {project : Project}

/-- In each group the projects have different names. -/
def NamesApart (r : Registry) : Prop := ∀ group ∈ r.groups.toList, group.NamesApart

instance (r : Registry) : Decidable r.NamesApart :=
  inferInstanceAs (Decidable (∀ group ∈ r.groups.toList, group.NamesApart))

/-! ### Changes that keep names apart -/

/-- Where the names of a group of `r` differ, the names of what has become of it differ in `r'`, and so
do those of new groups. -/
def KeepsNames (r r' : Registry) : Prop :=
  ∀ x ∈ r'.groups.toList, x.NamesApart ∨
    ∃ former ∈ r.groups.toList, former.id = x.id ∧ (former.NamesApart → x.NamesApart)

theorem keepsNames_refl (r : Registry) : r.KeepsNames r := fun x hx => .inr ⟨x, hx, rfl, id⟩

theorem KeepsNames.trans (h : r.KeepsNames r') (h' : r'.KeepsNames r'') : r.KeepsNames r'' := by
  intro x hx
  rcases h' x hx with hx | ⟨y, hy, hid, hxy⟩
  · exact .inl hx
  · rcases h y hy with hy | ⟨z, hz, hid', hyz⟩
    · exact .inl (hxy hy)
    · exact .inr ⟨z, hz, hid'.trans hid, hxy ∘ hyz⟩

/-- A group may be changed in its place. -/
theorem keepsNames_modifyGroup {f : Group → Group} (hid : ∀ x, (f x).id = x.id)
    (hnames : ∀ x ∈ r.groups.toList, x.id = g → x.NamesApart → (f x).NamesApart) :
    r.KeepsNames (r.modifyGroup g f) := by
  intro x hx
  obtain ⟨former, hformer, rfl⟩ := List.mem_map.mp hx
  refine .inr ⟨former, hformer, ?_⟩
  split
  · rename_i hkey
    exact ⟨(hid former).symm, hnames former hformer hkey⟩
  · exact ⟨rfl, id⟩

/-- A project may be changed in its place if it keeps its name. -/
theorem keepsNames_modifyProject {f : Project → Project}
    (hname : ∀ x ∈ r.projects, x.id = p → (f x).name = x.name) :
    r.KeepsNames (r.modifyProject p f) := by
  unfold modifyProject
  split
  · exact keepsNames_refl _
  · refine keepsNames_modifyGroup (fun _ => rfl) ?_
    intro group hgroup _ happart
    have hsame : (group.projects.modify p f).toList.map Project.name =
        group.projects.toList.map Project.name := by
      rw [Listing.toList_modify, List.map_map]
      refine List.map_congr_left ?_
      intro x hx
      change Project.name (ite _ _ _) = x.name
      split
      · rename_i hkey
        exact hname x (mem_projects.mpr ⟨group, hgroup, hx⟩) hkey
      · rfl
    unfold Group.NamesApart
    rw [hsame]
    exact happart

theorem keepsNames_eraseProject (r : Registry) (g : GroupId) (p : ProjectId) :
    r.KeepsNames (r.eraseProject g p) := by
  have hkeeps : r.KeepsNames (r.modifyGroup g fun group =>
      { group with projects := group.projects.erase p }) := by
    refine keepsNames_modifyGroup (fun _ => rfl) ?_
    intro group _ _ happart
    exact (List.filter_sublist.map _).nodup happart
  exact hkeeps

theorem keepsNames_eraseGroup (r : Registry) (group : Group) :
    r.KeepsNames (r.eraseGroup group) := by
  intro x hx
  exact .inr ⟨x, List.mem_of_mem_filter hx, rfl, id⟩

theorem keepsNames_insertGroup (hnew : group.id ∉ r.groups.keys)
    (hempty : group.projects.toList = []) : r.KeepsNames (r.insertGroup group) := by
  intro x hx
  rw [toList_insertGroup hnew, List.mem_append, List.mem_singleton] at hx
  rcases hx with hx | rfl
  · exact .inr ⟨x, hx, rfl, id⟩
  · refine .inl ?_
    rw [Group.NamesApart, hempty]
    exact List.nodup_nil

theorem Valid.eq_of_group? (hr : r.Valid) (hgroup : r.group? g = some group) {x : Group}
    (hx : x ∈ r.groups.toList) (hid : x.id = g) : x = group := by
  rw [← hid, hr.group?_id hx] at hgroup
  exact Option.some_inj.mp hgroup

/-- A project may be listed in a group that has none of its name. -/
theorem Valid.keepsNames_insertProject (hr : r.Valid) (hgroup : r.group? g = some group)
    (hnew : r.ownerOf? project.id = none) (hname : group.hasProjectNamed project.name = false) :
    r.KeepsNames (r.insertProject g project) := by
  have hkeeps : r.KeepsNames (r.modifyGroup g fun group =>
      { group with projects := group.projects.insert project }) := by
    refine keepsNames_modifyGroup (fun _ => rfl) ?_
    intro x hx hid happart
    obtain rfl := hr.eq_of_group? hgroup hx hid
    have hlist : x.projects.insert project = ⟨x.projects.toList ++ [project]⟩ :=
      congrArg Listing.ofList
        (Listing.toList_insert (hr.not_mem_keys_of_ownerOf?_eq_none hgroup hnew))
    have hone : ([project].map Project.name).Nodup := List.nodup_singleton _
    rw [hlist]
    refine (happart.append_iff hone).mpr ?_
    intro p hp
    rwa [List.mem_singleton.mp hp]
  exact hkeeps

/-! ### Operations -/

theorem Valid.keepsNames_editProject (hr : r.Valid) {edit : Edit}
    (h : r.editProject now p edit = .ok (project, r')) : r.KeepsNames r' := by
  obtain ⟨former, hformer, hpermitted, -, rfl⟩ := editProject_ok h
  cases edit with
  | tag value => exact keepsNames_modifyProject fun _ _ _ => rfl
  | describe value => exact keepsNames_modifyProject fun _ _ _ => rfl
  | rename name =>
      obtain ⟨g, A, group, B, C, D, hplace⟩ := hr.exists_place hformer
      obtain ⟨-, hfree⟩ := hpermitted name rfl
      rw [namesBeside_eq hplace.bind_owner, Listing.mem_namesBeside] at hfree
      have hsiblings : ∀ other ∈ group.projects.toList, other.id ≠ p → other.name ≠ name :=
        fun other hother hne hname => hfree ⟨other, hother, hne, hname⟩
      rw [hplace.modifyProject_eq]
      refine keepsNames_modifyGroup (fun _ => rfl) ?_
      intro x hx hid happart
      obtain rfl := hr.eq_of_group? hplace.group?_eq hx hid
      exact happart.modify (hr.project_keys_of_mem hx) (fun _ => rfl) hsiblings

/-- A project may give way to one of the same name. -/
theorem Valid.keepsNames_replaceProject (hr : r.Valid) {project' : Project}
    (hproject : r.project? p = some project) (hname : project'.name = project.name) :
    r.KeepsNames (r.modifyProject p fun _ => project') := by
  refine keepsNames_modifyProject ?_
  intro x hx hid
  have hx' := hr.addressed.project x hx
  rw [hid, hproject] at hx'
  cases hx'
  exact hname

theorem Valid.keepsNames_rehome (hr : r.Valid) {pointers : List Pointer}
    (h : r.rehome pointers = .ok r') : r.KeepsNames r' := by
  obtain ⟨secured, adopted, hsecured, hadopted, rfl⟩ := rehome_ok h
  obtain ⟨-, -, hname⟩ := (hr.valid_of_project? hsecured).adoptAll? hadopted
  exact hr.keepsNames_replaceProject hsecured hname

theorem Valid.keepsNames_deleteProject (hr : r.Valid) {hard : Bool} {removed : Option Project}
    (h : r.deleteProject g p hard = .ok (removed, r')) : r.KeepsNames r' := by
  obtain ⟨group, -, -, h⟩ := deleteProject_ok h
  rcases h with ⟨-, -, rfl⟩ | ⟨hp, owner, project, howner, hproject, -, h⟩
  · exact keepsNames_refl _
  have herase := r.keepsNames_eraseProject owner p
  rcases h with ⟨-, rfl⟩ | ⟨-, -, hrehome⟩
  · exact herase
  · obtain ⟨A, group', B, C, D, hplace⟩ := hr.exists_place_of_owner howner hproject
    exact herase.trans ((hr.eraseProject hplace hp).keepsNames_rehome hrehome)

/-- The names of what the operation moves to the secured group are not in use there. -/
def NamesFit (r : Registry) : Operation → Prop
  | .deleteGroup g false => ∀ group ∈ r.group? g, ∀ secured ∈ r.group? securedGroupId,
      ∀ project ∈ group.projects.toList, secured.hasProjectNamed project.name = false
  | _ => True

/-- Every operation but the soft removal of a group keeps names apart. -/
theorem Valid.keepsNames_or_deleteGroup (hr : r.Valid) {operation : Operation} {outcome : Outcome}
    (h : operation.perform now r = .ok (outcome, r')) :
    (r.NamesFit operation ∧ r.KeepsNames r') ∨ ∃ g group, operation = .deleteGroup g false ∧
      r.deleteGroup g false = .ok (group, r') := by
  replace h := makes_of_perform h
  cases operation <;> obtain ⟨entity, h⟩ := h
  case deleteGroup g hard =>
    cases hard with
    | true =>
        obtain ⟨-, -, rfl⟩ := deleteGroup_ok h
        exact .inl ⟨trivial, r.keepsNames_eraseGroup entity⟩
    | false => exact .inr ⟨g, entity, rfl, h⟩
  all_goals refine .inl ⟨trivial, ?_⟩
  case createGroup =>
    obtain ⟨-, id, hid, rfl, rfl⟩ := createGroup_ok h
    exact keepsNames_insertGroup (not_mem_of_nextFreeId? hid) rfl
  case createProject =>
    obtain ⟨group, id, hgroup, hname, hid, rfl, rfl⟩ := createProject_ok h
    exact hr.keepsNames_insertProject hgroup (ownerOf?_of_nextProjectId? hid) hname
  case createPointer =>
    obtain ⟨former, adopted, hformer, -, -, hadopted, rfl⟩ := createPointer_ok h
    obtain ⟨-, hname, -⟩ := Project.adopt?_frame hadopted
    exact hr.keepsNames_replaceProject hformer hname
  case deleteProject => exact hr.keepsNames_deleteProject h
  case deletePointer =>
    obtain ⟨former, -, -, rfl⟩ := deletePointer_ok h
    exact keepsNames_modifyProject fun _ _ _ => rfl
  case editGroup =>
    obtain ⟨former, -, -, -, rfl⟩ := editGroup_ok h
    refine keepsNames_modifyGroup (fun x => x.id_edited now _) ?_
    intro x _ _ happart
    rwa [Group.NamesApart, Group.projects_edited]
  case editProject => exact hr.keepsNames_editProject h
  case editPointer =>
    obtain ⟨former, pointer, -, -, -, -, rfl⟩ := editPointer_ok h
    exact keepsNames_modifyProject fun _ _ _ => rfl

/-! ### Soft removals of groups -/

/-- A soft removal leaves every group as it was but the secured one, at the end of which it lists the
projects of the group that it takes out. -/
theorem Valid.mem_groups_deleteGroup (hr : r.Valid)
    (h : r.deleteGroup g false = .ok (group, r')) :
    ∃ secured, r.group? securedGroupId = some secured ∧ ∀ x, x ∈ r'.groups.toList ↔
      x = { secured with projects := ⟨secured.projects.toList ++ group.projects.toList⟩ } ∨
        x ∈ r.groups.toList ∧ x.id ≠ g ∧ x.id ≠ securedGroupId := by
  obtain ⟨hgroup, hg, -⟩ := deleteGroup_ok h
  obtain ⟨secured, hsecured, -⟩ := hr.secured
  have hlist := (hr.losesGroup hgroup hg false).groups
  rw [deleteGroup_eq hgroup hg, Except.ok.injEq, Prod.mk.injEq] at h
  obtain ⟨-, rfl⟩ := h
  rw [show group.id = g from Listing.key_of_get? hgroup] at hlist
  have hsecured_id : secured.id = securedGroupId := Listing.key_of_get? hsecured
  refine ⟨secured, hsecured, ?_⟩
  intro x
  simp only [hlist, List.mem_map, List.mem_filter, decide_eq_true_eq]
  constructor
  · rintro ⟨y, ⟨hy, hyg⟩, rfl⟩
    split
    · rename_i hkey
      rw [hr.eq_of_group? hsecured hy hkey]
      exact .inl rfl
    · rename_i hkey
      exact .inr ⟨hy, hyg, hkey⟩
  · rintro (rfl | ⟨hx, hxg, hx₀⟩)
    · have hne : secured.id ≠ g := fun heq => hg (heq.symm.trans hsecured_id)
      exact ⟨secured, ⟨Listing.mem_of_get? hsecured, hne⟩, if_pos hsecured_id⟩
    · exact ⟨x, ⟨hx, hxg⟩, if_neg hx₀⟩

/-- A soft removal of a group keeps names apart when names fit, and only then. -/
theorem Valid.namesApart_deleteGroup_iff (hr : r.Valid) (happart : r.NamesApart)
    (h : r.deleteGroup g false = .ok (group, r')) :
    r'.NamesApart ↔ r.NamesFit (.deleteGroup g false) := by
  obtain ⟨hgroup, -, -⟩ := deleteGroup_ok h
  obtain ⟨secured, hsecured, hmem⟩ := hr.mem_groups_deleteGroup h
  have hjoined := (happart secured (Listing.mem_of_get? hsecured)).append_iff
    (happart group (Listing.mem_of_get? hgroup))
  have hfit : r.NamesFit (.deleteGroup g false) ↔
      ∀ project ∈ group.projects.toList, secured.hasProjectNamed project.name = false := by
    simp [NamesFit, hgroup, hsecured]
  rw [hfit, ← hjoined]
  constructor
  · intro happart'
    exact happart' _ ((hmem _).mpr (.inl rfl))
  · intro hsecured' x hx
    rcases (hmem x).mp hx with rfl | ⟨hx, -, -⟩
    · exact hsecured'
    · exact happart x hx

/-! ### Runs -/

/-- A registry that operations make of the first registry, each one allowed where it is performed. -/
inductive Reachable (allowed : Registry → Operation → Prop) : Registry → Prop
  | initial (now : Timestamp) : Reachable allowed (initial now)
  | perform {now : Timestamp} {operation : Operation} {outcome : Outcome} {r r' : Registry} :
      Reachable allowed r → allowed r operation → operation.perform now r = .ok (outcome, r') →
        Reachable allowed r'

variable {allowed : Registry → Operation → Prop}

theorem Reachable.valid (h : r.Reachable allowed) : r.Valid := by
  induction h with
  | initial now => exact valid_initial now
  | perform _ _ hperform ih => exact ih.perform hperform

theorem Reachable.mono {allowed' : Registry → Operation → Prop} (h : r.Reachable allowed)
    (hallowed : ∀ r operation, allowed r operation → allowed' r operation) :
    r.Reachable allowed' := by
  induction h with
  | initial now => exact .initial now
  | perform _ hoperation hperform ih => exact ih.perform (hallowed _ _ hoperation) hperform

/-- An operation keeps the names of all groups apart when names fit, and only then. -/
theorem Valid.namesApart_perform_iff (hr : r.Valid) (happart : r.NamesApart)
    {operation : Operation} {outcome : Outcome}
    (h : operation.perform now r = .ok (outcome, r')) :
    r'.NamesApart ↔ r.NamesFit operation := by
  rcases hr.keepsNames_or_deleteGroup h with ⟨hfit, hkeeps⟩ | ⟨g, group, rfl, hdelete⟩
  · refine iff_of_true ?_ hfit
    intro x hx
    rcases hkeeps x hx with hx | ⟨former, hformer, -, hx⟩
    · exact hx
    · exact hx (happart former hformer)
  · exact hr.namesApart_deleteGroup_iff happart hdelete

/-- No operation brings one name twice into another group than the secured one. -/
theorem Valid.namesApart_of_ne_secured (hr : r.Valid) {operation : Operation} {outcome : Outcome}
    (h : operation.perform now r = .ok (outcome, r'))
    (happart : ∀ group ∈ r.groups.toList, group.id ≠ securedGroupId → group.NamesApart) :
    ∀ group ∈ r'.groups.toList, group.id ≠ securedGroupId → group.NamesApart := by
  intro x hx hne
  rcases hr.keepsNames_or_deleteGroup h with ⟨-, hkeeps⟩ | ⟨g, group, -, hdelete⟩
  · rcases hkeeps x hx with hx | ⟨former, hformer, hid, hx⟩
    · exact hx
    · exact hx (happart former hformer (hid ▸ hne))
  · obtain ⟨secured, hsecured, hmem⟩ := hr.mem_groups_deleteGroup hdelete
    rcases (hmem x).mp hx with rfl | ⟨hx, -, -⟩
    · exact absurd (Listing.key_of_get? hsecured) hne
    · exact happart x hx hne

theorem namesApart_initial (now : Timestamp) : (initial now).NamesApart := by
  intro group hgroup
  obtain rfl := List.mem_singleton.mp hgroup
  exact List.nodup_singleton _

/-- Wherever operations lead, names differ in every group but the secured one.  They differ in the
secured group as well as long as names fit, and an operation where they do not ends it. -/
theorem namesApart_of_reachable (hr : r.Reachable allowed) :
    (∀ group ∈ r.groups.toList, group.id ≠ securedGroupId → group.NamesApart) ∧
    ((∀ r operation, allowed r operation → r.NamesFit operation) → r.NamesApart) ∧
    ∀ now operation outcome r', operation.perform now r = .ok (outcome, r') → r.NamesApart →
      (r'.NamesApart ↔ r.NamesFit operation) := by
  refine ⟨?_, ?_, ?_⟩
  · induction hr with
    | initial now => exact fun group hgroup _ => namesApart_initial now group hgroup
    | perform hr _ hperform ih => exact hr.valid.namesApart_of_ne_secured hperform ih
  · intro hfit
    induction hr with
    | initial now => exact namesApart_initial now
    | perform hr hallowed hperform ih =>
        exact (hr.valid.namesApart_perform_iff ih hperform).mpr (hfit _ _ hallowed)
  · intro now operation outcome r' hperform happart
    exact hr.valid.namesApart_perform_iff happart hperform

/-- The registry after an operation; one that fails leaves it as it was. -/
def after (r : Registry) (now : Timestamp) (operation : Operation) : Registry :=
  match operation.perform now r with
  | .ok (_, r') => r'
  | .error _ => r

theorem Reachable.after (hr : r.Reachable allowed) (now : Timestamp) (operation : Operation)
    (hallowed : allowed r operation) : (r.after now operation).Reachable allowed := by
  unfold Registry.after
  split
  · rename_i hperform
    exact hr.perform hallowed hperform
  · exact hr

/-- A registry with one name in two groups. -/
def twinned (now : Timestamp) : Registry :=
  (((initial now).after now (.createGroup ⟨"team", none, none⟩)).after now
    (.createProject ⟨1, "build", none, none⟩)).after now (.createProject ⟨0, "build", none, none⟩)

theorem reachable_twinned (now : Timestamp) : (twinned now).Reachable NamesFit :=
  (((Reachable.initial now).after now _ trivial).after now _ trivial).after now _ trivial

theorem namesApart_of_reachable_twinned : ∃ r r' : Registry, ∃ now outcome,
    r.Reachable NamesFit ∧ r.NamesApart ∧
    (Operation.deleteGroup 1 false).perform now r = .ok (outcome, r') ∧ ¬ r'.NamesApart := by
  let now : Timestamp := ⟨⟨2024, 2, 29⟩, 720, 30, 0⟩
  have hreachable := reachable_twinned now
  obtain ⟨-, hfits, hstep⟩ := namesApart_of_reachable hreachable
  have happart := hfits fun _ _ => id
  have hclash : ¬ (twinned now).NamesFit (.deleteGroup 1 false) := by
    unfold NamesFit
    decide +kernel
  have hsome : ((Operation.deleteGroup 1 false).perform now (twinned now)).isOk = true := by
    decide +kernel
  cases hperform : (Operation.deleteGroup 1 false).perform now (twinned now) with
  | error e =>
      rw [hperform] at hsome
      cases hsome
  | ok result =>
      obtain ⟨outcome, r'⟩ := result
      refine ⟨twinned now, r', now, outcome, hreachable, happart, hperform, ?_⟩
      rwa [hstep now _ outcome r' hperform happart]

/-- Two projects with one name, of which each is alone with it in its group, come together when one
of the groups is removed softly. -/
theorem not_namesApart_of_reachable : ∃ r : Registry, r.Reachable (fun _ _ => True) ∧
    r.groups.toList.map (·.projects.toList.map Project.name) = [["other", "build", "build"]] ∧
    ¬ r.NamesApart := by
  let now : Timestamp := ⟨⟨2024, 2, 29⟩, 720, 30, 0⟩
  have hreachable := (reachable_twinned now).mono fun _ _ _ => trivial
  exact ⟨_, hreachable.after now (.deleteGroup 1 false) trivial, by decide +kernel⟩

end Registry
end PipelineRegistry
