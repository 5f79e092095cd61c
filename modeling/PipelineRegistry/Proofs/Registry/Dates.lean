import Mathlib
import PipelineRegistry.Proofs.Registry.Creation
import PipelineRegistry.Proofs.Registry.Dissolution
import PipelineRegistry.Proofs.Registry.Editing
import PipelineRegistry.Proofs.Registry.Origin

/-! # Dates tell the history

A group, a project and a registered pipeline have the date of their creation, and groups and projects
also that of their last edit.  A registry is looked at here as a map from these to their dates.  An
operation that succeeds enters one new date, or stamps the one group or project that it edits, or takes
entries out; it leaves all others alone, whatever moves (`Deed.Redates`).  So the dates of an entity are
what the operations since its creation have made of them (`Registry.Chronicles`). -/

namespace PipelineRegistry
open Calendar

/-- What has dates.  A pipeline has them wherever its pointer stands. -/
inductive Subject where
  | group (g : GroupId)
  | project (p : ProjectId)
  | pipeline (pipeline : PipelineId)
deriving DecidableEq, Repr

/-- When something was created, and when it was edited last. -/
structure Dates where
  created : Timestamp
  modified : Option Timestamp
deriving DecidableEq, Repr

/-- The dates of a group. -/
def Group.dates (g : Group) : Dates := ⟨g.created, g.modified⟩

/-- The dates of a project. -/
def Project.dates (p : Project) : Dates := ⟨p.created, p.modified⟩

@[simp] theorem Group.dates_edited (g : Group) (now : Timestamp) (edit : Edit) :
    (g.edited now edit).dates = ⟨g.created, some now⟩ := by cases edit <;> rfl

@[simp] theorem Project.dates_edited (p : Project) (now : Timestamp) (edit : Edit) :
    (p.edited now edit).dates = ⟨p.created, some now⟩ := by cases edit <;> rfl

namespace Registry

/-- The dates of what is in the registry. -/
def dates? (r : Registry) : Subject → Option Dates
  | .group g => (r.group? g).map Group.dates
  | .project p => (r.project? p).map Project.dates
  | .pipeline pipeline => (r.origin? pipeline).map fun origin => ⟨origin.created, none⟩

variable {r r' : Registry} {now : Timestamp} {g : GroupId} {p : ProjectId} {q : PointerId}
  {subject : Subject}

/-! ### Operations that enter a date -/

/-- `r'` has the dates of `r` and, for something new, those of a creation at `created`. -/
structure Enters (r r' : Registry) (subject : Subject) (created : Timestamp) : Prop where
  new : r.dates? subject = none
  dates : r'.dates? = Function.update r.dates? subject (some ⟨created, none⟩)

theorem GainsGroup.enters {group : Group} (h : r.GainsGroup r' group)
    (horigin : r'.origin? = r.origin?) (hdates : group.dates = ⟨now, none⟩) :
    r.Enters r' (.group group.id) now := by
  constructor
  case new => rw [dates?, group?, Listing.get?_eq_none_iff.mpr h.new, Option.map_none]
  case dates =>
    funext subject
    cases subject with
    | group g =>
        by_cases hg : g = group.id
        · rw [hg, Function.update_self, dates?, h.found, Option.map_some, hdates]
        · rw [Function.update_of_ne (by simpa using hg), dates?, dates?, h.other_group g hg]
    | project p => rw [Function.update_of_ne (by simp), dates?, dates?, h.project]
    | pipeline pipeline => rw [Function.update_of_ne (by simp), dates?, dates?, horigin]

theorem GainsProject.enters {project : Project} (h : r.GainsProject r' g project)
    (hnew : r.project? project.id = none) (horigin : r'.origin? = r.origin?)
    (hdates : project.dates = ⟨now, none⟩) : r.Enters r' (.project project.id) now := by
  have hgroup : ∀ x, (r'.group? x).map Group.dates = (r.group? x).map Group.dates := by
    intro x
    rw [group?_of_groups_eq (congrArg Listing.ofList h.groups) (fun y => by split <;> rfl),
      Option.map_map]
    refine congrFun (congrArg Option.map (funext fun y => ?_)) _
    change (ite _ _ y : Group).dates = y.dates
    split <;> rfl
  constructor
  case new => rw [dates?, hnew, Option.map_none]
  case dates =>
    funext subject
    cases subject with
    | group g => rw [Function.update_of_ne (by simp), dates?, dates?, hgroup]
    | project p =>
        by_cases hp : p = project.id
        · rw [hp, Function.update_self, dates?, h.found, Option.map_some, hdates]
        · rw [Function.update_of_ne (by simpa using hp), dates?, dates?, h.other_project p hp]
    | pipeline pipeline => rw [Function.update_of_ne (by simp), dates?, dates?, horigin]

/-- A new pointer leaves the dates of its project alone. -/
theorem ReplacesProject.dates_eq {former project : Project} (h : r.ReplacesProject r' p project)
    (hformer : r.project? p = some former) (hdates : project.dates = former.dates) :
    (∀ x, (r'.group? x).map Group.dates = (r.group? x).map Group.dates) ∧
      ∀ x, (r'.project? x).map Project.dates = (r.project? x).map Project.dates := by
  constructor
  · intro x
    rw [group?_of_groups_eq (congrArg Listing.ofList h.groups) (fun _ => rfl), Option.map_map]
    rfl
  · intro x
    by_cases hx : x = p
    · rw [hx, h.found, hformer, Option.map_some, Option.map_some, hdates]
    · rw [h.other_project x hx]

theorem Valid.enters_createGroup (hr : r.Valid) {request : NewGroup} {group : Group}
    (h : r.createGroup now request = .ok (group, r')) (horigin : r'.origin? = r.origin?) :
    r.Enters r' (.group group.id) now := by
  obtain ⟨-, id, hid, rfl, rfl⟩ := createGroup_ok h
  have hnew : id ∉ r.groups.keys := not_mem_of_nextFreeId? hid
  exact (hr.gainsGroup hnew rfl).enters horigin rfl

theorem Valid.enters_createProject (hr : r.Valid) {request : NewProject} {project : Project}
    (h : r.createProject now request = .ok (project, r')) (horigin : r'.origin? = r.origin?) :
    r.Enters r' (.project project.id) now := by
  obtain ⟨group, id, hgroup, -, hid, rfl, rfl⟩ := createProject_ok h
  have howner := ownerOf?_of_nextProjectId? hid
  have hnew : r.project? id = none := by
    rw [project?, howner]
    rfl
  exact (hr.gainsProject hgroup howner).enters hnew horigin rfl

theorem Valid.enters_createPointer (hr : r.Valid) {request : NewPointer} {pointer : Pointer}
    (h : r.createPointer request = .ok (pointer, r')) (hnew : r.origin? request.pipeline = none)
    (horigin : r'.origin? = Function.update r.origin? request.pipeline (some request.origin)) :
    r.Enters r' (.pipeline request.pipeline) request.created := by
  obtain ⟨project, adopted, hproject, -, -, hadopt, rfl⟩ := createPointer_ok h
  obtain ⟨hgroup, hproject'⟩ := (hr.gainsPointer hproject hadopt).replaces.dates_eq hproject rfl
  constructor
  case new => rw [dates?, hnew, Option.map_none]
  case dates =>
    funext subject
    cases subject with
    | group g => rw [Function.update_of_ne (by simp), dates?, dates?, hgroup]
    | project p => rw [Function.update_of_ne (by simp), dates?, dates?, hproject']
    | pipeline pipeline =>
        by_cases hpipeline : pipeline = request.pipeline
        · rw [hpipeline, Function.update_self, dates?, horigin, Function.update_self]
          rfl
        · rw [Function.update_of_ne (by simpa using hpipeline), dates?, dates?, horigin,
            Function.update_of_ne hpipeline]

/-! ### Operations that stamp an entity -/

/-- `r'` has the dates of `r`, but one group or project has been edited at the time `now`. -/
def Stamps (r r' : Registry) (subject : Subject) (now : Timestamp) : Prop :=
  ∃ former, r.dates? subject = some former ∧
    r'.dates? = Function.update r.dates? subject (some ⟨former.created, some now⟩)

theorem Valid.stamps_editGroup (hr : r.Valid) {edit : Edit} {group : Group}
    (h : r.editGroup now g edit = .ok (group, r')) (horigin : r'.origin? = r.origin?) :
    r.Stamps r' (.group g) now := by
  obtain ⟨former, hformer, -, -, rfl⟩ := editGroup_ok h
  have hreplaces := hr.editGroup_replaces hformer now edit
  refine ⟨former.dates, by rw [dates?, hformer, Option.map_some], ?_⟩
  funext subject
  cases subject with
  | group x =>
      by_cases hx : x = g
      · rw [hx, Function.update_self, dates?, hreplaces.found, Option.map_some, Group.dates_edited]
        rfl
      · rw [Function.update_of_ne (by simpa using hx), dates?, dates?, hreplaces.other_group x hx]
  | project p => rw [Function.update_of_ne (by simp), dates?, dates?, hreplaces.project]
  | pipeline pipeline => rw [Function.update_of_ne (by simp), dates?, dates?, horigin]

theorem Valid.stamps_editProject (hr : r.Valid) {edit : Edit} {project : Project}
    (h : r.editProject now p edit = .ok (project, r')) (horigin : r'.origin? = r.origin?) :
    r.Stamps r' (.project p) now := by
  obtain ⟨former, hformer, -, -, rfl⟩ := editProject_ok h
  have hreplaces := hr.editProject_replaces hformer now edit
  have hgroup : ∀ x, ((r.modifyProject p (·.edited now edit)).group? x).map Group.dates =
      (r.group? x).map Group.dates := by
    intro x
    rw [group?_of_groups_eq (congrArg Listing.ofList hreplaces.groups) (fun _ => rfl),
      Option.map_map]
    rfl
  refine ⟨former.dates, by rw [dates?, hformer, Option.map_some], ?_⟩
  funext subject
  cases subject with
  | group g => rw [Function.update_of_ne (by simp), dates?, dates?, hgroup]
  | project x =>
      by_cases hx : x = p
      · rw [hx, Function.update_self, dates?, hreplaces.found, Option.map_some,
          Project.dates_edited]
        rfl
      · rw [Function.update_of_ne (by simpa using hx), dates?, dates?, hreplaces.other_project x hx]
  | pipeline pipeline => rw [Function.update_of_ne (by simp), dates?, dates?, horigin]

/-! ### Operations that take out or alter nothing -/

/-- Whatever is in `r'` has the dates that it has in `r`. -/
def Keeps (r r' : Registry) : Prop :=
  ∀ subject, r'.dates? subject = none ∨ r'.dates? subject = r.dates? subject

theorem Keeps.of_lookups
    (hgroup : ∀ g, r'.group? g = none ∨
      (r'.group? g).map Group.dates = (r.group? g).map Group.dates)
    (hproject : ∀ p, r'.project? p = none ∨
      (r'.project? p).map Project.dates = (r.project? p).map Project.dates)
    (horigin : ∀ pipeline, r'.origin? pipeline = none ∨ r'.origin? pipeline = r.origin? pipeline) :
    r.Keeps r' := by
  intro subject
  cases subject with
  | group g => exact (hgroup g).imp_left (congrArg (Option.map Group.dates))
  | project p => exact (hproject p).imp_left (congrArg (Option.map Project.dates))
  | pipeline pipeline =>
      refine (horigin pipeline).imp (congrArg (Option.map _)) fun h => ?_
      rw [dates?, dates?, h]

/-- Only a registration enters an origin. -/
theorem origin?_of_accountsFor {operation : Operation} (h : operation.AccountsFor r r')
    (hregister : ∀ request, operation ≠ .createPointer request) (pipeline : PipelineId) :
    r'.origin? pipeline = none ∨ r'.origin? pipeline = r.origin? pipeline := by
  have hwithout : ∀ qs : List Pointer, r.originsWithout qs pipeline = none ∨
      r.originsWithout qs pipeline = r.origin? pipeline := by
    intro qs
    rw [originsWithout]
    split
    · exact .inl rfl
    · exact .inr rfl
  cases operation with
  | createPointer request => exact absurd rfl (hregister request)
  | createGroup request => exact .inr (congrFun h pipeline)
  | createProject request => exact .inr (congrFun h pipeline)
  | editGroup g edit => exact .inr (congrFun h pipeline)
  | editProject p edit => exact .inr (congrFun h pipeline)
  | editPointer p q edit => exact .inr (congrFun h pipeline)
  | deletePointer p q =>
      obtain ⟨pointer, -, h⟩ := h
      rw [h]
      exact hwithout _
  | deleteProject g p hard =>
      cases hard with
      | false => exact .inr (congrFun h pipeline)
      | true =>
          simp only [Operation.AccountsFor] at h
          split at h
          · exact .inr (congrFun h pipeline)
          · obtain ⟨project, -, h⟩ := h
            rw [h]
            exact hwithout _
  | deleteGroup g hard =>
      cases hard with
      | false => exact .inr (congrFun h pipeline)
      | true =>
          obtain ⟨group, -, h⟩ := h
          rw [h]
          exact hwithout _

theorem LosesGroup.keeps {removed : Group} {hard : Bool} (h : r.LosesGroup r' removed hard)
    (horigin : ∀ pipeline, r'.origin? pipeline = none ∨ r'.origin? pipeline = r.origin? pipeline) :
    r.Keeps r' := by
  refine .of_lookups ?_ ?_ horigin
  · intro g
    by_cases hg : g = removed.id
    · rw [hg]
      exact .inl h.gone
    · rw [h.other_group g hg]
      split
      · rw [Option.map_map]
        exact .inr rfl
      · exact .inr rfl
  · intro p
    rw [h.project]
    split
    · exact .inl rfl
    · exact .inr rfl

theorem LosesProject.keeps {kept : List Pointer} (h : r.LosesProject r' g p kept)
    (hr : r.Valid)
    (horigin : ∀ pipeline, r'.origin? pipeline = none ∨ r'.origin? pipeline = r.origin? pipeline) :
    r.Keeps r' := by
  refine .of_lookups ?_ ?_ horigin
  · intro x
    rw [h.group?, Option.map_map]
    exact .inr rfl
  · intro x
    by_cases hx : x = p
    · rw [hx]
      exact .inl h.gone
    · by_cases hx₀ : x = securedProjectId
      · obtain ⟨secured, hsecured⟩ := hr.exists_securedProject
        rw [hx₀, (h.secured secured hsecured).1, hsecured]
        exact .inr rfl
      · rw [h.other_project x hx hx₀]
        exact .inr rfl

theorem Valid.keeps_deleteGroup (hr : r.Valid) {hard : Bool} {group : Group}
    (h : r.deleteGroup g hard = .ok (group, r'))
    (horigin : ∀ pipeline, r'.origin? pipeline = none ∨ r'.origin? pipeline = r.origin? pipeline) :
    r.Keeps r' := by
  obtain ⟨hgroup, hg, -⟩ := deleteGroup_ok h
  rw [deleteGroup_eq hgroup hg] at h
  obtain ⟨-, rfl⟩ := Prod.mk.inj (Except.ok.inj h)
  exact (hr.losesGroup hgroup hg hard).keeps horigin

theorem Valid.keeps_deleteProject (hr : r.Valid) {hard : Bool} {removed : Option Project}
    (h : r.deleteProject g p hard = .ok (removed, r'))
    (horigin : ∀ pipeline, r'.origin? pipeline = none ∨ r'.origin? pipeline = r.origin? pipeline) :
    r.Keeps r' := by
  obtain ⟨group, hgroup, hmem, hcases⟩ := deleteProject_ok h
  rcases hcases with ⟨-, -, rfl⟩ | ⟨hp, -⟩
  · exact fun subject => .inr rfl
  · obtain ⟨secured, hsecured⟩ := hr.exists_securedProject
    obtain ⟨project, hproject⟩ :=
      Option.ne_none_iff_exists'.mp fun hnone => Listing.get?_eq_none_iff.mp hnone hmem
    rw [hr.deleteProject_eq hgroup hproject hp hsecured] at h
    split at h
    · rename_i hfit
      obtain ⟨-, rfl⟩ := Prod.mk.inj (Except.ok.inj h)
      exact (hr.losesProject (hr.ownerOf?_of_mem_keys hgroup hmem) hp hsecured
        (Project.length_kept_lt hfit)).keeps hr horigin
    · cases h

/-- What is done to the pointers of a project leaves all dates of groups and projects alone. -/
theorem Valid.keeps_modifyProject (hr : r.Valid) {project : Project}
    (hproject : r.project? p = some project) {f : Project → Project} (hid : ∀ x, (f x).id = x.id)
    (hdates : (f project).dates = project.dates)
    (horigin : ∀ pipeline, (r.modifyProject p f).origin? pipeline = none ∨
      (r.modifyProject p f).origin? pipeline = r.origin? pipeline) :
    r.Keeps (r.modifyProject p f) := by
  obtain ⟨hgroup, hproject'⟩ := (hr.replacesProject hproject hid).dates_eq hproject hdates
  exact .of_lookups (fun x => .inr (hgroup x)) (fun x => .inr (hproject' x)) horigin

end Registry

/-! ### Deeds -/

/-- An operation that has succeeded, its time, and what it has given. -/
structure Deed where
  now : Timestamp
  operation : Operation
  outcome : Outcome

namespace Deed

/-- What the deed has created, and the date of the creation: for groups and projects its time, for
pipelines the date that it was given. -/
def created? (deed : Deed) : Option (Subject × Timestamp) :=
  match deed.operation, deed.outcome with
  | .createGroup _, .group g => some (.group g.id, deed.now)
  | .createProject _, .project p => some (.project p.id, deed.now)
  | .createPointer request, _ => some (.pipeline request.pipeline, request.created)
  | _, _ => none

/-- The group or project that the deed has renamed, tagged or described. -/
def edited? (deed : Deed) : Option Subject :=
  match deed.operation with
  | .editGroup g _ => some (.group g)
  | .editProject p _ => some (.project p)
  | _ => none

/-- The three ways in which a deed that makes `r'` of `r` can treat the dates. -/
inductive Redates (deed : Deed) (r r' : Registry) : Prop
  | enters (subject : Subject) (created : Timestamp)
      (hcreated : deed.created? = some (subject, created)) (hedited : deed.edited? = none)
      (h : r.Enters r' subject created)
  | stamps (subject : Subject) (hcreated : deed.created? = none)
      (hedited : deed.edited? = some subject) (h : r.Stamps r' subject deed.now)
  | keeps (hcreated : deed.created? = none) (hedited : deed.edited? = none) (h : r.Keeps r')

end Deed

namespace Registry

variable {r r' : Registry} {deed : Deed} {subject : Subject} {dates : Dates}

theorem Valid.dates_of_perform (hr : r.Valid)
    (h : deed.operation.perform deed.now r = .ok (deed.outcome, r')) : deed.Redates r r' := by
  have horigin := hr.accountsFor h
  obtain ⟨now, operation, outcome⟩ := deed
  cases operation <;> simp only [Operation.perform, Chain.map_eq_ok, Prod.map, id_eq,
    Prod.mk.injEq] at h <;> obtain ⟨⟨entity, r''⟩, h, rfl, rfl⟩ := h
  case createGroup => exact .enters _ _ rfl rfl (hr.enters_createGroup h horigin)
  case createProject => exact .enters _ _ rfl rfl (hr.enters_createProject h horigin)
  case createPointer => exact .enters _ _ rfl rfl (hr.enters_createPointer h horigin.1 horigin.2)
  case editGroup => exact .stamps _ rfl rfl (hr.stamps_editGroup h horigin)
  case editProject => exact .stamps _ rfl rfl (hr.stamps_editProject h horigin)
  case deleteGroup =>
    exact .keeps rfl rfl (hr.keeps_deleteGroup h (origin?_of_accountsFor horigin (by simp)))
  case deleteProject =>
    exact .keeps rfl rfl (hr.keeps_deleteProject h (origin?_of_accountsFor horigin (by simp)))
  case deletePointer =>
    have hkept := origin?_of_accountsFor horigin (by simp)
    obtain ⟨project, hproject, -, rfl⟩ := deletePointer_ok h
    exact .keeps rfl rfl (hr.keeps_modifyProject hproject (fun _ => rfl) rfl hkept)
  case editPointer =>
    have hkept := origin?_of_accountsFor horigin (by simp)
    obtain ⟨project, -, hproject, -, -, -, rfl⟩ := editPointer_ok h
    exact .keeps rfl rfl (hr.keeps_modifyProject hproject (fun _ => rfl) rfl hkept)

/-- Where something has dates after a deed, they are new, or they have been stamped, or they are what
they were. -/
theorem Valid.dates?_of_perform (hr : r.Valid)
    (h : deed.operation.perform deed.now r = .ok (deed.outcome, r'))
    (hdates : r'.dates? subject = some dates) :
    (deed.created? = some (subject, dates.created) ∧ dates.modified = none ∧
      r.dates? subject = none) ∨
    ((∀ created, deed.created? ≠ some (subject, created)) ∧ ∃ former, r.dates? subject = some former ∧
      dates = ⟨former.created,
        if deed.edited? = some subject then some deed.now else former.modified⟩) := by
  cases hr.dates_of_perform h with
  | enters new created hcreated hedited h =>
      rw [h.dates] at hdates
      by_cases hsubject : subject = new
      · rw [hsubject, Function.update_self] at hdates
        obtain rfl := Option.some_inj.mp hdates
        exact .inl ⟨hsubject ▸ hcreated, rfl, hsubject ▸ h.new⟩
      · rw [Function.update_of_ne hsubject] at hdates
        refine .inr ⟨?_, dates, hdates, ?_⟩
        · intro created' heq
          rw [hcreated] at heq
          exact hsubject (Prod.mk.inj (Option.some_inj.mp heq)).1.symm
        · rw [hedited, if_neg nofun]
  | stamps edited hcreated hedited h =>
      obtain ⟨former, hformer, hstamped⟩ := h
      rw [hstamped] at hdates
      refine .inr ⟨fun _ => by rw [hcreated]; exact nofun, ?_⟩
      by_cases hsubject : subject = edited
      · rw [hsubject, Function.update_self] at hdates
        obtain rfl := Option.some_inj.mp hdates
        exact ⟨former, hsubject ▸ hformer, by rw [hsubject, if_pos hedited]⟩
      · rw [Function.update_of_ne hsubject] at hdates
        refine ⟨dates, hdates, ?_⟩
        rw [hedited, if_neg fun heq => hsubject (Option.some_inj.mp heq).symm]
  | keeps hcreated hedited h =>
      refine .inr ⟨fun _ => by rw [hcreated]; exact nofun, dates, ?_, ?_⟩
      · rcases h subject with hnone | hsame
        · rw [hnone] at hdates
          cases hdates
        · rwa [hsame] at hdates
      · rw [hedited, if_neg nofun]

end Registry

/-! ### Histories -/

/-- The time of the last of some deeds that has edited `subject`. -/
def lastEdit? (deeds : List Deed) (subject : Subject) : Option Timestamp :=
  ((deeds.filter (·.edited? = some subject)).getLast?).map Deed.now

theorem lastEdit?_cons (deed : Deed) (deeds : List Deed) (subject : Subject) :
    lastEdit? (deed :: deeds) subject = (lastEdit? deeds subject).or
      (if deed.edited? = some subject then some deed.now else none) := by
  unfold lastEdit?
  by_cases h : deed.edited? = some subject
  · rw [List.filter_cons_of_pos (by simpa using h), if_pos h, List.getLast?_cons]
    cases (deeds.filter (·.edited? = some subject)).getLast? <;> rfl
  · rw [List.filter_cons_of_neg (by simpa using h), if_neg h, Option.or_none]

/-- Deeds done one after the other lead from a registry to another. -/
def Registry.Leads (r : Registry) : List Deed → Registry → Prop
  | [], r' => r' = r
  | deed :: deeds, r' => ∃ r₁, deed.operation.perform deed.now r = .ok (deed.outcome, r₁) ∧
      r₁.Leads deeds r'

theorem Registry.Leads.append {r r₁ r' : Registry} {deeds deeds' : List Deed}
    (h : r.Leads deeds r₁) (h' : r₁.Leads deeds' r') : r.Leads (deeds ++ deeds') r' := by
  induction deeds generalizing r with
  | nil =>
      obtain rfl : r₁ = r := h
      exact h'
  | cons deed deeds ih =>
      obtain ⟨r₂, hperform, hrest⟩ := h
      exact ⟨r₂, hperform, ih hrest⟩

/-- The dates in `r'` tell what has been done since `r`.  What was in `r` and has not been created
since has the date of creation that it had, and what has been created since has the date of its last
creation.  The date of the last edit is that of the last edit since then; without one it is the former
date, or there is none. -/
def Registry.Chronicles (r : Registry) (deeds : List Deed) (r' : Registry) : Prop :=
  ∀ subject dates, r'.dates? subject = some dates →
    ((∀ deed ∈ deeds, ∀ created, deed.created? ≠ some (subject, created)) ∧
      ∃ former, r.dates? subject = some former ∧
        dates = ⟨former.created, (lastEdit? deeds subject).or former.modified⟩) ∨
    ∃ before deed after, deeds = before ++ deed :: after ∧
      deed.created? = some (subject, dates.created) ∧
      (∀ later ∈ after, ∀ created, later.created? ≠ some (subject, created)) ∧
      dates.modified = lastEdit? after subject

theorem Registry.Valid.chronicles {r r' : Registry} {deeds : List Deed} (hr : r.Valid)
    (h : r.Leads deeds r') : r.Chronicles deeds r' := by
  induction deeds generalizing r with
  | nil =>
      obtain rfl : r' = r := h
      exact fun subject dates hdates =>
        .inl ⟨fun _ hdeed => absurd hdeed List.not_mem_nil, dates, hdates, rfl⟩
  | cons deed deeds ih =>
      obtain ⟨r₁, hperform, hrest⟩ := h
      intro subject dates hdates
      rcases ih (hr.perform hperform) hrest subject dates hdates with
        ⟨hlater, former, hformer, rfl⟩ | ⟨before, later, after, rfl, hcreated⟩
      · -- it was there after the first deed, which has created it, or has found it there
        rcases hr.dates?_of_perform hperform hformer with
          ⟨hcreated, hnone, -⟩ | ⟨hnot, origin, horigin, rfl⟩
        · refine .inr ⟨[], deed, deeds, rfl, hcreated, hlater, ?_⟩
          change (lastEdit? deeds subject).or former.modified = _
          rw [hnone, Option.or_none]
        · refine .inl ⟨List.forall_mem_cons.mpr ⟨hnot, hlater⟩, origin, horigin, ?_⟩
          rw [lastEdit?_cons, Option.or_assoc]
          split <;> rfl
      · exact .inr ⟨deed :: before, later, after, rfl, hcreated⟩

end PipelineRegistry
