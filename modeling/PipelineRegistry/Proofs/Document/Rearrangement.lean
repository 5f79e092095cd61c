import Mathlib
import PipelineRegistry.Proofs.Document.Acceptance
import PipelineRegistry.Proofs.Document.Layout

/-! # Documents that are laid out in another way

A document can say what a registry is in many ways.  Each of its groups, projects and pointers and the
document itself can be an object, with its members in any order and unknown members among them, or an
array of all its fields.  An absent tag, description or time can be written as null, an empty list can be
left out, and so can a count of pointers that is one more than the greatest identifier of a pointer.
The registry is read from all these documents. -/

namespace PipelineRegistry

open Calendar Chain Document Json

/-! ### Layouts -/

/-- How a field is given where all fields are given: as it is written, or null if it is not. -/
def Document.shown (written : Option Json) : Reading := written.elim .null Reading.ofJson

/-- The value is an array of layouts of the entities. -/
def Document.ListsAs {α : Type} (LaidOut : α → Reading → Prop) (xs : List α) (v : Reading) : Prop :=
  ∃ items, v = .array items .closed ∧ List.Forall₂ LaidOut xs items

/-- The value is a layout of a pointer. -/
def Pointer.LaidOut (q : Pointer) (v : Reading) : Prop :=
  ∃ easefile pipelineFile, q.easefile.text? = some easefile ∧
    q.pipelineFile.text? = some pipelineFile ∧
    record.Layout (fun f v => v = shown (q.written easefile pipelineFile f))
      (fun f => q.written easefile pipelineFile f = none) v

namespace Project

/-- How a field of a project can be given. -/
def Shows (p : Project) : Field → Reading → Prop
  | .pointers, v => ListsAs Pointer.LaidOut p.pointers.toList v
  | f, v => v = shown (p.node.written [] f)

/-- Which fields of a project can be left out. -/
def Omissible (p : Project) : Field → Prop
  | .pointers => p.pointers.toList = []
  | .nextPointerId =>
    p.nextPointerId.toNat = (p.pointers.toList.map fun q => q.id.toNat + 1).max?.getD 0
  | f => p.node.written [] f = none

/-- The value is a layout of a project. -/
def LaidOut (p : Project) (v : Reading) : Prop := record.Layout p.Shows p.Omissible v

end Project

namespace Group

/-- How a field of a group can be given. -/
def Shows (g : Group) : Field → Reading → Prop
  | .projects, v => ListsAs Project.LaidOut g.projects.toList v
  | f, v => v = shown (g.node.written [] f)

/-- Which fields of a group can be left out. -/
def Omissible (g : Group) : Field → Prop
  | .projects => g.projects.toList = []
  | f => g.node.written [] f = none

/-- The value is a layout of a group. -/
def LaidOut (g : Group) (v : Reading) : Prop := record.Layout g.Shows g.Omissible v

end Group

/-- The value is a layout of the document of a registry. -/
def Registry.LaidOut (r : Registry) (v : Reading) : Prop :=
  Document.record.Layout (fun _ v => ListsAs Group.LaidOut r.groups.toList v) (fun _ => False) v

/-! ### Reading values -/

namespace Document

theorem optional_shown_text (s? : Option String) :
    (shown (s?.map .string)).optional (·.text .string) = .ok s? := by
  cases s? <;> rfl

theorem optional_shown_date {t? : Option Timestamp} (ht : ∀ t ∈ t?, t.IsValid) :
    (shown (t?.map ofTimestamp)).optional (·.date) = .ok t? := by
  cases t? with
  | none => rfl
  | some t => exact map_eq_ok.mpr ⟨t, Reading.date_ofTimestamp (ht t rfl), rfl⟩

/-- A list is read from an array of layouts of its entities if each entity is read from its layouts, up
to `settle`. -/
theorem ListsAs.exists_listing {α : Type} [Keyed α UInt64] {LaidOut : α → Reading → Prop}
    {readItem : Reading → Except DecodeError α} {xs : List α} {v : Reading} (hv : ListsAs LaidOut xs v)
    (settle : α → α) (hcomplete : v.Complete)
    (hread : ∀ x ∈ xs, ∀ item, item.Complete → LaidOut x item →
      ∃ y, readItem item = .ok y ∧ settle y = x)
    (hkey : ∀ y, (Keyed.key (settle y) : UInt64) = Keyed.key y)
    (hkeys : (xs.map (Keyed.key : α → UInt64)).Nodup) :
    ∃ l, v.listing readItem = .ok l ∧ l.toList.map settle = xs := by
  obtain ⟨items, rfl, hitems⟩ := hv
  have hparts : ∀ item ∈ items, item.Complete := by
    cases hcomplete with
    | array h => exact h
  have hys : ∃ ys, List.Forall₂ (fun item y => readItem item = .ok y) items ys ∧
      ys.map settle = xs := by
    clear hkeys hcomplete
    induction hitems with
    | nil => exact ⟨[], .nil, rfl⟩
    | cons hitem _ ih =>
        rw [List.forall_mem_cons] at hread hparts
        obtain ⟨y, hy, rfl⟩ := hread.1 _ hparts.1 hitem
        obtain ⟨ys, hys, rfl⟩ := ih hread.2 hparts.2
        exact ⟨y :: ys, .cons hy hys, rfl⟩
  obtain ⟨ys, hys, rfl⟩ := hys
  refine ⟨⟨ys⟩, (Reading.listing_refines readItem _ _).mpr ⟨ys, ?_, ?_, rfl⟩, rfl⟩
  · exact Reading.items_eq_ok.mpr ⟨items, .closed, rfl, mapM_eq_ok.mpr hys, rfl⟩
  · rw [List.map_map] at hkeys
    simpa only [Function.comp_def, hkey] using hkeys

end Document

/-! ### Reading pointers -/

namespace Pointer

/-- The value of a field of a pointer. -/
def value (q : Pointer) : (f : Field) → f.Value
  | .projectId => q.projectId
  | .id => q.id
  | .pipeline => q.pipeline
  | .name => q.name
  | .easefile => q.easefile
  | .pipelineFile => q.pipelineFile
  | .tag => q.tag
  | .description => q.description
  | .created => q.created

theorem ofReading_of_laidOut {q : Pointer} {v : Reading} (hq : q.Dated) (hv : q.LaidOut v)
    (hcomplete : v.Complete) : ofReading v = .ok q := by
  obtain ⟨easefile, pipelineFile, heasefile, hpipelineFile, hv⟩ := hv
  have hread : ∀ f v, v.Complete → v = shown (q.written easefile pipelineFile f) →
      ∃ x, record.read f v = .ok x ∧ x = q.value f := by
    rintro f _ - rfl
    refine ⟨q.value f, ?_, rfl⟩
    cases f with
    | tag => exact optional_shown_text q.tag
    | description => exact optional_shown_text q.description
    | easefile => exact Reading.path_of_text? heasefile
    | pipelineFile => exact Reading.path_of_text? hpipelineFile
    | created => exact Reading.date_ofTimestamp hq
    | projectId | id | pipeline | name => rfl
  have habsent : ∀ f, q.written easefile pipelineFile f = none →
      ∃ x, record.absent f = some x ∧ x = q.value f := by
    intro f hf
    refine ⟨q.value f, ?_, rfl⟩
    cases f with
    | tag =>
        rw [value, Option.map_eq_none_iff.mp hf]
        rfl
    | description =>
        rw [value, Option.map_eq_none_iff.mp hf]
        rfl
    | _ => cases hf
  obtain ⟨s, hs, hget⟩ := hv.exists_slots _ hcomplete (fun f => by cases f <;> decide) hread habsent
  have hget : ∀ f, s.get f = .ok (q.value f) := by
    intro f
    obtain ⟨_, hx, rfl⟩ := hget f
    exact hx
  simp only [ofReading, hs, ok_bind, hget]
  rfl

end Pointer

/-! ### Reading projects -/

namespace Project

variable {p : Project} {v : Reading}

/-- What a field of a project is read as; a count that is left out becomes right when the project is
settled. -/
def Holds (p : Project) : (f : Field) → f.Value → Prop
  | .id, x => x = p.id
  | .name, x => x = p.name
  | .tag, x => x = p.tag
  | .description, x => x = p.description
  | .created, x => x = p.created
  | .modified, x => x = p.modified
  | .nextPointerId, x => max x p.pointerFloor = p.nextPointerId
  | .pointers, x => x = p.pointers

theorem max_pointerFloor (hp : p.Valid) : max p.nextPointerId p.pointerFloor = p.nextPointerId :=
  congrArg nextPointerId hp.settled_eq

theorem exists_ofReading (hp : p.Valid) (hdated : p.Dated) (hv : p.LaidOut v) (hcomplete : v.Complete) :
    ∃ p', ofReading v = .ok p' ∧ p'.settled = p := by
  have hread : ∀ f v, v.Complete → p.Shows f v → ∃ x, record.read f v = .ok x ∧ p.Holds f x := by
    intro f v hcomplete hshows
    cases f with
    | pointers =>
        obtain ⟨l, hl, hsame⟩ := hshows.exists_listing (fun q => q) hcomplete
          (fun q hq item hitem h => ⟨q, Pointer.ofReading_of_laidOut (hdated.pointers q hq) h hitem, rfl⟩)
          (fun _ => rfl) hp.pointer_keys
        rw [List.map_id'] at hsame
        exact ⟨l, hl, congrArg Listing.ofList hsame⟩
    | nextPointerId =>
        cases hshows
        exact ⟨p.nextPointerId, rfl, max_pointerFloor hp⟩
    | id =>
        cases hshows
        exact ⟨p.id, rfl, rfl⟩
    | name =>
        cases hshows
        exact ⟨p.name, rfl, rfl⟩
    | tag =>
        cases hshows
        exact ⟨p.tag, optional_shown_text p.tag, rfl⟩
    | description =>
        cases hshows
        exact ⟨p.description, optional_shown_text p.description, rfl⟩
    | created =>
        cases hshows
        exact ⟨p.created, Reading.date_ofTimestamp hdated.created, rfl⟩
    | modified =>
        cases hshows
        exact ⟨p.modified, optional_shown_date hdated.modified, rfl⟩
  have habsent : ∀ f, p.Omissible f → ∃ x, record.absent f = some x ∧ p.Holds f x := by
    intro f hf
    cases f with
    | pointers => exact ⟨.empty, rfl, congrArg Listing.ofList hf.symm⟩
    | nextPointerId =>
        refine ⟨(0 : UInt64), rfl, ?_⟩
        have hcount : p.nextPointerId = p.pointerFloor :=
          UInt64.toNat_inj.mp (hf.trans (toNat_pointerFloor hp.sound.2).symm)
        rw [Holds, hcount, max_eq_ite, if_pos UInt64.zero_le]
    | tag => exact ⟨none, rfl, (Option.map_eq_none_iff.mp hf).symm⟩
    | description => exact ⟨none, rfl, (Option.map_eq_none_iff.mp hf).symm⟩
    | modified => exact ⟨none, rfl, (Option.map_eq_none_iff.mp hf).symm⟩
    | _ => cases hf
  obtain ⟨s, hs, hget⟩ := Record.Layout.exists_slots hv p.Holds hcomplete
    (fun f => by cases f <;> decide) hread habsent
  obtain ⟨_, hid, rfl⟩ := hget .id
  obtain ⟨_, hname, rfl⟩ := hget .name
  obtain ⟨_, htag, rfl⟩ := hget .tag
  obtain ⟨_, hdescription, rfl⟩ := hget .description
  obtain ⟨_, hcreated, rfl⟩ := hget .created
  obtain ⟨_, hmodified, rfl⟩ := hget .modified
  obtain ⟨n, hnext, hcount⟩ := hget .nextPointerId
  obtain ⟨_, hpointers, rfl⟩ := hget .pointers
  refine ⟨{ p with nextPointerId := n }, ?_, ?_⟩
  · simp only [ofReading, hs, ok_bind, hid, hname, htag, hdescription, hcreated, hmodified, hnext,
      hpointers]
    rfl
  · have hfloor : ({ p with nextPointerId := n } : Project).pointerFloor = p.pointerFloor := rfl
    rw [settled, hfloor, hcount]

end Project

/-! ### Reading groups -/

namespace Group

variable {g : Group} {v : Reading}

/-- What a field of a group is read as; its projects become right when they are settled. -/
def Holds (g : Group) : (f : Field) → f.Value → Prop
  | .id, x => x = g.id
  | .name, x => x = g.name
  | .tag, x => x = g.tag
  | .description, x => x = g.description
  | .created, x => x = g.created
  | .modified, x => x = g.modified
  | .projects, x => x.toList.map Project.settled = g.projects.toList

theorem exists_ofReading (hg : ∀ p ∈ g.projects.toList, p.Valid) (hkeys : g.projects.keys.Nodup)
    (hdated : g.Dated) (hv : g.LaidOut v) (hcomplete : v.Complete) :
    ∃ g', ofReading v = .ok g' ∧ g'.settled = g := by
  have hread : ∀ f v, v.Complete → g.Shows f v → ∃ x, record.read f v = .ok x ∧ g.Holds f x := by
    intro f v hcomplete hshows
    cases f with
    | projects =>
        exact hshows.exists_listing .settled hcomplete
          (fun p hp _ hitem h => Project.exists_ofReading (hg p hp) (hdated.projects p hp) h hitem)
          (fun _ => rfl) hkeys
    | id =>
        cases hshows
        exact ⟨g.id, rfl, rfl⟩
    | name =>
        cases hshows
        exact ⟨g.name, rfl, rfl⟩
    | tag =>
        cases hshows
        exact ⟨g.tag, optional_shown_text g.tag, rfl⟩
    | description =>
        cases hshows
        exact ⟨g.description, optional_shown_text g.description, rfl⟩
    | created =>
        cases hshows
        exact ⟨g.created, Reading.date_ofTimestamp hdated.created, rfl⟩
    | modified =>
        cases hshows
        exact ⟨g.modified, optional_shown_date hdated.modified, rfl⟩
  have habsent : ∀ f, g.Omissible f → ∃ x, record.absent f = some x ∧ g.Holds f x := by
    intro f hf
    cases f with
    | projects => exact ⟨.empty, rfl, hf.symm⟩
    | tag => exact ⟨none, rfl, (Option.map_eq_none_iff.mp hf).symm⟩
    | description => exact ⟨none, rfl, (Option.map_eq_none_iff.mp hf).symm⟩
    | modified => exact ⟨none, rfl, (Option.map_eq_none_iff.mp hf).symm⟩
    | _ => cases hf
  obtain ⟨s, hs, hget⟩ := Record.Layout.exists_slots hv g.Holds hcomplete
    (fun f => by cases f <;> decide) hread habsent
  obtain ⟨_, hid, rfl⟩ := hget .id
  obtain ⟨_, hname, rfl⟩ := hget .name
  obtain ⟨_, htag, rfl⟩ := hget .tag
  obtain ⟨_, hdescription, rfl⟩ := hget .description
  obtain ⟨_, hcreated, rfl⟩ := hget .created
  obtain ⟨_, hmodified, rfl⟩ := hget .modified
  obtain ⟨projects, hprojects, hsettled⟩ := hget .projects
  refine ⟨{ g with projects := projects }, ?_, ?_⟩
  · simp only [ofReading, hs, ok_bind, hid, hname, htag, hdescription, hcreated, hmodified, hprojects]
    rfl
  · have hsame : projects.toList.map Project.settled = g.projects.toList := hsettled
    rw [settled, hsame]

end Group

/-! ### Reading documents -/

namespace Registry

variable {r : Registry} {v : Reading}

theorem ofReading_of_laidOut (hr : r.Valid) (hdated : r.Dated) (hv : r.LaidOut v)
    (hcomplete : v.Complete) : ofReading v = .ok r := by
  have hread : ∀ (f : Unit) v, v.Complete → ListsAs Group.LaidOut r.groups.toList v →
      ∃ x, Document.record.read f v = .ok x ∧ x.toList.map Group.settled = r.groups.toList := by
    intro _ v hcomplete hlists
    exact hlists.exists_listing .settled hcomplete
      (fun g hg _ hitem h => Group.exists_ofReading
        (fun p hp => hr.projects_valid p (mem_projects.mpr ⟨g, hg, hp⟩)) (hr.project_keys_of_mem hg)
        (hdated g hg) h hitem)
      (fun _ => rfl) hr.group_keys
  obtain ⟨s, hs, hget⟩ := Record.Layout.exists_slots hv
    (fun _ x => x.toList.map Group.settled = r.groups.toList) hcomplete (fun _ => List.mem_singleton_self _)
    hread (fun _ => False.elim)
  obtain ⟨groups, hgroups, hsettled⟩ := hget ()
  have hdocument : groupsOfReading v = .ok groups := bind_eq_ok.mpr ⟨s, hs, hgroups⟩
  rw [ofReading, hdocument]
  exact mapError_eq_ok.mpr (hr.ofGroups?_of_settled hsettled)

/-- A valid registry is read from every text of every layout of its document. -/
theorem Valid.parse_of_spells (hr : r.Valid) (hdated : r.Dated) (hv : r.LaidOut v)
    (hcomplete : v.Complete) {text : String} (htext : v.Spells text.toList) : parse text = .ok r := by
  refine decode_eq_ok.mpr ?_
  rw [read_of_spells hcomplete htext]
  exact ⟨ofReading_of_laidOut hr hdated hv hcomplete, rfl⟩

end Registry

/-! ### Written documents -/

theorem Document.listsAs_ofJson {α : Type} {LaidOut : α → Reading → Prop} {writeItem : α → Option Json}
    {xs : List α} {items : List Json} (hwrite : xs.mapM writeItem = some items)
    (hitem : ∀ x ∈ xs, ∀ j, writeItem x = some j → LaidOut x (Reading.ofJson j)) :
    ListsAs LaidOut xs (Reading.ofJson (.array items)) := by
  refine ⟨Reading.ofItems items, by rw [Reading.ofJson], ?_⟩
  rw [Reading.ofItems_eq, List.forall₂_map_right_iff]
  have hboth := (List.forall₂_and_left _ _).mpr ⟨hitem, mapM_eq_some.mp hwrite⟩
  exact hboth.imp fun x j h => h.1 j h.2

/-- A pointer as it is written is a layout of it. -/
theorem Pointer.laidOut_ofJson {q : Pointer} {j : Json} (hj : q.toJson? = some j) :
    q.LaidOut (Reading.ofJson j) := by
  obtain ⟨easefile, pipelineFile, heasefile, hpipelineFile, rfl⟩ := eq_object_of_toJson? hj
  refine ⟨easefile, pipelineFile, heasefile, hpipelineFile,
    Record.layout_membersOf (fun f => by cases f <;> rfl) (by decide) ?_ fun _ h => h⟩
  intro f j hf
  rw [hf]
  rfl

theorem Project.laidOut_ofJson {p : Project} {j : Json} (hj : p.toJson? = some j) :
    p.LaidOut (Reading.ofJson j) := by
  simp only [← toJson?_node, ProjectNode.toJson?, Option.bind_eq_bind, Option.bind_eq_some_iff] at hj
  obtain ⟨pointers, hpointers, ⟨⟩⟩ := hj
  have hlists := listsAs_ofJson hpointers fun q _ _ => Pointer.laidOut_ofJson
  refine Record.layout_membersOf (R := record) (fun f => by cases f <;> rfl)
    ProjectNode.record_refined.fields_nodup ?_ ?_
  · intro f j hf
    cases f with
    | pointers =>
        cases hf
        exact hlists
    | _ => exact (congrArg shown hf).symm
  · intro f hf
    cases f with
    | pointers | nextPointerId => cases hf
    | _ => exact hf

theorem Group.laidOut_ofJson {g : Group} {j : Json} (hj : g.toJson? = some j) :
    g.LaidOut (Reading.ofJson j) := by
  simp only [← toJson?_node, GroupNode.toJson?, Option.bind_eq_bind, Option.bind_eq_some_iff] at hj
  obtain ⟨projects, hprojects, ⟨⟩⟩ := hj
  have hlists : ListsAs Project.LaidOut g.projects.toList (Reading.ofJson (.array projects)) := by
    rw [node, List.mapM_map] at hprojects
    refine listsAs_ofJson hprojects fun p _ j hp => Project.laidOut_ofJson ?_
    rwa [← Project.toJson?_node]
  refine Record.layout_membersOf (R := record) (fun f => by cases f <;> rfl)
    GroupNode.record_refined.fields_nodup ?_ ?_
  · intro f j hf
    cases f with
    | projects =>
        cases hf
        exact hlists
    | _ => exact (congrArg shown hf).symm
  · intro f hf
    cases f with
    | projects => cases hf
    | _ => exact hf

/-- The written form of a registry is a text of one of the layouts of its document. -/
theorem Registry.exists_laidOut_of_render? {r : Registry} {text : String}
    (h : r.render? = some text) :
    ∃ v, r.LaidOut v ∧ v.Complete ∧ v.Spells text.toList := by
  simp only [render?, Option.bind_eq_bind, Option.bind_eq_some_iff] at h
  obtain ⟨j, hj, ⟨⟩⟩ := h
  refine ⟨Reading.ofJson j, ?_, Reading.complete_ofJson j, ?_⟩
  · simp only [Document.toJson?, Option.bind_eq_bind, Option.bind_eq_some_iff] at hj
    obtain ⟨groups, hgroups, ⟨⟩⟩ := hj
    have hlists := listsAs_ofJson hgroups fun g _ _ => Group.laidOut_ofJson
    change Document.record.Layout _ _ (Reading.ofJson (.object
      (Document.record.membersOf (fun _ => some (.array groups)) Document.record.fields)))
    refine Record.layout_membersOf (fun _ => rfl) (List.nodup_singleton _) ?_ ?_
    · rintro _ _ ⟨⟩
      exact hlists
    · rintro _ ⟨⟩
  · rw [String.toList_ofList]
    exact spells_pretty j

end PipelineRegistry
