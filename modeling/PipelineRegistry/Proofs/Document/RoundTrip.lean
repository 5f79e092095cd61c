import Mathlib
import PipelineRegistry.Document.Encode
import PipelineRegistry.Proofs.Document.Layout
import PipelineRegistry.Proofs.Document.Tree

/-! # Documents are read back as they were written

The members of a written record are its fields in their order, without those that are absent.  Each
is read into its slot, and the slots hold what the entity held.  This goes up from pointers through
projects and groups to whole documents.  A registry is written as the tree of its groups, so that it
is read back as a tree, and this tree passes the check. -/

namespace PipelineRegistry

open Calendar Chain Document Json

/-! ### Records -/

namespace Document.Record

variable {Field : Type} [DecidableEq Field] {R : Record Field}

/-- The members of a record whose fields are written as `written` says, in the order of `fields`. -/
def membersOf (R : Record Field) (written : Field → Option Json) (fields : List Field) :
    List (String × Json) :=
  fields.filterMap fun f => (written f).map fun j => (R.key f, j)

variable {written : Field → Option Json} {fields : List Field}

omit [DecidableEq Field] in
/-- Each member is a field as it is written. -/
theorem exists_of_mem_ofMembers {m : Key × Reading}
    (hm : m ∈ Reading.ofMembers (R.membersOf written fields)) :
    ∃ f j, written f = some j ∧ m = (.ok (R.key f), Reading.ofJson j) := by
  rw [Reading.ofMembers_eq] at hm
  obtain ⟨member, hmember, rfl⟩ := List.mem_map.mp hm
  obtain ⟨f, -, hf⟩ := List.mem_filterMap.mp hmember
  obtain ⟨j, hj, rfl⟩ := Option.map_eq_some_iff.mp hf
  exact ⟨f, j, hj, rfl⟩

omit [DecidableEq Field] in
/-- The fields of the members are those that are written, in their order. -/
theorem fieldsOf_membersOf (hkey : ∀ f, R.field? (R.key f) = some f) (fields : List Field) :
    R.fieldsOf (Reading.ofMembers (R.membersOf written fields)) =
      fields.filter fun f => (written f).isSome := by
  induction fields with
  | nil => rfl
  | cons f fields ih =>
      cases hw : written f with
      | none =>
          have hmembers : R.membersOf written (f :: fields) = R.membersOf written fields := by
            simp [membersOf, hw]
          rw [hmembers, ih, List.filter_cons_of_neg (by simp [hw])]
      | some j =>
          have hmembers : R.membersOf written (f :: fields) =
              (R.key f, j) :: R.membersOf written fields := by
            simp [membersOf, hw]
          have hfield : R.fieldOf? (.ok (R.key f), Reading.ofJson j) = some f := hkey f
          rw [hmembers, Reading.ofMembers, fieldsOf, List.filterMap_cons_some hfield,
            List.filter_cons_of_pos (by simp [hw])]
          exact congrArg (f :: ·) ih

omit [DecidableEq Field] in
/-- A record as it is written is one of its layouts. -/
theorem layout_membersOf {Shows : Field → Reading → Prop} {Omissible : Field → Prop}
    (hkey : ∀ f, R.field? (R.key f) = some f) (hfields : R.fields.Nodup)
    (hshows : ∀ f j, written f = some j → Shows f (Reading.ofJson j))
    (homissible : ∀ f, written f = none → Omissible f) :
    R.Layout Shows Omissible (Reading.ofJson (.object (R.membersOf written R.fields))) := by
  refine .object ?_ ?_ ?_ ?_
  · intro m hm
    obtain ⟨f, j, -, rfl⟩ := exists_of_mem_ofMembers hm
    exact ⟨R.key f, rfl⟩
  · intro m hm f hf
    obtain ⟨g, j, hj, rfl⟩ := exists_of_mem_ofMembers hm
    obtain rfl : g = f := Option.some_inj.mp ((hkey g).symm.trans hf)
    exact hshows g j hj
  · rw [fieldsOf_membersOf hkey]
    exact hfields.filter _
  · intro f hf hnot
    rw [fieldsOf_membersOf hkey, List.mem_filter, Option.isSome_iff_ne_none] at hnot
    exact homissible f (by_contra fun h => hnot ⟨hf, h⟩)

/-- The slots of a record that has been written hold what its fields are read as. -/
theorem readSlots_membersOf {t : R.Slots} (hkey : ∀ f, R.field? (R.key f) = some f)
    (hfields : R.fields.Nodup)
    (hread : ∀ f, (written f).mapM (fun j => R.read f (Reading.ofJson j)) = .ok (t f)) :
    R.readSlots (Reading.ofJson (.object (R.membersOf written R.fields))) = .ok t := by
  have hlayout : R.Layout (fun f v => ∃ x, R.read f v = .ok x ∧ t f = some x) (fun f => t f = none)
      (Reading.ofJson (.object (R.membersOf written R.fields))) := by
    refine layout_membersOf hkey hfields ?_ ?_
    · intro f j hj
      have hvalue := hread f
      rw [hj, Option.mapM_some] at hvalue
      obtain ⟨x, hx, hslot⟩ := map_eq_ok.mp hvalue
      exact ⟨x, hx, hslot.symm⟩
    · intro f hf
      have hvalue := hread f
      rw [hf] at hvalue
      exact (pure_eq_ok.mp hvalue).symm
  rw [Reading.ofJson] at hlayout ⊢
  cases hlayout with
  | object named shown once omitted =>
      obtain ⟨t', ht', hfit, hfills⟩ := exists_readMembers (s := .empty) named
        (Reading.complete_ofMembers _) shown once (by rintro f x ⟨⟩) fun _ _ => rfl
      have hsame : t' = t := by
        funext f
        cases hf : t' f with
        | some x => exact (hfit f x hf).symm
        | none => exact (omitted f (List.mem_of_find?_eq_some (hkey f)) (hfills f hf).2).symm
      rw [← hsame]
      exact ht'

end Document.Record

/-! ### Values -/

namespace Json.Reading

theorem date_ofTimestamp {t : Timestamp} (ht : t.IsValid) :
    (ofJson (Document.ofTimestamp t)).date = .ok t := by
  have htext : (ofJson (Document.ofTimestamp t)).text .date = .ok (String.ofList t.text) := rfl
  rw [date, htext, ok_bind, String.toList_ofList, Timestamp.parse_text ht]
  rfl

theorem path_of_text? {p : Path} {s : String} (h : p.text? = some s) :
    (ofJson (.string s)).path = .ok p := by
  rw [← Path.ofString_of_text? h]
  rfl

theorem optional_date {t? : Option Timestamp} (ht : ∀ t ∈ t?, t.IsValid) :
    (t?.map Document.ofTimestamp).mapM (fun j => (ofJson j).optional (·.date)) =
      .ok (t?.map some) := by
  cases t? with
  | none => rfl
  | some t =>
      refine mapM_some_eq_ok ?_
      exact map_eq_ok.mpr ⟨t, date_ofTimestamp (ht t rfl), rfl⟩

theorem optional_text (s? : Option String) :
    (s?.map Json.string).mapM (fun j => (ofJson j).optional (·.text .string)) =
      .ok (s?.map some) := by
  cases s? <;> rfl

/-- A list is read back if its items are. -/
theorem items_ofJson {α : Type} (readItem : Reading → Except DecodeError α)
    {writeItem : α → Option Json} {xs : List α} {items : List Json}
    (hwrite : xs.mapM writeItem = some items)
    (hread : ∀ x ∈ xs, ∀ j, writeItem x = some j → readItem (ofJson j) = .ok x) :
    (ofJson (.array items)).items readItem = .ok xs := by
  have hitems : List.Forall₂ (fun x j => readItem (ofJson j) = .ok x) xs items := by
    have hboth := (List.forall₂_and_left _ _).mpr ⟨hread, mapM_eq_some.mp hwrite⟩
    exact hboth.imp fun x j h => h.1 j h.2
  have hread : (ofItems items).mapM readItem = .ok xs := by
    rw [ofItems_eq, mapM_eq_ok, List.forall₂_map_left_iff]
    exact hitems.flip
  exact items_eq_ok.mpr ⟨ofItems items, .closed, by rw [ofJson], hread, rfl⟩

end Json.Reading

/-! ### Entities -/

namespace Pointer

/-- How the fields of a pointer are written. -/
def written (q : Pointer) (easefile pipelineFile : String) : Field → Option Json
  | .projectId => some (.natural q.projectId)
  | .id => some (.natural q.id)
  | .pipeline => some (.string q.pipeline)
  | .name => some (.string q.name)
  | .easefile => some (.string easefile)
  | .pipelineFile => some (.string pipelineFile)
  | .tag => q.tag.map .string
  | .description => q.description.map .string
  | .created => some (ofTimestamp q.created)

/-- The slots that hold the fields of a pointer. -/
def slots (q : Pointer) : record.Slots
  | .projectId => some q.projectId
  | .id => some q.id
  | .pipeline => some q.pipeline
  | .name => some q.name
  | .easefile => some q.easefile
  | .pipelineFile => some q.pipelineFile
  | .tag => q.tag.map some
  | .description => q.description.map some
  | .created => some q.created

theorem ofReading_eq {v : Reading} {q : Pointer} (h : record.readSlots v = .ok q.slots) :
    ofReading v = .ok q := by
  obtain ⟨_, _, _, _, _, _, tag, description, _⟩ := q
  rw [ofReading, h]
  cases tag <;> cases description <;> rfl

/-- A pointer is written as the record of its fields. -/
theorem eq_object_of_toJson? {q : Pointer} {j : Json} (hj : q.toJson? = some j) :
    ∃ easefile pipelineFile, q.easefile.text? = some easefile ∧
      q.pipelineFile.text? = some pipelineFile ∧
      j = .object (record.membersOf (q.written easefile pipelineFile) record.fields) := by
  simp only [toJson?, Option.bind_eq_bind, Option.bind_eq_some_iff] at hj
  obtain ⟨easefile, heasefile, pipelineFile, hpipelineFile, hj⟩ := hj
  refine ⟨easefile, pipelineFile, heasefile, hpipelineFile, ?_⟩
  rw [← Option.some_inj.mp hj]
  cases htag : q.tag <;> cases hdescription : q.description <;>
    simp [optionalMember, Record.membersOf, record, written, htag, hdescription, Field.key]

theorem ofReading_ofJson {q : Pointer} (hq : q.Dated) {j : Json} (hj : q.toJson? = some j) :
    ofReading (Reading.ofJson j) = .ok q := by
  obtain ⟨easefile, pipelineFile, heasefile, hpipelineFile, rfl⟩ := eq_object_of_toJson? hj
  refine ofReading_eq (Record.readSlots_membersOf ?_ ?_ ?_)
  · intro f
    cases f <;> rfl
  · decide
  · intro f
    cases f with
    | tag => exact Reading.optional_text q.tag
    | description => exact Reading.optional_text q.description
    | easefile => exact mapM_some_eq_ok (Reading.path_of_text? heasefile)
    | pipelineFile => exact mapM_some_eq_ok (Reading.path_of_text? hpipelineFile)
    | created => exact mapM_some_eq_ok (Reading.date_ofTimestamp hq)
    | projectId => rfl
    | id => rfl
    | pipeline => rfl
    | name => rfl

/-- Only a path that is not UTF-8 keeps a pointer from being written. -/
theorem isSome_toJson? {q : Pointer} :
    q.toJson?.isSome ↔ q.easefile.text?.isSome ∧ q.pipelineFile.text?.isSome := by
  unfold toJson?
  cases q.easefile.text? <;> cases q.pipelineFile.text? <;> simp

end Pointer

namespace Document

namespace ProjectNode

/-- How the fields of a project in a document are written. -/
def written (n : ProjectNode) (pointers : List Json) : Project.Field → Option Json
  | .id => some (.natural n.id)
  | .name => some (.string n.name)
  | .tag => n.tag.map .string
  | .description => n.description.map .string
  | .created => some (ofTimestamp n.created)
  | .modified => n.modified.map ofTimestamp
  | .nextPointerId => n.nextPointerId.map .natural
  | .pointers => some (.array pointers)

/-- The slots that hold the fields of a project in a document. -/
def slots (n : ProjectNode) : record.Slots
  | .id => some n.id
  | .name => some n.name
  | .tag => n.tag.map some
  | .description => n.description.map some
  | .created => some n.created
  | .modified => n.modified.map some
  | .nextPointerId => n.nextPointerId.map some
  | .pointers => some n.pointers

/-- A project in a document as a value; an absent count is left out. -/
def toJson? (n : ProjectNode) : Option Json := do
  let pointers ← n.pointers.mapM Pointer.toJson?
  return .object (record.membersOf (n.written pointers) record.fields)

theorem ofReading_eq {v : Reading} {n : ProjectNode} (h : record.readSlots v = .ok n.slots) :
    ofReading v = .ok n := by
  obtain ⟨_, _, tag, description, _, modified, next, _⟩ := n
  rw [ofReading, h]
  cases tag <;> cases description <;> cases modified <;> cases next <;> rfl

theorem ofReading_ofJson {n : ProjectNode} (hn : n.project.Dated) {j : Json}
    (hj : n.toJson? = some j) : ofReading (Reading.ofJson j) = .ok n := by
  simp only [toJson?, Option.bind_eq_bind, Option.bind_eq_some_iff] at hj
  obtain ⟨pointers, hpointers, ⟨⟩⟩ := hj
  have hitems := Reading.items_ofJson Pointer.ofReading hpointers
    fun q hq _ => Pointer.ofReading_ofJson (hn.pointers q hq)
  refine ofReading_eq (Record.readSlots_membersOf ?_ record_refined.fields_nodup ?_)
  · intro f
    cases f <;> rfl
  · intro f
    cases f with
    | tag => exact Reading.optional_text n.tag
    | description => exact Reading.optional_text n.description
    | modified => exact Reading.optional_date hn.modified
    | created => exact mapM_some_eq_ok (Reading.date_ofTimestamp hn.created)
    | nextPointerId => cases hnext : n.nextPointerId <;> simp only [written, slots, hnext] <;> rfl
    | pointers => exact mapM_some_eq_ok hitems
    | id => rfl
    | name => rfl

theorem isSome_toJson? {n : ProjectNode} :
    n.toJson?.isSome ↔ ∀ q ∈ n.pointers, q.toJson?.isSome := by
  rw [← isSome_mapM, toJson?]
  cases n.pointers.mapM Pointer.toJson? <;> simp

end ProjectNode

namespace GroupNode

/-- How the fields of a group in a document are written. -/
def written (n : GroupNode) (projects : List Json) : Group.Field → Option Json
  | .id => some (.natural n.id)
  | .name => some (.string n.name)
  | .tag => n.tag.map .string
  | .description => n.description.map .string
  | .created => some (ofTimestamp n.created)
  | .modified => n.modified.map ofTimestamp
  | .projects => some (.array projects)

/-- The slots that hold the fields of a group in a document. -/
def slots (n : GroupNode) : record.Slots
  | .id => some n.id
  | .name => some n.name
  | .tag => n.tag.map some
  | .description => n.description.map some
  | .created => some n.created
  | .modified => n.modified.map some
  | .projects => some n.projects

/-- A group in a document as a value. -/
def toJson? (n : GroupNode) : Option Json := do
  let projects ← n.projects.mapM ProjectNode.toJson?
  return .object (record.membersOf (n.written projects) record.fields)

theorem ofReading_eq {v : Reading} {n : GroupNode} (h : record.readSlots v = .ok n.slots) :
    ofReading v = .ok n := by
  obtain ⟨_, _, tag, description, _, modified, _⟩ := n
  rw [ofReading, h]
  cases tag <;> cases description <;> cases modified <;> rfl

theorem ofReading_ofJson {n : GroupNode} (hn : n.group.Dated) {j : Json}
    (hj : n.toJson? = some j) : ofReading (Reading.ofJson j) = .ok n := by
  simp only [toJson?, Option.bind_eq_bind, Option.bind_eq_some_iff] at hj
  obtain ⟨projects, hprojects, ⟨⟩⟩ := hj
  have hitems := Reading.items_ofJson ProjectNode.ofReading hprojects
    fun p hp _ => ProjectNode.ofReading_ofJson (hn.projects _ (List.mem_map_of_mem hp))
  refine ofReading_eq (Record.readSlots_membersOf ?_ record_refined.fields_nodup ?_)
  · intro f
    cases f <;> rfl
  · intro f
    cases f with
    | tag => exact Reading.optional_text n.tag
    | description => exact Reading.optional_text n.description
    | modified => exact Reading.optional_date hn.modified
    | created => exact mapM_some_eq_ok (Reading.date_ofTimestamp hn.created)
    | projects => exact mapM_some_eq_ok hitems
    | id => rfl
    | name => rfl

theorem isSome_toJson? {n : GroupNode} :
    n.toJson?.isSome ↔ ∀ p ∈ n.projects, p.toJson?.isSome := by
  rw [← isSome_mapM, toJson?]
  cases n.projects.mapM ProjectNode.toJson? <;> simp

end GroupNode

/-! ### Documents -/

namespace Tree

variable {t : Tree}

/-- A whole document as a value. -/
def toJson? (t : Tree) : Option Json := do
  let groups ← t.groups.mapM GroupNode.toJson?
  return .object (record.membersOf (fun _ => some (.array groups)) record.fields)

/-- The times of a document can be written, and its paths are UTF-8. -/
structure Writable (t : Tree) : Prop where
  dated : ∀ g ∈ t.groups, g.group.Dated
  paths : ∀ q ∈ t.pointers, q.easefile.text?.isSome ∧ q.pipelineFile.text?.isSome

/-- A written document is read as the tree it was. -/
theorem parse_pretty (ht : ∀ g ∈ t.groups, g.group.Dated) {j : Json} (hj : t.toJson? = some j) :
    parse (String.ofList j.pretty) = .ok t := by
  simp only [toJson?, Option.bind_eq_bind, Option.bind_eq_some_iff] at hj
  obtain ⟨groups, hgroups, ⟨⟩⟩ := hj
  have hitems := Reading.items_ofJson GroupNode.ofReading hgroups
    fun g hg _ => GroupNode.ofReading_ofJson (ht g hg)
  have hslots : record.readSlots (Reading.ofJson
      (.object (record.membersOf (fun _ => some (.array groups)) record.fields))) =
      .ok (fun _ => some t.groups) :=
    Record.readSlots_membersOf (fun _ => rfl) record_refined.fields_nodup
      fun _ => mapM_some_eq_ok hitems
  refine decode_eq_ok.mpr ?_
  rw [String.toList_ofList, read_pretty, ofReading, hslots]
  exact ⟨rfl, rfl⟩

/-- Only paths that are not UTF-8 keep a document from being written. -/
theorem isSome_toJson? : t.toJson?.isSome ↔
    ∀ q ∈ t.pointers, q.easefile.text?.isSome ∧ q.pipelineFile.text?.isSome := by
  have hgroups : t.toJson?.isSome ↔ (t.groups.mapM GroupNode.toJson?).isSome := by
    rw [toJson?]
    cases t.groups.mapM GroupNode.toJson? <;> simp
  simp only [hgroups, isSome_mapM, GroupNode.isSome_toJson?, ProjectNode.isSome_toJson?,
    Pointer.isSome_toJson?, pointers, projects, List.forall_mem_flatMap]

/-- A tree that can be written is read from some text. -/
theorem exists_parse (ht : t.Writable) : ∃ s, parse s = .ok t := by
  obtain ⟨j, hj⟩ := Option.isSome_iff_exists.mp (isSome_toJson?.mpr ht.paths)
  exact ⟨_, parse_pretty ht.dated hj⟩

end Tree
end Document

/-! ### Registries -/

/-- A project as it stands in a document. -/
def Project.node (p : Project) : ProjectNode :=
  ⟨p.id, p.name, p.tag, p.description, p.created, p.modified, some p.nextPointerId,
    p.pointers.toList⟩

/-- A group as it stands in a document. -/
def Group.node (g : Group) : GroupNode :=
  ⟨g.id, g.name, g.tag, g.description, g.created, g.modified, g.projects.toList.map Project.node⟩

theorem Project.toJson?_node (p : Project) : p.node.toJson? = p.toJson? := by
  rw [ProjectNode.toJson?, toJson?, node]
  congr 1
  funext pointers
  cases p.tag <;> cases p.description <;> cases p.modified <;>
    simp [optionalMember, Record.membersOf, ProjectNode.record, record, ProjectNode.written,
      Field.key]

theorem Group.toJson?_node (g : Group) : g.node.toJson? = g.toJson? := by
  rw [GroupNode.toJson?, toJson?, node, List.mapM_map]
  simp only [Function.comp_def, Project.toJson?_node]
  congr 1
  funext projects
  cases g.tag <;> cases g.description <;> cases g.modified <;>
    simp [optionalMember, Record.membersOf, GroupNode.record, record, GroupNode.written, Field.key]

theorem Group.group_node (g : Group) : g.node.group = g := by
  have hprojects : (g.projects.toList.map Project.node).map ProjectNode.project =
      g.projects.toList := by
    rw [List.map_map]
    exact List.map_id _
  rw [GroupNode.group, node, hprojects]

namespace Registry

variable {r : Registry}

/-- The document of a registry. -/
def tree (r : Registry) : Tree := ⟨r.groups.toList.map Group.node⟩

theorem toJson?_tree (r : Registry) : r.tree.toJson? = Document.toJson? r.groups := by
  rw [Tree.toJson?, Document.toJson?, tree, List.mapM_map]
  simp only [Function.comp_def, Group.toJson?_node]
  rfl

theorem listing_tree (r : Registry) : r.tree.listing = r.groups := by
  rw [Tree.listing, tree, List.map_map]
  simp only [Function.comp_def, Group.group_node, List.map_id']

theorem pointers_tree (r : Registry) : r.tree.pointers = r.pointers := by
  have hprojects : r.tree.projects = r.projects.map Project.node := by
    simp only [Tree.projects, tree, projects, List.flatMap_map, List.map_flatMap]
    rfl
  rw [Tree.pointers, hprojects, List.flatMap_map]
  rfl

theorem Valid.distinct_tree (hr : r.Valid) : r.tree.Distinct := by
  refine ⟨?_, ?_⟩
  · intro _ hnode
    obtain ⟨g, hg, rfl⟩ := List.mem_map.mp hnode
    refine ⟨?_, ?_⟩
    · intro _ hnode
      obtain ⟨p, hp, rfl⟩ := List.mem_map.mp hnode
      exact (hr.projects_valid p (mem_projects.mpr ⟨g, hg, hp⟩)).pointer_keys
    · rw [Group.node, List.map_map]
      exact hr.project_keys_of_mem hg
  · rw [tree, List.map_map]
    exact hr.group_keys

/-- The written form of a valid registry is read as that registry. -/
theorem Valid.parse_render? (hr : r.Valid) (hdated : r.Dated) {text : String}
    (h : r.render? = some text) : parse text = .ok r := by
  simp only [render?, Option.bind_eq_bind, Option.bind_eq_some_iff, ← toJson?_tree] at h
  obtain ⟨j, hj, ⟨⟩⟩ := h
  have hgroups : ∀ g ∈ r.tree.groups, g.group.Dated := by
    intro _ hnode
    obtain ⟨g, hg, rfl⟩ := List.mem_map.mp hnode
    exact g.group_node.symm ▸ hdated g hg
  refine parse_eq_ok.mpr ⟨r.tree, Tree.parse_pretty hgroups hj, hr.distinct_tree, ?_⟩
  rw [listing_tree]
  exact hr.ofGroups?_groups

/-- A registry has a written form exactly if the paths of its pointers are UTF-8. -/
theorem isSome_render?_iff : r.render?.isSome ↔
    ∀ q ∈ r.pointers, q.easefile.text?.isSome ∧ q.pipelineFile.text?.isSome := by
  rw [← pointers_tree, ← Tree.isSome_toJson?, render?, ← toJson?_tree]
  cases r.tree.toJson? <;> simp

/-- A registry that has been read can be written. -/
theorem isSome_render?_of_parse {s : String} (h : parse s = .ok r) : r.render?.isSome :=
  isSome_render?_iff.mpr (isSome_text?_of_parse h)

/-- Two valid registries that have the same written form are the same. -/
theorem Valid.eq_of_render?_eq {r' : Registry} (hr : r.Valid) (hdated : r.Dated) (hr' : r'.Valid)
    (hdated' : r'.Dated) (hsome : r.render?.isSome) (h : r.render? = r'.render?) : r = r' := by
  obtain ⟨text, htext⟩ := Option.isSome_iff_exists.mp hsome
  have hparse := hr.parse_render? hdated htext
  rw [hr'.parse_render? hdated' (h ▸ htext)] at hparse
  exact (Except.ok.inj hparse).symm

end Registry
end PipelineRegistry
