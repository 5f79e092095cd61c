import Mathlib
import PipelineRegistry.Proofs.Document.Decode

/-! # Documents as trees

A tree is all that a document says, in its order, whether or not it keeps the rules of a registry:
identifiers may occur twice, and the count of pointers may be absent.  Trees are read from the same
texts as registries, by the same fields, with nothing checked beyond the types of the values.
`Registry.parse_eq_ok` takes reading a registry apart into reading a tree and checking it.
Every tree that can be written at all is read from some text. -/

namespace PipelineRegistry

open Calendar Json

namespace Document

open Chain

/-! ### Trees -/

/-- A project in a document; its count of pointers may be absent. -/
structure ProjectNode where
  id : ProjectId
  name : String
  tag : Option String
  description : Option String
  created : Timestamp
  modified : Option Timestamp
  nextPointerId : Option PointerId
  pointers : List Pointer
deriving DecidableEq, Repr

/-- A group in a document. -/
structure GroupNode where
  id : GroupId
  name : String
  tag : Option String
  description : Option String
  created : Timestamp
  modified : Option Timestamp
  projects : List ProjectNode
deriving DecidableEq, Repr

/-- All that a document says. -/
structure Tree where
  groups : List GroupNode
deriving DecidableEq, Repr

/-! ### Projects -/

namespace ProjectNode

/-- The type of a field of a project in a document. -/
@[reducible] def Value : Project.Field → Type
  | .nextPointerId => Option PointerId
  | .pointers => List Pointer
  | f => f.Value

/-- Reads a field of a project in a document. -/
def read : (f : Project.Field) → Reading → Except DecodeError (Value f)
  | .nextPointerId, v => some <$> v.natural
  | .pointers, v => v.items Pointer.ofReading
  | .id, v => Project.Field.read .id v
  | .name, v => Project.Field.read .name v
  | .tag, v => Project.Field.read .tag v
  | .description, v => Project.Field.read .description v
  | .created, v => Project.Field.read .created v
  | .modified, v => Project.Field.read .modified v

/-- What an absent field of a project in a document stands for. -/
def absent : (f : Project.Field) → Option (Value f)
  | .nextPointerId => some none
  | .pointers => some []
  | .tag | .description | .modified => some none
  | .id | .name | .created => none

/-- A project in a document as a record. -/
def record : Record Project.Field :=
  { Project.record with Value := Value, read := read, absent := absent }

/-- Reads a project in a document. -/
def ofReading (v : Reading) : Except DecodeError ProjectNode := do
  let s ← record.readSlots v
  return {
    id := ← s.get .id
    name := ← s.get .name
    tag := ← s.get .tag
    description := ← s.get .description
    created := ← s.get .created
    modified := ← s.get .modified
    nextPointerId := ← s.get .nextPointerId
    pointers := ← s.get .pointers }

/-- The project with these fields; it counts from zero where the document has no count. -/
def project (n : ProjectNode) : Project :=
  ⟨n.id, n.name, n.tag, n.description, n.created, n.modified, n.nextPointerId.getD 0, ⟨n.pointers⟩⟩

/-- No two pointers have the same identifier. -/
def Distinct (n : ProjectNode) : Prop := (n.pointers.map Pointer.id).Nodup

/-- The value of a field as a project has it. -/
def convert : (f : Project.Field) → Value f → f.Value
  | .nextPointerId => (·.getD 0)
  | .pointers => Listing.ofList
  | .id | .name | .tag | .description | .created | .modified => fun x => x

/-- The value of a field fits into a project. -/
def Fits : (f : Project.Field) → Value f → Prop
  | .pointers, qs => (qs.map Pointer.id).Nodup
  | _, _ => True

theorem record_refined : Project.record.Refined record Fits convert where
  fields_eq := rfl
  fields_nodup := by decide
  key_eq := rfl
  read
    | .nextPointerId => .some_map Reading.natural 0
    | .pointers => Reading.listing_refines Pointer.ofReading
    | .id | .name | .tag | .description | .created | .modified => .refl _
  absent_eq f := by cases f <;> rfl
  absent_fits
    | .pointers => by
        rintro _ ⟨⟩
        exact List.nodup_nil
    | .id | .name | .tag | .description | .created | .modified | .nextPointerId =>
        fun _ _ => trivial

/-- A project is a project in a document whose pointers have different identifiers. -/
theorem ofReading_refines : Refines Project.ofReading ofReading Distinct project := by
  intro v p
  simp only [Project.ofReading, ofReading, bind_eq_ok, pure_eq_ok, record_refined.readSlots_iff]
  constructor
  · rintro ⟨_, ⟨s, hs, hfit, rfl⟩, h⟩
    simp only [record_refined.get_map] at h
    obtain ⟨_, ⟨id, hid, rfl⟩, _, ⟨name, hname, rfl⟩, _, ⟨tag, htag, rfl⟩, _,
      ⟨description, hdescription, rfl⟩, _, ⟨created, hcreated, rfl⟩, _, ⟨modified, hmodified, rfl⟩,
      _, ⟨next, hnext, rfl⟩, _, ⟨pointers, hpointers, rfl⟩, rfl⟩ := h
    exact ⟨_, ⟨s, hs, id, hid, name, hname, tag, htag, description, hdescription, created, hcreated,
      modified, hmodified, next, hnext, pointers, hpointers, rfl⟩,
      record_refined.get_fits hfit hpointers, rfl⟩
  · rintro ⟨_, ⟨s, hs, id, hid, name, hname, tag, htag, description, hdescription, created, hcreated,
      modified, hmodified, next, hnext, pointers, hpointers, rfl⟩, hdistinct, rfl⟩
    have hfit : s.Fit Fits := by
      intro f qs hqs
      cases f with
      | pointers =>
          rw [Record.Slots.get_of_eq_some hqs] at hpointers
          cases hpointers
          exact hdistinct
      | _ => trivial
    refine ⟨_, ⟨s, hs, hfit, rfl⟩, ?_⟩
    simp only [record_refined.get_map]
    exact ⟨_, ⟨id, hid, rfl⟩, _, ⟨name, hname, rfl⟩, _, ⟨tag, htag, rfl⟩, _,
      ⟨description, hdescription, rfl⟩, _, ⟨created, hcreated, rfl⟩, _, ⟨modified, hmodified, rfl⟩,
      _, ⟨next, hnext, rfl⟩, _, ⟨pointers, hpointers, rfl⟩, rfl⟩

end ProjectNode

/-! ### Groups -/

namespace GroupNode

/-- The type of a field of a group in a document. -/
@[reducible] def Value : Group.Field → Type
  | .projects => List ProjectNode
  | f => f.Value

/-- Reads a field of a group in a document. -/
def read : (f : Group.Field) → Reading → Except DecodeError (Value f)
  | .projects, v => v.items ProjectNode.ofReading
  | .id, v => Group.Field.read .id v
  | .name, v => Group.Field.read .name v
  | .tag, v => Group.Field.read .tag v
  | .description, v => Group.Field.read .description v
  | .created, v => Group.Field.read .created v
  | .modified, v => Group.Field.read .modified v

/-- What an absent field of a group in a document stands for. -/
def absent : (f : Group.Field) → Option (Value f)
  | .projects => some []
  | .tag | .description | .modified => some none
  | .id | .name | .created => none

/-- A group in a document as a record. -/
def record : Record Group.Field :=
  { Group.record with Value := Value, read := read, absent := absent }

/-- Reads a group in a document. -/
def ofReading (v : Reading) : Except DecodeError GroupNode := do
  let s ← record.readSlots v
  return {
    id := ← s.get .id
    name := ← s.get .name
    tag := ← s.get .tag
    description := ← s.get .description
    created := ← s.get .created
    modified := ← s.get .modified
    projects := ← s.get .projects }

/-- The group with these fields. -/
def group (n : GroupNode) : Group :=
  ⟨n.id, n.name, n.tag, n.description, n.created, n.modified, ⟨n.projects.map ProjectNode.project⟩⟩

/-- No two projects of the group have the same identifier, and no two pointers of a project. -/
def Distinct (n : GroupNode) : Prop :=
  (∀ p ∈ n.projects, p.Distinct) ∧ (n.projects.map ProjectNode.id).Nodup

/-- The value of a field as a group has it. -/
def convert : (f : Group.Field) → Value f → f.Value
  | .projects => fun ps => ⟨ps.map ProjectNode.project⟩
  | .id | .name | .tag | .description | .created | .modified => fun x => x

/-- The value of a field fits into a group. -/
def Fits : (f : Group.Field) → Value f → Prop
  | .projects, ps => (∀ p ∈ ps, p.Distinct) ∧ (ps.map ProjectNode.id).Nodup
  | _, _ => True

theorem record_refined : Group.record.Refined record Fits convert where
  fields_eq := rfl
  fields_nodup := by decide
  key_eq := rfl
  read
    | .projects => Reading.listing_refines_items ProjectNode.ofReading_refines
    | .id | .name | .tag | .description | .created | .modified => .refl _
  absent_eq f := by cases f <;> rfl
  absent_fits
    | .projects => by
        rintro _ ⟨⟩
        exact ⟨nofun, List.nodup_nil⟩
    | .id | .name | .tag | .description | .created | .modified => fun _ _ => trivial

/-- A group is a group in a document whose projects have different identifiers. -/
theorem ofReading_refines : Refines Group.ofReading ofReading Distinct group := by
  intro v g
  simp only [Group.ofReading, ofReading, bind_eq_ok, pure_eq_ok, record_refined.readSlots_iff]
  constructor
  · rintro ⟨_, ⟨s, hs, hfit, rfl⟩, h⟩
    simp only [record_refined.get_map] at h
    obtain ⟨_, ⟨id, hid, rfl⟩, _, ⟨name, hname, rfl⟩, _, ⟨tag, htag, rfl⟩, _,
      ⟨description, hdescription, rfl⟩, _, ⟨created, hcreated, rfl⟩, _, ⟨modified, hmodified, rfl⟩,
      _, ⟨projects, hprojects, rfl⟩, rfl⟩ := h
    exact ⟨_, ⟨s, hs, id, hid, name, hname, tag, htag, description, hdescription, created, hcreated,
      modified, hmodified, projects, hprojects, rfl⟩,
      record_refined.get_fits hfit hprojects, rfl⟩
  · rintro ⟨_, ⟨s, hs, id, hid, name, hname, tag, htag, description, hdescription, created, hcreated,
      modified, hmodified, projects, hprojects, rfl⟩, hdistinct, rfl⟩
    have hfit : s.Fit Fits := by
      intro f ps hps
      cases f with
      | projects =>
          rw [Record.Slots.get_of_eq_some hps] at hprojects
          cases hprojects
          exact hdistinct
      | _ => trivial
    refine ⟨_, ⟨s, hs, hfit, rfl⟩, ?_⟩
    simp only [record_refined.get_map]
    exact ⟨_, ⟨id, hid, rfl⟩, _, ⟨name, hname, rfl⟩, _, ⟨tag, htag, rfl⟩, _,
      ⟨description, hdescription, rfl⟩, _, ⟨created, hcreated, rfl⟩, _, ⟨modified, hmodified, rfl⟩,
      _, ⟨projects, hprojects, rfl⟩, rfl⟩

end GroupNode

/-! ### Whole documents -/

namespace Tree

/-- All projects of a document. -/
def projects (t : Tree) : List ProjectNode := t.groups.flatMap GroupNode.projects

/-- All pointers of a document. -/
def pointers (t : Tree) : List Pointer := t.projects.flatMap ProjectNode.pointers

/-- A whole document as a record. -/
def record : Record Unit :=
  { Document.record with
    Value := fun _ => List GroupNode
    read := fun _ v => v.items GroupNode.ofReading
    absent := fun _ => none }

/-- Reads a whole document. -/
def ofReading (v : Reading) : Except DecodeError Tree := do
  let s ← record.readSlots v
  return ⟨← s.get ()⟩

/-- The tree that a text stands for. -/
def parse (s : String) : Except DecodeError Tree := decode .malformed ofReading s

/-- The groups of a document. -/
def listing (t : Tree) : Listing Group := ⟨t.groups.map GroupNode.group⟩

/-- No identifier occurs twice in a list of groups, of projects or of pointers. -/
def Distinct (t : Tree) : Prop :=
  (∀ g ∈ t.groups, g.Distinct) ∧ (t.groups.map GroupNode.id).Nodup

theorem record_refined : Document.record.Refined record
    (fun _ (gs : List GroupNode) => (∀ g ∈ gs, g.Distinct) ∧ (gs.map GroupNode.id).Nodup)
    (fun _ (gs : List GroupNode) => ⟨gs.map GroupNode.group⟩) where
  fields_eq := rfl
  fields_nodup := by decide
  key_eq := rfl
  read _ := Reading.listing_refines_items GroupNode.ofReading_refines
  absent_eq _ := rfl
  absent_fits := nofun

theorem ofReading_refines : Refines groupsOfReading ofReading Distinct listing := by
  intro v groups
  have hstrict : groupsOfReading v = .ok groups ↔
      ∃ s, Document.record.readSlots v = .ok s ∧ s.get () = .ok groups := bind_eq_ok
  simp only [hstrict, ofReading, bind_eq_ok, pure_eq_ok, record_refined.readSlots_iff]
  constructor
  · rintro ⟨_, ⟨s, hs, hfit, rfl⟩, h⟩
    obtain ⟨gs, hgs, rfl⟩ := record_refined.get_map.mp h
    exact ⟨⟨gs⟩, ⟨s, hs, gs, hgs, rfl⟩, record_refined.get_fits hfit hgs, rfl⟩
  · rintro ⟨_, ⟨s, hs, gs, hgs, rfl⟩, hdistinct, rfl⟩
    refine ⟨_, ⟨s, hs, ?_, rfl⟩, record_refined.get_map.mpr ⟨gs, hgs, rfl⟩⟩
    intro f gs' hgs'
    rw [Record.Slots.get_of_eq_some hgs'] at hgs
    cases hgs
    exact hdistinct

end Tree

end Document

open Document Chain in
/-- A text is read as a registry exactly if it is read as a tree that keeps the rules. -/
theorem Registry.parse_eq_ok {s : String} {r : Registry} : Registry.parse s = .ok r ↔
    ∃ t, Tree.parse s = .ok t ∧ t.Distinct ∧ ofGroups? t.listing = .ok r := by
  simp only [parse, Tree.parse, decode_eq_ok, ofReading, bind_eq_ok, mapError_eq_ok,
    Tree.ofReading_refines _ _]
  constructor
  · rintro ⟨⟨_, ⟨t, ht, hdistinct, rfl⟩, hr⟩, hend⟩
    exact ⟨t, ⟨ht, hend⟩, hdistinct, hr⟩
  · rintro ⟨t, ⟨ht, hend⟩, hdistinct, hr⟩
    exact ⟨⟨_, ⟨t, ht, hdistinct, rfl⟩, hr⟩, hend⟩

end PipelineRegistry
