import Mathlib
import PipelineRegistry.Proofs.Document.RoundTrip
import PipelineRegistry.Registry.Error

/-! # Entities are read back as they were written

A pointer, a project or a group is read on its own as it is read in a document, but without the rules
of a registry: nothing is asked of it beyond the types of its fields and different identifiers in its
lists, and nothing is repaired.  So every entity whose times and paths can be written is read back as
it is, in the order of its lists and with the count that it has, and what has been read can be written.
-/

namespace PipelineRegistry

open Calendar Document Json

/-! ### Entities that can be written -/

/-- The time of the pointer is a time, and its paths are UTF-8. -/
structure Pointer.Writable (q : Pointer) : Prop where
  dated : q.Dated
  easefile : q.easefile.text?.isSome
  pipelineFile : q.pipelineFile.text?.isSome

/-- The times of the project are times, and it lists pointers that can be written under different
identifiers.  They may claim to be of another project, and the count may be behind them. -/
structure Project.Writable (p : Project) : Prop where
  dated : p.Dated
  pointer_keys : p.pointers.keys.Nodup
  pointers : ∀ q ∈ p.pointers.toList, q.Writable

/-- The times of the group are times, and it lists projects that can be written under different
identifiers. -/
structure Group.Writable (g : Group) : Prop where
  dated : g.Dated
  project_keys : g.projects.keys.Nodup
  projects : ∀ p ∈ g.projects.toList, p.Writable

theorem Pointer.writable_of_ofReading {v : Reading} {q : Pointer}
    (h : Pointer.ofReading v = .ok q) : q.Writable :=
  ⟨dated_of_ofReading h, (isSome_text?_of_ofReading h).1, (isSome_text?_of_ofReading h).2⟩

theorem Project.writable_of_ofReading {v : Reading} {p : Project}
    (h : Project.ofReading v = .ok p) : p.Writable := by
  obtain ⟨hdated, hkeys, hread⟩ := ofReading_ok h
  refine ⟨hdated, hkeys, ?_⟩
  intro q hq
  obtain ⟨item, hitem⟩ := hread q hq
  exact Pointer.writable_of_ofReading hitem

theorem Group.writable_of_ofReading {v : Reading} {g : Group} (h : Group.ofReading v = .ok g) :
    g.Writable := by
  obtain ⟨hdated, hread⟩ := ofReading_ok h
  refine ⟨hdated, ?_, ?_⟩
  · obtain ⟨n, -, hdistinct, rfl⟩ := (GroupNode.ofReading_refines v g).mp h
    rw [Listing.keys, GroupNode.group, List.map_map]
    exact hdistinct.2
  · intro p hp
    obtain ⟨item, hitem⟩ := hread p hp
    exact Project.writable_of_ofReading hitem

/-! ### Reading what has been written -/

theorem Pointer.Writable.exists_toJson? {q : Pointer} (hq : q.Writable) :
    ∃ j, q.toJson? = some j ∧ Pointer.ofReading (.ofJson j) = .ok q := by
  obtain ⟨j, hj⟩ := Option.isSome_iff_exists.mp
    (isSome_toJson?.mpr ⟨hq.easefile, hq.pipelineFile⟩)
  exact ⟨j, hj, ofReading_ofJson hq.dated hj⟩

theorem Project.Writable.exists_toJson? {p : Project} (hp : p.Writable) :
    ∃ j, p.toJson? = some j ∧ Project.ofReading (.ofJson j) = .ok p := by
  have hsome : p.node.toJson?.isSome := by
    refine ProjectNode.isSome_toJson?.mpr fun q hq => ?_
    obtain ⟨j, hj, -⟩ := (hp.pointers q hq).exists_toJson?
    rw [hj]
    rfl
  obtain ⟨j, hj⟩ := Option.isSome_iff_exists.mp hsome
  have hread := ProjectNode.ofReading_ofJson (n := p.node) hp.dated hj
  exact ⟨j, p.toJson?_node ▸ hj,
    (ProjectNode.ofReading_refines _ p).mpr ⟨p.node, hread, hp.pointer_keys, rfl⟩⟩

theorem Group.Writable.exists_toJson? {g : Group} (hg : g.Writable) :
    ∃ j, g.toJson? = some j ∧ Group.ofReading (.ofJson j) = .ok g := by
  have hsome : g.node.toJson?.isSome := by
    refine GroupNode.isSome_toJson?.mpr fun n hn => ?_
    obtain ⟨p, hp, rfl⟩ := List.mem_map.mp hn
    obtain ⟨j, hj, -⟩ := (hg.projects p hp).exists_toJson?
    rw [p.toJson?_node, hj]
    rfl
  obtain ⟨j, hj⟩ := Option.isSome_iff_exists.mp hsome
  have hdistinct : g.node.Distinct := by
    refine ⟨?_, ?_⟩
    · intro n hn
      obtain ⟨p, hp, rfl⟩ := List.mem_map.mp hn
      exact (hg.projects p hp).pointer_keys
    · rw [node, List.map_map]
      exact hg.project_keys
  have hread := GroupNode.ofReading_ofJson (g.group_node.symm ▸ hg.dated) hj
  exact ⟨j, g.toJson?_node ▸ hj,
    (GroupNode.ofReading_refines _ g).mpr ⟨g.node, hread, hdistinct, g.group_node⟩⟩

/-! ### Texts of entities -/

namespace EntityKind

/-- The entities of a kind. -/
@[reducible] def Entity : EntityKind → Type
  | group => Group
  | project => Project
  | pointer => Pointer

/-- Reads an entity of a kind. -/
def ofReading : (kind : EntityKind) → Reading → Except DecodeError kind.Entity
  | group => Group.ofReading
  | project => Project.ofReading
  | pointer => Pointer.ofReading

/-- An entity of a kind as a value. -/
def toJson? : (kind : EntityKind) → kind.Entity → Option Json
  | group => Group.toJson?
  | project => Project.toJson?
  | pointer => Pointer.toJson?

/-- An entity of a kind that can be written. -/
def Writable : (kind : EntityKind) → kind.Entity → Prop
  | group => Group.Writable
  | project => Project.Writable
  | pointer => Pointer.Writable

variable {kind : EntityKind} {x : kind.Entity} {text : String}

/-- Interprets a text as an entity on its own. -/
def parse (kind : EntityKind) (text : String) : Except DecodeError kind.Entity :=
  decode .malformed kind.ofReading text

/-- The text of an entity, without white space. -/
def text? (kind : EntityKind) (x : kind.Entity) : Option String :=
  (kind.toJson? x).map fun j => String.ofList j.compact

theorem Writable.exists_text? (hx : kind.Writable x) :
    ∃ text, kind.text? x = some text ∧ kind.parse text = .ok x := by
  have hjson : ∃ j, kind.toJson? x = some j ∧ kind.ofReading (.ofJson j) = .ok x := by
    cases kind with
    | group => exact Group.Writable.exists_toJson? hx
    | project => exact Project.Writable.exists_toJson? hx
    | pointer => exact Pointer.Writable.exists_toJson? hx
  obtain ⟨j, hj, hread⟩ := hjson
  refine ⟨_, congrArg (Option.map _) hj, decode_eq_ok.mpr ?_⟩
  rw [String.toList_ofList, read_compact]
  exact ⟨hread, rfl⟩

theorem writable_of_parse (h : kind.parse text = .ok x) : kind.Writable x := by
  have hread := (decode_eq_ok.mp h).1
  cases kind with
  | group => exact Group.writable_of_ofReading hread
  | project => exact Project.writable_of_ofReading hread
  | pointer => exact Pointer.writable_of_ofReading hread

end EntityKind

/-- The text of every entity that can be written is read as that entity, whatever rules of a registry
it breaks.  Every text that is read as an entity gives one that can be written, is read again from what
has been written, and is then written in the same way. -/
theorem entities_round_trip (kind : EntityKind) :
    (∀ x, kind.Writable x → ∃ text, kind.text? x = some text ∧ kind.parse text = .ok x) ∧
    ∀ text x, kind.parse text = .ok x → ∃ written again, kind.text? x = some written ∧
      kind.parse written = .ok again ∧ again = x ∧ kind.text? again = some written := by
  constructor
  · intro x hx
    exact hx.exists_text?
  · intro text x hparse
    obtain ⟨written, hwritten, hread⟩ := (EntityKind.writable_of_parse hparse).exists_text?
    exact ⟨written, x, hwritten, hread, rfl, hwritten⟩

/-- A pointer that claims to be of a project with the identifier 3. -/
def strayPointer (id : PointerId) : Pointer :=
  ⟨3, id, "nightly", "main", .ofString "Easefile", .ofString "main.pipe", none, some "",
    ⟨⟨2024, 2, 29⟩, 720, 30, 0⟩⟩

/-- A project that has one pipeline twice, and counts from less than the pointers it has. -/
def strayProject (id : ProjectId) : Project :=
  ⟨id, "build", some "", none, ⟨⟨2024, 2, 29⟩, 720, 30, 0⟩, some ⟨⟨2024, 3, 1⟩, 0, 60, 1⟩, 2,
    ⟨[strayPointer (0 - 1), strayPointer 2]⟩⟩

/-- A group under the identifier of the secured group that has another name. -/
def strayGroup : Group :=
  ⟨0, "inbox", none, none, ⟨⟨2024, 2, 29⟩, 720, 30, 0⟩, none, ⟨[strayProject 7, strayProject 0]⟩⟩

theorem strayPointer_writable (id : PointerId) : (strayPointer id).Writable where
  dated := (by decide : Timestamp.IsValid ⟨⟨2024, 2, 29⟩, 720, 30, 0⟩)
  easefile := by
    rw [strayPointer, Path.text?_ofString]
    rfl
  pipelineFile := by
    rw [strayPointer, Path.text?_ofString]
    rfl

theorem strayProject_writable (id : ProjectId) : (strayProject id).Writable := by
  have hpointers : ∀ q ∈ (strayProject id).pointers.toList, q.Writable := by
    rintro q (_ | ⟨_, _ | ⟨_, ⟨⟩⟩⟩) <;> exact strayPointer_writable _
  refine ⟨⟨?_, ?_, fun q hq => (hpointers q hq).dated⟩, ?_, hpointers⟩
  · exact (by decide : Timestamp.IsValid ⟨⟨2024, 2, 29⟩, 720, 30, 0⟩)
  · rintro _ ⟨⟩
    exact (by decide : Timestamp.IsValid ⟨⟨2024, 3, 1⟩, 0, 60, 1⟩)
  · exact (by decide : [(0 - 1 : PointerId), 2].Nodup)

theorem strayGroup_writable : strayGroup.Writable := by
  have hprojects : ∀ p ∈ strayGroup.projects.toList, p.Writable := by
    rintro p (_ | ⟨_, _ | ⟨_, ⟨⟩⟩⟩) <;> exact strayProject_writable _
  exact ⟨⟨by decide, nofun, fun p hp => (hprojects p hp).dated⟩, by decide, hprojects⟩

theorem entities_round_trip_stray : ∃ text, EntityKind.group.text? strayGroup = some text ∧
    EntityKind.group.parse text = .ok strayGroup ∧
    EntityKind.project.text? (strayProject 7) ≠ none ∧
    EntityKind.pointer.text? (strayPointer (0 - 1)) ≠ none := by
  obtain ⟨text, htext, hparse⟩ := (entities_round_trip .group).1 strayGroup strayGroup_writable
  obtain ⟨_, hproject, -⟩ :=
    (entities_round_trip .project).1 (strayProject 7) (strayProject_writable 7)
  obtain ⟨_, hpointer, -⟩ :=
    (entities_round_trip .pointer).1 (strayPointer (0 - 1)) (strayPointer_writable _)
  obtain ⟨written, again, hwritten, hread, rfl, -⟩ :=
    (entities_round_trip .group).2 text strayGroup hparse
  refine ⟨written, hwritten, hread, ?_, ?_⟩
  · rw [hproject]
    exact Option.some_ne_none _
  · rw [hpointer]
    exact Option.some_ne_none _

end PipelineRegistry
