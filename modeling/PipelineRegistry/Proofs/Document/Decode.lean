import Mathlib
import PipelineRegistry.Proofs.Calendar.Timestamp
import PipelineRegistry.Proofs.Document.Refinement
import PipelineRegistry.Proofs.Path
import PipelineRegistry.Proofs.Registry.Dated
import PipelineRegistry.Proofs.Registry.Loading

/-! # Registries that have been read

Whatever text a registry has been read from, it is valid, its times are times that can be written, and
the paths of its pointers are UTF-8. -/

namespace PipelineRegistry

open Calendar Chain Document Json

/-! ### Times and paths -/

theorem Json.Reading.isValid_of_date (v : Reading) (t : Timestamp) (h : v.date = .ok t) :
    t.IsValid := by
  obtain ⟨s, -, h⟩ := bind_eq_ok.mp h
  split at h
  · rename_i ht
    cases h
    exact Timestamp.isValid_of_parse ht
  · cases h

theorem Json.Reading.isValid_of_optional_date (v : Reading) (t? : Option Timestamp)
    (h : v.optional (·.date) = .ok t?) : ∀ t ∈ t?, t.IsValid := by
  intro t ht
  rcases optional_ok h with rfl | ⟨t', rfl, hdate⟩
  · cases ht
  · cases ht
    exact isValid_of_date _ _ hdate

theorem Json.Reading.isSome_text?_of_path (v : Reading) (p : Path) (h : v.path = .ok p) :
    p.text?.isSome := by
  obtain ⟨s, -, rfl⟩ := map_eq_ok.mp h
  rw [Path.text?_ofString]
  rfl

/-! ### Entities -/

theorem Pointer.dated_of_ofReading {v : Reading} {q : Pointer} (h : Pointer.ofReading v = .ok q) :
    q.Dated := by
  simp only [Pointer.ofReading, bind_eq_ok, pure_eq_ok] at h
  obtain ⟨s, hs, -, -, -, -, -, -, -, -, -, -, -, -, -, -, -, -, created, hcreated, rfl⟩ := h
  exact (Record.filled_of_readSlots hs).get hcreated Timestamp.IsValid Reading.isValid_of_date nofun

theorem Pointer.isSome_text?_of_ofReading {v : Reading} {q : Pointer}
    (h : Pointer.ofReading v = .ok q) : q.easefile.text?.isSome ∧ q.pipelineFile.text?.isSome := by
  simp only [Pointer.ofReading, bind_eq_ok, pure_eq_ok] at h
  obtain ⟨s, hs, -, -, -, -, -, -, -, -, easefile, heasefile, pipelineFile, hpipelineFile, -, -, -, -,
    -, -, rfl⟩ := h
  have hfilled := Record.filled_of_readSlots hs
  exact ⟨hfilled.get heasefile (fun p : Path => p.text?.isSome) Reading.isSome_text?_of_path nofun,
    hfilled.get hpipelineFile (fun p : Path => p.text?.isSome) Reading.isSome_text?_of_path nofun⟩

theorem Project.ofReading_ok {v : Reading} {p : Project} (h : Project.ofReading v = .ok p) :
    p.Dated ∧ p.pointers.keys.Nodup ∧
      ∀ q ∈ p.pointers.toList, ∃ item, Pointer.ofReading item = .ok q := by
  simp only [Project.ofReading, bind_eq_ok, pure_eq_ok] at h
  obtain ⟨s, hs, -, -, -, -, -, -, -, -, created, hcreated, modified, hmodified, -, -, pointers,
    hpointers, rfl⟩ := h
  have hfilled := Record.filled_of_readSlots hs
  have hlisting := hfilled.get hpointers
    (fun pointers => pointers.keys.Nodup ∧
      ∀ q ∈ pointers.toList, ∃ item, Pointer.ofReading item = .ok q) ?read ?absent
  case read => exact fun v pointers hread => Reading.listing_ok hread
  case absent =>
    rintro _ ⟨⟩
    exact ⟨List.nodup_nil, fun q hq => absurd hq List.not_mem_nil⟩
  refine ⟨⟨?_, ?_, ?_⟩, hlisting⟩
  · exact hfilled.get hcreated Timestamp.IsValid Reading.isValid_of_date nofun
  · refine hfilled.get hmodified (fun t? : Option Timestamp => ∀ t ∈ t?, t.IsValid)
      Reading.isValid_of_optional_date ?_
    rintro _ ⟨⟩ t ⟨⟩
  · intro q hq
    obtain ⟨item, hitem⟩ := hlisting.2 q hq
    exact Pointer.dated_of_ofReading hitem

theorem Group.ofReading_ok {v : Reading} {g : Group} (h : Group.ofReading v = .ok g) :
    g.Dated ∧ ∀ p ∈ g.projects.toList, ∃ item, Project.ofReading item = .ok p := by
  simp only [Group.ofReading, bind_eq_ok, pure_eq_ok] at h
  obtain ⟨s, hs, -, -, -, -, -, -, -, -, created, hcreated, modified, hmodified, projects,
    hprojects, rfl⟩ := h
  have hfilled := Record.filled_of_readSlots hs
  have hlisting := hfilled.get hprojects
    (fun projects => ∀ p ∈ projects.toList, ∃ item, Project.ofReading item = .ok p) ?read ?absent
  case read => exact fun v projects hread => (Reading.listing_ok hread).2
  case absent =>
    rintro _ ⟨⟩ p hp
    exact absurd hp List.not_mem_nil
  refine ⟨⟨?_, ?_, ?_⟩, hlisting⟩
  · exact hfilled.get hcreated Timestamp.IsValid Reading.isValid_of_date nofun
  · refine hfilled.get hmodified (fun t? : Option Timestamp => ∀ t ∈ t?, t.IsValid)
      Reading.isValid_of_optional_date ?_
    rintro _ ⟨⟩ t ⟨⟩
  · intro p hp
    obtain ⟨item, hitem⟩ := hlisting p hp
    exact (Project.ofReading_ok hitem).1

theorem Document.groupsOfReading_ok {v : Reading} {groups : Listing Group}
    (h : groupsOfReading v = .ok groups) : groups.keys.Nodup ∧
      (∀ g ∈ groups.toList, ∃ item, Group.ofReading item = .ok g) ∧
      ∀ p ∈ Registry.projectsOf groups.toList, ∃ item, Project.ofReading item = .ok p := by
  obtain ⟨s, hs, h⟩ := bind_eq_ok.mp h
  have hlisting := (Record.filled_of_readSlots hs).get h (fun groups => groups.keys.Nodup ∧
    ∀ g ∈ groups.toList, ∃ item, Group.ofReading item = .ok g)
    (fun v groups hread => Reading.listing_ok hread) nofun
  refine ⟨hlisting.1, hlisting.2, ?_⟩
  intro p hp
  obtain ⟨g, hg, hp⟩ := List.mem_flatMap.mp hp
  obtain ⟨item, hitem⟩ := hlisting.2 g hg
  exact (Group.ofReading_ok hitem).2 p hp

/-- A text is interpreted as the value it begins with, as long as nothing follows. -/
theorem Document.decode_eq_ok {ε α : Type} {malformed : Malformation → ε}
    {interpret : Reading → Except ε α} {s : String} {x : α} : decode malformed interpret s = .ok x ↔
      interpret (Json.read s.toList).1 = .ok x ∧ (Json.read s.toList).2 = false := by
  unfold decode
  generalize Json.read s.toList = reading
  obtain ⟨v, more⟩ := reading
  rw [bind_eq_ok]
  cases more with
  | true => simp [throw_eq_ok]
  | false => simp [pure_eq_ok]

/-! ### Registries -/

/-- What a registry has been read from. -/
theorem Registry.exists_groups_of_parse {s : String} {r : Registry} (h : Registry.parse s = .ok r) :
    ∃ v groups, groupsOfReading v = .ok groups ∧ ofGroups? groups = .ok r := by
  obtain ⟨groups, hgroups, h⟩ := bind_eq_ok.mp (Document.decode_eq_ok.mp h).1
  exact ⟨_, groups, mapError_eq_ok.mp hgroups, mapError_eq_ok.mp h⟩

/-- Whatever text a registry has been read from, it is valid and its times can be written. -/
theorem Registry.valid_of_parse {s : String} {r : Registry} (h : Registry.parse s = .ok r) :
    r.Valid ∧ r.Dated := by
  obtain ⟨v, groups, hgroups, h⟩ := exists_groups_of_parse h
  obtain ⟨hnodup, hread, hprojects⟩ := Document.groupsOfReading_ok hgroups
  refine ⟨Valid.ofGroups? hnodup ?_ h, ?_⟩
  · intro p hp
    obtain ⟨item, hitem⟩ := hprojects p hp
    exact (Project.ofReading_ok hitem).2.1
  · obtain ⟨-, -, -, -, -, rfl⟩ := ofGroups?_eq_ok.mp h
    intro g hg
    obtain ⟨g, hg', rfl⟩ := List.mem_map.mp hg
    obtain ⟨item, hitem⟩ := hread g hg'
    obtain ⟨hcreated, hmodified, hprojects⟩ := (Group.ofReading_ok hitem).1
    refine ⟨hcreated, hmodified, ?_⟩
    intro p hp
    obtain ⟨p, hp', rfl⟩ := List.mem_map.mp hp
    obtain ⟨hcreated, hmodified, hpointers⟩ := hprojects p hp'
    exact ⟨hcreated, hmodified, hpointers⟩

/-- The paths of a registry that has been read are UTF-8. -/
theorem Registry.isSome_text?_of_parse {s : String} {r : Registry} (h : Registry.parse s = .ok r) :
    ∀ q ∈ r.pointers, q.easefile.text?.isSome ∧ q.pipelineFile.text?.isSome := by
  obtain ⟨v, groups, hgroups, h⟩ := exists_groups_of_parse h
  obtain ⟨-, -, hprojects⟩ := Document.groupsOfReading_ok hgroups
  obtain ⟨-, -, -, -, -, rfl⟩ := ofGroups?_eq_ok.mp h
  intro q hq
  rw [pointers_eq, projectsOf_settled, pointersOf_settled] at hq
  obtain ⟨p, hp, hq⟩ := List.mem_flatMap.mp hq
  obtain ⟨item, hitem⟩ := hprojects p hp
  obtain ⟨item, hitem⟩ := (Project.ofReading_ok hitem).2.2 q hq
  exact Pointer.isSome_text?_of_ofReading hitem

end PipelineRegistry
