import Mathlib
import PipelineRegistry.Proofs.Document.RoundTrip
import PipelineRegistry.Proofs.Registry.Preservation
import PipelineRegistry.Proofs.Storage.Session

/-! # Saved registries are loaded as they were

A document that holds the written form of a valid registry is loaded as that registry, with its index
of owners and the order of all its listings. -/

namespace PipelineRegistry

open Calendar Chain

namespace Storage

theorem interpret_toUTF8 (document : Path) (text : String) :
    interpret document text.toUTF8 = (Registry.parse text).mapError (.storageCorruption document) := by
  have htext : String.fromUTF8? text.toUTF8 = some text := dif_pos text.isValidUTF8
  rw [interpret, htext]

theorem interpret_render? {r : Registry} (hr : r.Valid) (hdated : r.Dated) {text : String}
    (htext : r.render? = some text) (document : Path) :
    interpret document text.toUTF8 = .ok r := by
  rw [interpret_toUTF8, hr.parse_render? hdated htext]
  rfl

end Storage

/-- A valid registry has a written form if all paths are UTF-8, and a document that holds this form is
loaded as exactly that registry.  If a path is not UTF-8, there is no written form. -/
theorem load_of_render? {r : Registry} (hr : r.Valid) (hdated : r.Dated) :
    ((∀ q ∈ r.pointers, q.easefile.text?.isSome ∧ q.pipelineFile.text?.isSome) →
      ∃ text, r.render? = some text ∧ ∀ (document : Path) (d : Disk),
        d.read document = .ok text.toUTF8 →
          (Storage.load document : StateM Disk _) d = (.ok r, d)) ∧
    ((∃ q ∈ r.pointers, q.easefile.text? = none ∨ q.pipelineFile.text? = none) →
      r.render? = none) := by
  constructor
  · intro hpaths
    obtain ⟨text, htext⟩ := Option.isSome_iff_exists.mp (Registry.isSome_render?_iff.mpr hpaths)
    refine ⟨text, htext, ?_⟩
    intro document d hread
    rw [Storage.load_run, hread]
    simp only [Storage.interpret_render? hr hdated htext]
  · rintro ⟨q, hq, hnone⟩
    rw [← Option.not_isSome_iff_eq_none, Registry.isSome_render?_iff]
    intro hpaths
    obtain ⟨heasefile, hpipelineFile⟩ := hpaths q hq
    rcases hnone with hnone | hnone
    · rw [hnone] at heasefile
      cases heasefile
    · rw [hnone] at hpipelineFile
      cases hpipelineFile

/-- The first registry with a pointer whose strings need escapes. -/
def escapedRegistry (easefile : Path) : Except RegistryError (Outcome × Registry) :=
  Operation.perform ⟨⟨-44, 12, 31⟩, 1439, 60, 5000⟩ (.initial ⟨⟨262142, 1, 1⟩, 0, 0, 0⟩)
    (.createPointer ⟨0, "\"quoted\"\\", "\t\x01😀\n", easefile, ⟨[0x2e, 0xc3, 0xa9]⟩, some "", none,
      ⟨⟨2024, 2, 29⟩, 720, 30, 999999999⟩⟩)

theorem escapedRegistry_kept {easefile : Path} {outcome : Outcome} {r : Registry}
    (h : escapedRegistry easefile = .ok (outcome, r)) : r.Valid ∧ r.Dated := by
  have hcreated : Timestamp.IsValid ⟨⟨2024, 2, 29⟩, 720, 30, 999999999⟩ := by decide
  refine ⟨(Registry.valid_initial _).perform h, (Registry.dated_initial ?_).perform ?_ ?_ h⟩
  · decide
  · decide
  · exact hcreated

theorem load_of_render?_escaped : ∃ o r o' r', escapedRegistry ⟨[0x2f, 0x61]⟩ = .ok (o, r) ∧
    escapedRegistry ⟨[0xff]⟩ = .ok (o', r') ∧ r'.render? = none ∧
    ∃ text, r.render? = some text ∧ ∀ (document : Path) (d : Disk),
      d.read document = .ok text.toUTF8 →
        (Storage.load document : StateM Disk _) d = (.ok r, d) := by
  have hgood : (escapedRegistry ⟨[0x2f, 0x61]⟩).toOption.any (fun x => x.2.pointers.all fun q =>
      q.easefile.text?.isSome && q.pipelineFile.text?.isSome) = true := by decide +kernel
  have hbad : (escapedRegistry ⟨[0xff]⟩).toOption.any (fun x => x.2.pointers.any fun q =>
      q.easefile.text? = none) = true := by decide +kernel
  cases hr : escapedRegistry ⟨[0x2f, 0x61]⟩ with
  | error e =>
      rw [hr] at hgood
      cases hgood
  | ok x =>
      cases hr' : escapedRegistry ⟨[0xff]⟩ with
      | error e =>
          rw [hr'] at hbad
          cases hbad
      | ok x' =>
          obtain ⟨o, r⟩ := x
          obtain ⟨o', r'⟩ := x'
          rw [hr] at hgood
          rw [hr'] at hbad
          have hpaths := List.all_eq_true.mp hgood
          obtain ⟨q, hq, hnone⟩ := List.any_eq_true.mp hbad
          obtain ⟨hvalid, hdated⟩ := escapedRegistry_kept hr
          obtain ⟨hvalid', hdated'⟩ := escapedRegistry_kept hr'
          exact ⟨o, r, o', r', rfl, rfl,
            (load_of_render? hvalid' hdated').2 ⟨q, hq, .inl (of_decide_eq_true hnone)⟩,
            (load_of_render? hvalid hdated).1 fun q hq => Bool.and_eq_true_iff.mp (hpaths q hq)⟩

end PipelineRegistry
