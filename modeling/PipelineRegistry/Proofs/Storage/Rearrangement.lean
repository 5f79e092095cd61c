import Mathlib
import PipelineRegistry.Proofs.Document.Rearrangement
import PipelineRegistry.Proofs.Storage.RoundTrip
import PipelineRegistry.Proofs.Storage.Steps

/-! # Documents are loaded whatever their layout

A document that says what a registry is, in whatever layout and however its tokens are written, is loaded
as that registry.  The form in which registries are saved is only one of them. -/

namespace PipelineRegistry

open Calendar Document Json

/-- The written form of a valid registry is a text of one layout of its document, and every text of every
layout is loaded as exactly that registry. -/
theorem load_of_laidOut {r : Registry} (hr : r.Valid) (hdated : r.Dated) :
    ((∀ q ∈ r.pointers, q.easefile.text?.isSome ∧ q.pipelineFile.text?.isSome) →
      ∃ text v, r.render? = some text ∧ r.LaidOut v ∧ v.Complete ∧ v.Spells text.toList) ∧
    ∀ (v : Reading) (text : String), r.LaidOut v → v.Complete → v.Spells text.toList →
      ∀ (document : Path) (d : Disk), d.read document = .ok text.toUTF8 →
        (Storage.load document : StateM Disk _) d = (.ok r, d) := by
  constructor
  · intro hpaths
    obtain ⟨text, htext⟩ := Option.isSome_iff_exists.mp (Registry.isSome_render?_iff.mpr hpaths)
    obtain ⟨v, hv⟩ := Registry.exists_laidOut_of_render? htext
    exact ⟨text, v, htext, hv⟩
  · intro v text hv hcomplete htext document d hread
    rw [Storage.load_run, hread]
    simp only [Storage.interpret_toUTF8, hr.parse_of_spells hdated hv hcomplete htext]
    rfl

/-! ### A document in another layout -/

namespace Rearranged

/-- The time of creation. -/
def now : Timestamp := ⟨⟨2024, 2, 29⟩, 720, 30, 0⟩

/-- Members of the secured project in another order, with an unknown one and without its list and its
count. -/
def members : List (String × Json) :=
  [("createdDate", ofTimestamp now), ("status", .array [.null, .object []]),
   ("name", .string securedName), ("tag", .null), ("id", .natural 0)]

/-- The secured project as an object with these members. -/
def project : Json := .object members

/-- The secured group as an array. -/
def group : Json := .array [.natural 0, .string securedName, .null, .string securedGroupDescription,
  ofTimestamp now, .null, .array [project]]

/-- A document with a value in the place of its groups. -/
def reading (groups : Json) : Reading := .object [(.ok "projectGroups", .ofJson groups)] .closed

/-- Its text between white space, with an escape in the key. -/
def text (groups : Json) : String := String.ofList (['\t'] ++ (['\x7b'] ++
  (('"' :: ((['\\', 'u', '0', '0', '7', '0'] ++ "rojectGroups".toList.flatMap escape) ++ ['"'])) ++
    ([':'] ++ (prettyAt 1 groups ++ (['\x7d'] ++ ['\n']))))))

theorem laidOut_project : (Registry.securedProject now).LaidOut (.ofJson project) := by
  have hfields : Project.record.fieldsOf (Reading.ofMembers members) = [.created, .name, .tag, .id] := by
    decide +kernel
  refine .object ?_ ?_ ?_ ?_
  · intro m hm
    rw [Reading.ofMembers_eq] at hm
    obtain ⟨member, -, rfl⟩ := List.mem_map.mp hm
    exact ⟨member.1, rfl⟩
  · have hshow : ∀ {key : String} {v : Reading} (f : Project.Field),
        Project.record.field? key = some f → (Registry.securedProject now).Shows f v →
        ∀ g ∈ Project.record.fieldOf? (.ok key, v), (Registry.securedProject now).Shows g v := by
      intro key v f hf hv g hg
      cases hf.symm.trans hg
      exact hv
    refine List.forall_mem_cons.mpr ⟨hshow .created (by decide +kernel) rfl, ?_⟩
    have hunknown : Project.record.field? "status" = none := by decide +kernel
    refine List.forall_mem_cons.mpr ⟨fun f hf => absurd (hunknown.symm.trans hf) nofun, ?_⟩
    refine List.forall_mem_cons.mpr ⟨hshow .name (by decide +kernel) rfl, ?_⟩
    refine List.forall_mem_cons.mpr ⟨hshow .tag (by decide +kernel) rfl, ?_⟩
    exact List.forall_mem_cons.mpr ⟨hshow .id (by decide +kernel) rfl, nofun⟩
  · rw [hfields]
    decide
  · intro f _ hf
    rw [hfields] at hf
    cases f with
    | created | name | tag | id => exact absurd hf (by decide)
    | description | modified | nextPointerId | pointers => rfl

theorem laidOut_group : (Registry.securedGroup now).LaidOut (.ofJson group) :=
  .array (.cons rfl (.cons rfl (.cons rfl (.cons rfl (.cons rfl (.cons rfl
    (.cons ⟨_, rfl, .cons laidOut_project .nil⟩ .nil)))))))

theorem laidOut_reading : (Registry.initial now).LaidOut (reading (.array [group])) := by
  have hlists : ListsAs Group.LaidOut (Registry.initial now).groups.toList
      (.ofJson (.array [group])) := ⟨_, rfl, .cons laidOut_group .nil⟩
  have hfields : record.fieldsOf [(.ok "projectGroups", .ofJson (.array [group]))] = [()] := by
    decide +kernel
  refine .object ?_ ?_ ?_ ?_
  · exact List.forall_mem_singleton.mpr ⟨_, rfl⟩
  · exact List.forall_mem_singleton.mpr fun _ _ => hlists
  · rw [hfields]
    exact List.nodup_singleton _
  · intro f _ hf
    rw [hfields] at hf
    exact hf (List.mem_singleton_self _)

/-- The first character of a string can be written by its unit. -/
theorem spells_unit {s : String} {c h₁ h₂ h₃ h₄ : Char} {rest : List Char} (hs : s.toList = c :: rest)
    (hunits : units c = [c.toNat]) (hunit : codeUnit? h₁ h₂ h₃ h₄ = some c.toNat) :
    Token.Spells (.string (.ok s))
      ('"' :: ((['\\', 'u', h₁, h₂, h₃, h₄] ++ rest.flatMap escape) ++ ['"'])) := by
  obtain ⟨ps, hrenders, hspells⟩ := spells_escapes rest
  have hwhole := Renders.units c hrenders
  rw [hunits, ← hs] at hwhole
  exact .text hwhole (.cons (.unit hunit) hspells)

theorem spells_text (groups : Json) : (reading groups).Spells (text groups).toList := by
  have hname : "projectGroups".toList = 'p' :: "rojectGroups".toList := by decide
  have hkey := spells_unit hname rfl (show codeUnit? '0' '0' '7' '0' = some 'p'.toNat by decide)
  have hend : SpellsTokens [.closeBrace] (['\x7d'] ++ ['\n']) :=
    .token .closeBrace (.nil (isBlank_singleton rfl))
  unfold text
  rw [String.toList_ofList]
  exact .cons (isBlank_singleton rfl) .openBrace (.token hkey (.token .colon (spells_prettyAt 1 groups hend)))

end Rearranged

open Rearranged in
/-- The initial registry is loaded from a disk on which another text of its document has been written. -/
theorem load_of_laidOut_rearranged : ∃ (r : Registry) (v : Reading) (text : String) (document : Path)
    (d : Disk), r.Valid ∧ r.Dated ∧ r.LaidOut v ∧ v.Complete ∧ v.Spells text.toList ∧
      d.read document = .ok text.toUTF8 ∧ (Storage.load document : StateM Disk _) d = (.ok r, d) := by
  have hvalid := Registry.valid_initial now
  have hdated := Registry.dated_initial (show now.IsValid by decide)
  have hcomplete : (reading (.array [group])).Complete :=
    .object (List.forall_mem_singleton.mpr (Reading.complete_ofJson _))
  have hspells := spells_text (.array [group])
  have hwrite : ∀ content, (Disk.empty.perform (.write (.ofString "registry.json") content)).1 = .ok () :=
    fun _ => by rfl
  have hread := Disk.read_of_perform_write (Prod.ext (hwrite (text (.array [group])).toUTF8) rfl)
  exact ⟨_, _, _, _, _, hvalid, hdated, laidOut_reading, hcomplete, hspells, hread,
    (load_of_laidOut hvalid hdated).2 _ _ laidOut_reading hcomplete hspells _ _ hread⟩

end PipelineRegistry
