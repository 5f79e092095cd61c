import Mathlib
import PipelineRegistry.Proofs.Registry.Agreement
import PipelineRegistry.Proofs.Storage.RoundTrip
import PipelineRegistry.Proofs.Storage.Save

/-! # What is remembered is what is stored

A commit writes the document only if the registry has changed by more than order and spelling.  As no
operation changes order or spelling alone, a registry that is not written is the one that is stored
already; a registry that is written is read back as it was; and a save that fails leaves the document
as it was.  So the registry in memory is the one that the document holds, at any time of a session. -/

namespace PipelineRegistry

open Calendar Storage

/-- A call at a time there is, with dates there are. -/
structure Call.Dated (call : Call) : Prop where
  now : call.now.IsValid
  operation : ∀ operation, call.request = .change operation → operation.Dated

theorem Call.dated_change_iff {now : Timestamp} {operation : Operation} :
    (⟨now, .change operation⟩ : Call).Dated ↔ now.IsValid ∧ operation.Dated := by
  constructor
  · intro h
    exact ⟨h.now, h.operation operation rfl⟩
  · rintro ⟨hnow, hoperation⟩
    refine ⟨hnow, ?_⟩
    rintro _ ⟨⟩
    exact hoperation

theorem Call.dated_iff_of_ne {call : Call} (h : ∀ operation, call.request ≠ .change operation) :
    call.Dated ↔ call.now.IsValid :=
  ⟨Call.Dated.now, fun hnow => ⟨hnow, fun operation heq => absurd heq (h operation)⟩⟩

instance (call : Call) : Decidable call.Dated :=
  match call with
  | ⟨_, .change _⟩ => decidable_of_iff' _ Call.dated_change_iff
  | ⟨_, .read⟩ => decidable_of_iff' _ (Call.dated_iff_of_ne (by simp))
  | ⟨_, .reset⟩ => decidable_of_iff' _ (Call.dated_iff_of_ne (by simp))

/-- The document holds `r`, which is valid. -/
structure Mirrored (document : Path) (r : Registry) (d : Disk) : Prop where
  valid : r.Valid
  dated : r.Dated
  stored : ∃ content, d.read document = .ok content ∧ interpret document content = .ok r

namespace Mirrored

variable {document : Path} {r : Registry} {d d' : Disk}

theorem load_eq (h : Mirrored document r d) : (load document : StateM Disk _) d = (.ok r, d) := by
  obtain ⟨content, hread, hinterpret⟩ := h.stored
  rw [load_run, hread]
  exact Prod.ext hinterpret rfl

theorem isSome_render? (h : Mirrored document r d) : r.render?.isSome := by
  obtain ⟨content, -, hinterpret⟩ := h.stored
  unfold interpret at hinterpret
  split at hinterpret
  · cases hinterpret
  · exact Registry.isSome_render?_of_parse (Chain.mapError_eq_ok.mp hinterpret)

theorem loadOrSeed_eq (h : Mirrored document r d) (now : Timestamp) :
    (loadOrSeed now document : StateM Disk _) d = (.ok r, d) := by
  obtain ⟨content, hread, -⟩ := h.stored
  rw [loadOrSeed_run, if_pos (Disk.isPresent_of_read hread), h.load_eq]

/-- A handle that has read nothing reads the registry. -/
theorem registry_eq (h : Mirrored document r d) (now : Timestamp) :
    ((Handle.fresh document).registry now : StateM Disk _) d =
      ((.ok r, ⟨document, some r⟩), d) := by
  rw [Handle.registry_run, Handle.fresh, h.loadOrSeed_eq]

theorem of_save (hvalid : r.Valid) (hdated : r.Dated)
    (hsave : (save document r : StateM Disk _) d = (.ok (), d')) : Mirrored document r d' := by
  obtain ⟨text, hrender, hread⟩ := read_of_save_ok hsave
  exact ⟨hvalid, hdated, _, hread, interpret_render? hvalid hdated hrender document⟩

/-- Whether the document holds a registry depends on what is read at its path only. -/
theorem of_read (h : Mirrored document r d)
    (hread : ∀ content, d.read document = .ok content → d'.read document = .ok content) :
    Mirrored document r d' := by
  obtain ⟨content, hcontent, hinterpret⟩ := h.stored
  exact ⟨h.valid, h.dated, content, hread content hcontent, hinterpret⟩

theorem of_save_error (h : Mirrored document r d) {working : Registry} {e : RegistryError}
    (hsave : (save document working : StateM Disk _) d = (.error e, d')) : Mirrored document r d' :=
  h.of_read (document_of_save_error hsave).1

end Mirrored

theorem kept_mirrored (document : Path) : Kept document Call.Dated (Mirrored document) where
  load := by
    intro d content r hread hinterpret
    have hparse := hinterpret
    unfold interpret at hparse
    split at hparse
    · cases hparse
    · obtain ⟨hvalid, hdated⟩ := Registry.valid_of_parse (Chain.mapError_eq_ok.mp hparse)
      exact ⟨hvalid, hdated, content, hread, hinterpret⟩
  seed := by
    intro call d d' hcall hsave
    exact .of_save (Registry.valid_initial _) (Registry.dated_initial hcall.now) hsave
  commit := by
    intro call operation d d' memory current outcome working hcall hrequest hcurrent hperform hcommit
    have hvalid := hcurrent.valid.perform hperform
    have hdated := hcurrent.dated.perform hcall.now (hcall.operation operation hrequest) hperform
    unfold Handle.commit at hcommit
    split at hcommit
    · rename_i hagrees
      cases hcommit
      rw [hcurrent.valid.eq_of_agrees hperform hagrees]
      exact hcurrent
    · exact .of_save hvalid hdated hcommit
  failure := by
    intro call operation d d' memory current outcome working e _ _ hcurrent _ hcommit
    unfold Handle.commit at hcommit
    split at hcommit
    · cases hcommit
    · exact hcurrent.of_save_error hcommit

theorem Mirrored.of_load {document : Path} {r : Registry} {d d' : Disk}
    (h : (load document : StateM Disk _) d = (.ok r, d')) : Mirrored document r d := by
  rw [load_run] at h
  split at h
  · cases h
  · rename_i content hread
    exact (kept_mirrored document).load hread (Prod.mk.inj h).1

/-- Whether an operation fails or not, a registry is remembered afterwards that the document holds. -/
theorem Mirrored.perform {document : Path} {r : Registry} {d : Disk} (hr : Mirrored document r d)
    {now : Timestamp} (hnow : now.IsValid) {operation : Operation} (hoperation : operation.Dated) :
    ∃ result r' d', ((⟨document, some r⟩ : Handle).perform now operation : StateM Disk _) d =
      ((result, ⟨document, some r'⟩), d') ∧ Mirrored document r' d' := by
  have hcall := Call.dated_change_iff.mpr ⟨hnow, hoperation⟩
  rw [Handle.perform, Handle.exclusively_run, Handle.registry_run]
  simp only
  cases hchange : operation.perform now r with
  | error e => exact ⟨_, r, d, rfl, hr⟩
  | ok changed =>
      obtain ⟨outcome, working⟩ := changed
      simp only
      cases hcommit : ((⟨document, some r⟩ : Handle).commit r working : StateM Disk _) d with
      | mk result d' =>
          cases result with
          | error e =>
              exact ⟨_, r, d', rfl, (kept_mirrored document).failure hcall rfl hr hchange hcommit⟩
          | ok _ =>
              exact ⟨_, working, d', rfl,
                (kept_mirrored document).commit hcall rfl hr hchange hcommit⟩

/-- After any calls, whichever of them fail and whatever befalls their steps, loading the document
gives exactly the registry in memory, with the order of all its listings. -/
theorem load_of_session {document : Path} {now : Timestamp} {calls : List Call} {d d' : Disk}
    {h : Handle} (hnow : now.IsValid) (hcalls : ∀ call ∈ calls, call.Dated)
    (hrun : (session document now calls : StateM Disk _) d = (.ok h, d')) :
    h.document = document ∧
      ∀ r ∈ h.memory, (load document : StateM Disk _) d' = (.ok r, d') := by
  have hremembers := (kept_mirrored document).session ⟨hnow, nofun⟩ hcalls hrun
  refine ⟨hremembers.document_eq, ?_⟩
  intro r hr
  exact (hremembers.memory r hr).load_eq

/-- The calls of a session: a group, a project that cannot be saved, the secured project that is not
removed, and the project again. -/
def troubledCalls (now : Timestamp) : List Call :=
  [.createGroup ⟨"team", none, none⟩, .createProject ⟨1, "build", none, none⟩,
    .deleteProject 0 0 true, .createProject ⟨1, "build", none, none⟩].map fun operation =>
      ⟨now, .change operation⟩

/-- A session with these calls, in which the draft of the first project breaks off. -/
def troubledSession : Except RegistryError Handle × Disk :=
  let now : Timestamp := ⟨⟨2024, 2, 29⟩, 720, 30, 0⟩
  (session (.ofString "home/registry.json") now (troubledCalls now) : StateM Disk _)
    { Disk.empty with mishaps := List.replicate 8 none ++ [some (.torn 10 (.other "No space"))] }

theorem load_of_session_troubled : ∃ h d' r, troubledSession = (.ok h, d') ∧ h.memory = some r ∧
    (r.groupCount = 2 ∧ r.projectCount = 2) ∧
    (load (.ofString "home/registry.json") : StateM Disk _) d' = (.ok r, d') := by
  have hresult : (troubledSession.1.toOption.bind Handle.memory).any
      (fun r => r.groupCount = 2 ∧ r.projectCount = 2) = true := by decide +kernel
  obtain ⟨h, d', r, hrun, hmemory, hcounts⟩ := exists_of_any_memory hresult
  have hnow : Timestamp.IsValid ⟨⟨2024, 2, 29⟩, 720, 30, 0⟩ := by decide
  have hcalls : ∀ call ∈ troubledCalls ⟨⟨2024, 2, 29⟩, 720, 30, 0⟩, call.Dated := by
    intro call hcall
    obtain ⟨operation, hoperation, rfl⟩ := List.mem_map.mp hcall
    refine ⟨hnow, ?_⟩
    rintro _ ⟨⟩
    simp only [List.mem_cons, List.not_mem_nil, or_false] at hoperation
    rcases hoperation with rfl | rfl | rfl | rfl <;> exact trivial
  exact ⟨h, d', r, hrun, hmemory, of_decide_eq_true hcounts,
    (load_of_session hnow hcalls hrun).2 r hmemory⟩

end PipelineRegistry
