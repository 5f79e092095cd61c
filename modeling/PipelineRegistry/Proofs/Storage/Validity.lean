import Mathlib
import PipelineRegistry.Proofs.Storage.Session

/-! # Sessions remember valid registries

Whatever a session reads keeps the rules, the first registry keeps them, and an operation that
succeeds gives a registry that keeps them again.  Nothing else ever becomes the registry in memory. -/

namespace PipelineRegistry

open Calendar

theorem kept_valid (document : Path) : Kept document (fun _ => True) fun r _ => r.Valid where
  load := by
    intro d content r _ hr
    unfold Storage.interpret at hr
    split at hr
    · cases hr
    · exact (Registry.valid_of_parse (Chain.mapError_eq_ok.mp hr)).1
  seed := fun _ _ => Registry.valid_initial _
  commit := fun _ _ hvalid hperform _ => hvalid.perform hperform
  failure := fun _ _ hvalid _ _ => hvalid

/-- After any calls on any disk, whichever of them fail and whatever befalls their steps, the
registry in memory keeps all rules and each of its entities is found under its own identifier. -/
theorem valid_of_session {document : Path} {now : Timestamp} {calls : List Call} {d d' : Disk}
    {h : Handle} (hrun : (session document now calls : StateM Disk _) d = (.ok h, d')) :
    ∀ r ∈ h.memory, r.Valid ∧ r.Addressed := by
  intro r hr
  have hremembers := (kept_valid document).session trivial (fun _ _ => trivial) hrun
  have hvalid := hremembers.memory r hr
  exact ⟨hvalid, hvalid.addressed⟩

/-- A session that registers a pipeline in a project of its own and takes the project out again, so
that the pointer moves to the secured project.  The last call is refused. -/
def movingSession : Except RegistryError Handle × Disk :=
  let now : Timestamp := ⟨⟨2024, 2, 29⟩, 720, 30, 0⟩
  let operations : List Operation := [.createGroup ⟨"team", none, none⟩,
    .createProject ⟨1, "build", none, none⟩,
    .createPointer ⟨1, "nightly", "main", .ofString "Easefile", .ofString "main.pipe", none, none, now⟩,
    .deleteProject 1 1 false, .createGroup ⟨"team", none, none⟩]
  (session (.ofString "home/registry.json") now (operations.map fun operation =>
    ⟨now, .change operation⟩) : StateM Disk _) .empty

theorem valid_of_session_moving : ∃ h d' r, movingSession = (.ok h, d') ∧ h.memory = some r ∧
    (r.projectCount = 1 ∧ r.pointerCount = 1) ∧ r.Valid ∧ r.Addressed := by
  have hresult : (movingSession.1.toOption.bind Handle.memory).any
      (fun r => r.projectCount = 1 ∧ r.pointerCount = 1) = true := by decide +kernel
  obtain ⟨h, d', r, hrun, hmemory, hcounts⟩ := exists_of_any_memory hresult
  exact ⟨h, d', r, hrun, hmemory, of_decide_eq_true hcounts, valid_of_session hrun r hmemory⟩

end PipelineRegistry
