import Mathlib
import PipelineRegistry.Proofs.Registry.Origin
import PipelineRegistry.Proofs.Storage.Agreement

/-! # Sessions keep the origins of pipelines

At any time of a session each pipeline is carried by one pointer.  The next operation accounts for
all that becomes of the origins, and as the document holds the registry in memory, reading it anew
changes nothing. -/

namespace PipelineRegistry

open Calendar Storage

/-- Each entry of the origins that `h` remembers is carried by one pointer, and neither an operation
nor a reset on the disk `d` loses, doubles or alters any that it does not name. -/
structure Handle.KeepsOrigins (h : Handle) (r : Registry) (d : Disk) : Prop where
  carried : ∀ pipeline origin, r.origin? pipeline = some origin ↔
    ∃ q, r.pointers.filter (·.pipeline = pipeline) = [q] ∧ q.origin = origin
  change : ∀ now operation outcome h' d',
    (h.perform now operation : StateM Disk _) d = ((.ok outcome, h'), d') →
      ∃ r', h'.memory = some r' ∧ operation.AccountsFor r r'
  reset : ∀ now, (h.reset now : StateM Disk _) d = ((.ok (), h), d)

/-- After any calls, whichever of them fail and whatever befalls their steps, the handle keeps the
origins of the pipelines. -/
theorem keepsOrigins_of_session {document : Path} {now : Timestamp} {calls : List Call}
    {d d' : Disk} {h : Handle} (hnow : now.IsValid) (hcalls : ∀ call ∈ calls, call.Dated)
    (hrun : (session document now calls : StateM Disk _) d = (.ok h, d')) :
    ∀ r ∈ h.memory, h.KeepsOrigins r d' := by
  obtain ⟨rfl, hremembers⟩ := (kept_mirrored document).session ⟨hnow, nofun⟩ hcalls hrun
  intro r hr
  have hmirrored := hremembers r hr
  constructor
  case carried =>
    intro pipeline origin
    exact hmirrored.valid.origin?_eq_some_iff_filter
  case change =>
    intro time operation outcome h' d'' hperform
    obtain ⟨r', hchange, rfl, -⟩ := Handle.exclusively_ok hr hperform
    exact ⟨r', rfl, hmirrored.valid.accountsFor hchange⟩
  case reset =>
    intro time
    have hsame : (⟨h.document, some r⟩ : Handle) = h := by rw [← show h.memory = some r from hr]
    have hregistry := hmirrored.registry_eq time
    rw [hsame] at hregistry
    rw [Handle.reset_run, show h.forget = Handle.fresh h.document from rfl, hregistry]
    rfl

/-- Calls that register a pipeline in a project of its own, move it to the secured project, and take
the group out. -/
def rehomingCalls (now : Timestamp) : List Call :=
  [.createGroup ⟨"team", none, none⟩, .createProject ⟨1, "build", none, none⟩,
    .createPointer ⟨1, "nightly", "main", .ofString "Easefile", .ofString "main.pipe", none, none, now⟩,
    .deleteProject 1 1 false, .deleteGroup 1 true].map fun operation => ⟨now, .change operation⟩

/-- A session with these calls. -/
def rehomingSession : Except RegistryError Handle × Disk :=
  let now : Timestamp := ⟨⟨2024, 2, 29⟩, 720, 30, 0⟩
  (session (.ofString "home/registry.json") now (rehomingCalls now) : StateM Disk _) .empty

theorem keepsOrigins_of_session_rehoming : ∃ h d' r, rehomingSession = (.ok h, d') ∧
    h.memory = some r ∧ (r.groupCount = 1 ∧ r.origin? "nightly" = some ⟨.ofString "Easefile",
      .ofString "main.pipe", ⟨⟨2024, 2, 29⟩, 720, 30, 0⟩⟩) ∧ h.KeepsOrigins r d' := by
  have hresult : (rehomingSession.1.toOption.bind Handle.memory).any (fun r => r.groupCount = 1 ∧
      r.origin? "nightly" = some ⟨.ofString "Easefile", .ofString "main.pipe",
        ⟨⟨2024, 2, 29⟩, 720, 30, 0⟩⟩) = true := by decide +kernel
  obtain ⟨h, d', r, hrun, hmemory, horigin⟩ := exists_of_any_memory hresult
  have hnow : Timestamp.IsValid ⟨⟨2024, 2, 29⟩, 720, 30, 0⟩ := by decide
  have hcalls : ∀ call ∈ rehomingCalls ⟨⟨2024, 2, 29⟩, 720, 30, 0⟩, call.Dated := by
    intro call hcall
    obtain ⟨operation, hoperation, rfl⟩ := List.mem_map.mp hcall
    refine ⟨hnow, ?_⟩
    rintro _ ⟨⟩
    simp only [List.mem_cons, List.not_mem_nil, or_false] at hoperation
    rcases hoperation with rfl | rfl | rfl | rfl | rfl
    case inr.inr.inl => exact hnow
    all_goals exact trivial
  exact ⟨h, d', r, hrun, hmemory, of_decide_eq_true horigin,
    keepsOrigins_of_session hnow hcalls hrun r hmemory⟩

end PipelineRegistry
