import Mathlib
import PipelineRegistry.Proofs.Storage.Save

/-! # Failed changes

A change that fails leaves the handle as it was, wherever it fails: before anything is changed, half
way through the changes of a copy, because a path cannot be written, or at any step of the save.  It
also leaves the document as it was.  There is one thing it may do to a path behind which there was no
document: where the path climbs by `..` out of a directory that was missing, a save makes this
directory before it fails, and then the path leads to whatever stands there. -/

namespace PipelineRegistry

open Calendar Disk

/-- What cannot be committed cannot be saved. -/
theorem Handle.save_of_commit_error {h : Handle} {current working : Registry} {d d' : Disk}
    {e : RegistryError} (hcommit : (h.commit current working : StateM Disk _) d = (.error e, d')) :
    (Storage.save h.document working : StateM Disk _) d = (.error e, d') := by
  unfold commit at hcommit
  split at hcommit
  · cases hcommit
  · exact hcommit

/-- A failed change by a handle that remembers a registry is the failure of an operation, which does
not touch the disk, or of a save. -/
theorem Handle.perform_error {h h' : Handle} {r : Registry} {d d' : Disk} {now : Timestamp}
    {operation : Operation} {e : RegistryError} (hr : h.memory = some r)
    (hrun : (h.perform now operation : StateM Disk _) d = ((.error e, h'), d')) :
    h' = h ∧ (d' = d ∨ ∃ working,
      (Storage.save h.document working : StateM Disk _) d = (.error e, d')) := by
  rcases exclusively_cases hr hrun with ⟨_, -, -, hsame, hdisk⟩ | ⟨_, working, -, hdone⟩
  · exact ⟨hsame, .inl hdisk⟩
  · rcases hdone with ⟨e', hcommit, ⟨⟩, hsame⟩ | ⟨-, ⟨⟩, -⟩
    exact ⟨hsame, .inr ⟨working, save_of_commit_error hcommit⟩⟩

/-- A change that fails leaves the registry in memory as it was, with the order of its listings, and
the content of its document.  On a disk that is a tree and for a path that climbs only from directories
that are there, it also leaves a missing document missing. -/
theorem unchanged_of_perform_error {h h' : Handle} {r : Registry} {d d' : Disk} {now : Timestamp}
    {operation : Operation} {e : RegistryError} (hr : h.memory = some r)
    (hrun : (h.perform now operation : StateM Disk _) d = ((.error e, h'), d')) :
    h' = h ∧
    (∀ content, d.read h.document = .ok content → d'.read h.document = .ok content) ∧
    (d.IsTree → d.ClimbsFromDirectories h.document →
      (d'.read h.document).toOption = (d.read h.document).toOption ∧
        d'.isPresent h.document = d.isPresent h.document) := by
  obtain ⟨rfl, hdisk⟩ := Handle.perform_error hr hrun
  refine ⟨rfl, ?_⟩
  rcases hdisk with rfl | ⟨working, hsave⟩
  · exact ⟨fun _ => id, fun _ _ => ⟨rfl, rfl⟩⟩
  · exact Storage.document_of_save_error hsave

/-- A path without `..` climbs from nowhere. -/
theorem Disk.climbsFromDirectories_of_not_mem {p : Path} (h : Path.parentName ∉ p.names) (d : Disk) :
    d.ClimbsFromDirectories p := by
  intro before behind hnames
  rw [hnames] at h
  exact absurd (List.mem_append_right _ List.mem_cons_self) h

/-- A registry with a project of two pointers, in which the secured project has one identifier left
for pointers. -/
def crowdedRegistry : Registry :=
  let now : Timestamp := ⟨⟨2024, 2, 29⟩, 720, 30, 0⟩
  let pointer (id : PointerId) (name : String) : Pointer :=
    ⟨1, id, name, name, .ofString "Easefile", .ofString "main.pipe", none, none, now⟩
  let project := { Project.create 1 "build" none none now with
    nextPointerId := 2
    pointers := ⟨[pointer 0 "nightly", pointer 1 "weekly"]⟩ }
  ((Registry.initial now).insertProject 0 project).modifyProject 0 fun secured =>
    { secured with nextPointerId := 0xfffffffffffffffe }

/-- A handle that remembers the crowded registry. -/
def crowdedHandle : Handle := ⟨.ofString "home/registry.json", some crowdedRegistry⟩

/-- A disk with a document. -/
def documentedDisk : Disk :=
  ((Disk.empty.perform (.createDirectories (.ofString "home"))).2.perform
    (.write crowdedHandle.document "{}".toUTF8)).2

theorem read_documentedDisk : documentedDisk.read crowdedHandle.document = .ok "{}".toUTF8 := by
  have hwrite : ((Disk.empty.perform (.createDirectories (.ofString "home"))).2.perform
      (.write crowdedHandle.document "{}".toUTF8)).1 = .ok () := by rfl
  exact read_of_perform_write (Prod.ext hwrite rfl)

/-- A disk without a document, on which the first write breaks off. -/
def tearingDisk : Disk := { Disk.empty with mishaps := [none, none, some (.torn 5 (.other "No space"))] }

/-- The secured project could adopt the first pointer of the project, but not both, so that the
removal of the project fails; and where the save of a new group breaks off, no document appears. -/
theorem unchanged_of_perform_error_crowded : ∃ now h₁ d₁ h₂ d₂ cause,
    ((crowdedRegistry.project? 0).bind (·.adoptAll? (crowdedRegistry.pointers.take 1))).isSome ∧
    (crowdedHandle.perform now (.deleteProject 0 1 false) : StateM Disk _) documentedDisk =
      ((.error (.idsExhausted .pointer), h₁), d₁) ∧
    h₁.memory = some crowdedRegistry ∧ d₁.read crowdedHandle.document = .ok "{}".toUTF8 ∧
    (crowdedHandle.perform now (.createGroup ⟨"team", none, none⟩) : StateM Disk _) tearingDisk =
      ((.error (.io (Workspace.draft crowdedHandle.document) cause), h₂), d₂) ∧
    h₂.memory = some crowdedRegistry ∧ d₂.isPresent crowdedHandle.document = false := by
  let now : Timestamp := ⟨⟨2024, 2, 29⟩, 720, 30, 0⟩
  have hadopt : ((crowdedRegistry.project? 0).bind
      (·.adoptAll? (crowdedRegistry.pointers.take 1))).isSome := by decide +kernel
  have hexhausted : ((crowdedHandle.perform now (.deleteProject 0 1 false) : StateM Disk _)
      documentedDisk).1.1 = .error (.idsExhausted .pointer) := by rfl
  have htorn : ((crowdedHandle.perform now (.createGroup ⟨"team", none, none⟩) : StateM Disk _)
      tearingDisk).1.1 = .error (.io (Workspace.draft crowdedHandle.document) (.other "No space")) := by
    rfl
  have hrun₁ := Prod.ext (Prod.ext hexhausted rfl) rfl
  have hrun₂ := Prod.ext (Prod.ext htorn rfl) rfl
  obtain ⟨hsame₁, hread, -⟩ := unchanged_of_perform_error (r := crowdedRegistry) rfl hrun₁
  obtain ⟨hsame₂, -, hmissing⟩ := unchanged_of_perform_error (r := crowdedRegistry) rfl hrun₂
  have htree : tearingDisk.IsTree := isTree_empty.of_sight_eq rfl
  have hclimbs := climbsFromDirectories_of_not_mem (p := crowdedHandle.document) (by decide) tearingDisk
  have habsent : tearingDisk.isPresent crowdedHandle.document = false := by decide +kernel
  exact ⟨now, _, _, _, _, _, hadopt, hrun₁, congrArg Handle.memory hsame₁, hread _ read_documentedDisk,
    hrun₂, congrArg Handle.memory hsame₂, (hmissing htree hclimbs).2.trans habsent⟩

/-- A handle whose document is reached through a directory. -/
def strayHandle : Handle := ⟨.ofString "way/../real.json", some (.initial ⟨⟨2024, 2, 29⟩, 720, 30, 0⟩)⟩

/-- A disk on which this directory is missing, and on which a directory stands in the place of the
draft. -/
def strayDisk : Disk :=
  ((Disk.empty.perform (.write (.ofString "real.json") "{}".toUTF8)).2.perform
    (.createDirectories (.ofString "real.json.tmp"))).2

/-- A failed change can make a document appear where there was none: it is found through the directory
that the save has made. -/
theorem document_appears : ∃ now e d', strayDisk.IsTree ∧
    strayDisk.isPresent strayHandle.document = false ∧
    (strayHandle.perform now (.createGroup ⟨"team", none, none⟩) : StateM Disk _) strayDisk =
      ((.error e, strayHandle), d') ∧
    (d'.read strayHandle.document).toOption = some "{}".toUTF8 := by
  let now : Timestamp := ⟨⟨2024, 2, 29⟩, 720, 30, 0⟩
  have htree : strayDisk.IsTree := (isTree_empty.perform _).perform _
  have habsent : strayDisk.isPresent strayHandle.document = false := by decide +kernel
  have hresult : ((strayHandle.perform now (.createGroup ⟨"team", none, none⟩) : StateM Disk _)
      strayDisk).1 = (.error (.io (Workspace.draft strayHandle.document) .isDirectory), strayHandle) := by
    rfl
  have hread : (((strayHandle.perform now (.createGroup ⟨"team", none, none⟩) : StateM Disk _)
      strayDisk).2.read strayHandle.document).toOption = some "{}".toUTF8 := by decide +kernel
  exact ⟨now, _, _, htree, habsent, Prod.ext hresult rfl, hread⟩

end PipelineRegistry
