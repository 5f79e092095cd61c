import Mathlib
import PipelineRegistry.Proofs.Registry.Dissolution
import PipelineRegistry.Proofs.Storage.Removal

/-! # Dissolving a group through a handle

A handle that can save all along takes the two ways to dissolve a group to the same end. -/

namespace PipelineRegistry

open Calendar

namespace Handle

/-- Performs operations one after the other until one of them fails, at the times of a clock.  Gives the
operation that has failed and why. -/
def performAll {m : Type → Type} [Monad m] [FileSystem m] (h : Handle) (clock : ℕ → Timestamp) :
    List Operation → m (Except (Operation × RegistryError) Unit × Handle)
  | [] => pure (.ok (), h)
  | operation :: operations => do
    match ← h.perform (clock 0) operation with
    | (.error e, h) => pure (.error (operation, e), h)
    | (.ok _, h) => h.performAll (fun i => clock (i + 1)) operations

/-- What the operations make of the registry in memory can be committed, one after the other, as far as
they succeed. -/
def CanCommitAll (h : Handle) (clock : ℕ → Timestamp) (d : Disk) : List Operation → Prop
  | [] => True
  | operation :: operations => h.CanCommit (clock 0) operation d ∧
    (((h.perform (clock 0) operation : StateM Disk _) d).1.1.isOk →
      ((h.perform (clock 0) operation : StateM Disk _) d).1.2.CanCommitAll (fun i => clock (i + 1))
        ((h.perform (clock 0) operation : StateM Disk _) d).2 operations)

instance decidableCanCommitAll : (h : Handle) → (clock : ℕ → Timestamp) → (d : Disk) →
    (operations : List Operation) → Decidable (h.CanCommitAll clock d operations)
  | _, _, _, [] => inferInstanceAs (Decidable True)
  | h, clock, d, operation :: operations =>
    have := decidableCanCommitAll ((h.perform (clock 0) operation : StateM Disk _) d).1.2
      (fun i => clock (i + 1)) ((h.perform (clock 0) operation : StateM Disk _) d).2 operations
    inferInstanceAs (Decidable (_ ∧ (_ → _)))

variable {h : Handle} {r : Registry} {clock : ℕ → Timestamp} {d : Disk}

theorem performAll_cons_run (h : Handle) (clock : ℕ → Timestamp) (operation : Operation)
    (operations : List Operation) (d : Disk) :
    (h.performAll clock (operation :: operations) : StateM Disk _) d =
      match (h.perform (clock 0) operation : StateM Disk _) d with
      | ((.error e, h'), d') => ((.error (operation, e), h'), d')
      | ((.ok _, h'), d') => (h'.performAll (fun i => clock (i + 1)) operations : StateM Disk _) d' := by
  rw [performAll, bind_run]
  generalize (h.perform (clock 0) operation : StateM Disk _) d = served
  obtain ⟨⟨_ | _, h'⟩, d'⟩ := served <;> rfl

/-- The handle goes through the operations as the registry in memory does. -/
theorem performAll_of_canCommitAll {operations : List Operation} (hmemory : h.memory = some r)
    (hr : r.Valid) (hcommit : h.CanCommitAll clock d operations) : ∃ d',
    (h.performAll clock operations : StateM Disk _) d =
      (((r.performAll clock operations).1,
        { h with memory := some (r.performAll clock operations).2 }), d') := by
  induction operations generalizing h r clock d with
  | nil =>
      refine ⟨d, ?_⟩
      change ((Except.ok (), h), d) = _
      rw [Registry.performAll, ← hmemory]
  | cons operation operations ih =>
      obtain ⟨hfirst, hrest⟩ := hcommit
      obtain ⟨d₁, hrun, -⟩ := perform_of_canCommit hmemory hr hfirst
      have hafter := hr.after (clock 0) operation
      rw [hrun] at hrest
      rw [performAll_cons_run, hrun]
      cases hperform : operation.perform (clock 0) r with
      | error e =>
          rw [Registry.performAll_of_error hperform, (Registry.answer_of_error hperform).2]
          exact ⟨d₁, rfl⟩
      | ok changed =>
          obtain ⟨outcome, r₁⟩ := changed
          obtain ⟨hanswer, hmade⟩ := Registry.answer_of_ok hperform
          rw [hmade] at hafter hrest ⊢
          rw [hanswer] at hrest
          rw [Registry.performAll_of_ok hperform]
          exact ih rfl hafter (hrest rfl)

end Handle

/-- A registry with a group of two projects, and pointers in these and in the secured project. -/
def Registry.teamed : Registry :=
  let now : Timestamp := ⟨⟨2024, 2, 29⟩, 720, 30, 0⟩
  let pointer (project : ProjectId) (pipeline : PipelineId) : Operation := .createPointer
    ⟨project, pipeline, "nightly", .ofString "Easefile", .ofString "main.pipe", none, none, now⟩
  [.createGroup ⟨"team", none, none⟩, .createProject ⟨1, "build", none, none⟩,
    .createProject ⟨1, "deploy", none, none⟩, pointer 0 "first", pointer 1 "second",
    pointer 2 "third"].foldl (fun r (operation : Operation) => r.after now operation) (.initial now)

theorem Registry.valid_teamed : teamed.Valid :=
  List.foldlRecOn _ _ (valid_initial _) fun _ hr operation _ => hr.after _ operation

/-- The same registry when the secured project has one identifier left for pointers. -/
def Registry.crammed : Registry :=
  teamed.modifyProject 0 fun secured => { secured with nextPointerId := 0xfffffffffffffffe }

theorem Registry.valid_crammed : crammed.Valid := by
  have hnext : (teamed.project? 0).any (·.nextPointerId ≤ 0xfffffffffffffffe) = true := by
    decide +kernel
  obtain ⟨secured, hsecured, hle⟩ := (Option.any_eq_true _ _).mp hnext
  have hle : secured.nextPointerId ≤ 0xfffffffffffffffe := of_decide_eq_true hle
  have hvalid := valid_teamed.valid_of_project? hsecured
  have hpipelines : crammed.pipelines.Perm (teamed.pipelines ++ []) :=
    pipelines_modifyProject valid_teamed hsecured (List.append_nil _).symm
  refine valid_teamed.modifyProject hsecured _ rfl ⟨hvalid.pointer_keys, hvalid.pointer_project, ?_⟩
    (fun _ => rfl) (hpipelines.nodup_iff.mpr ?_)
  · intro q hq
    exact UInt64.lt_of_lt_of_le (hvalid.pointer_lt q hq) hle
  · rw [List.append_nil]
    exact valid_teamed.pipelines_nodup

/-! ### Handles -/

variable {h : Handle} {r : Registry} {clock clock' : ℕ → Timestamp} {g : GroupId} {ps : List ProjectId}
  {hard : Bool} {d : Disk}

/-- A handle that can save all along ends with the same registry in memory, whether it removes the group
before its projects `ps` or after them, or it fails at the same project for want of identifiers. -/
theorem dissolution_of_performAll (hmemory : h.memory = some r) (hr : r.Valid)
    (hps : (r.group? g).map (·.projects.keys) = some ps) (hg : g ≠ securedGroupId)
    (hfirst : h.CanCommitAll clock d (groupFirst g ps))
    (hlast : h.CanCommitAll clock' d (groupLast g ps hard)) :
    (∃ r' d₁ d₂,
      (h.performAll clock (groupFirst g ps) : StateM Disk _) d =
        ((.ok (), { h with memory := some r' }), d₁) ∧
      (h.performAll clock' (groupLast g ps hard) : StateM Disk _) d =
        ((.ok (), { h with memory := some r' }), d₂)) ∨
    ∃ p ∈ ps, ∃ h₁ d₁ h₂ d₂,
      (h.performAll clock (groupFirst g ps) : StateM Disk _) d =
        ((.error (.deleteProject securedGroupId p false, .idsExhausted .pointer), h₁), d₁) ∧
      (h.performAll clock' (groupLast g ps hard) : StateM Disk _) d =
        ((.error (.deleteProject g p false, .idsExhausted .pointer), h₂), d₂) := by
  obtain ⟨group, hgroup, hkeys⟩ := Option.map_eq_some_iff.mp hps
  obtain ⟨d₁, hrun₁⟩ := Handle.performAll_of_canCommitAll hmemory hr hfirst
  obtain ⟨d₂, hrun₂⟩ := Handle.performAll_of_canCommitAll hmemory hr hlast
  rw [hrun₁, hrun₂]
  rcases hr.dissolution hgroup hg clock clock' hard hkeys with ⟨r', hfirst, hlast⟩ | ⟨p, hp, hfirst, hlast⟩
  · rw [hfirst, hlast]
    exact .inl ⟨r', d₁, d₂, rfl, rfl⟩
  · rw [hfirst, hlast]
    exact .inr ⟨p, hp, _, d₁, _, d₂, rfl, rfl⟩

/-- The pointers come to the secured project in the order of their projects; where one identifier is
left, the first project is removed and the second is not. -/
theorem dissolution_of_performAll_teamed : ∃ clock clock',
    (∃ r' d₁ d₂,
      ((holding .teamed).performAll clock (groupFirst 1 [1, 2]) : StateM Disk _) .empty =
        ((.ok (), holding r'), d₁) ∧
      ((holding .teamed).performAll clock' (groupLast 1 [1, 2] true) : StateM Disk _) .empty =
        ((.ok (), holding r'), d₂) ∧
      r'.pointers.map (fun q => (q.pipeline, q.projectId, q.id)) =
        [("first", 0, 0), ("second", 0, 1), ("third", 0, 2)]) ∧
    ∃ h₁ d₁ h₂ d₂,
      ((holding .crammed).performAll clock (groupFirst 1 [1, 2]) : StateM Disk _) .empty =
        ((.error (.deleteProject 0 2 false, .idsExhausted .pointer), h₁), d₁) ∧
      ((holding .crammed).performAll clock' (groupLast 1 [1, 2] true) : StateM Disk _) .empty =
        ((.error (.deleteProject 1 2 false, .idsExhausted .pointer), h₂), d₂) := by
  let clock (i : ℕ) : Timestamp := ⟨⟨2024, 3, 1⟩, i, 0, 0⟩
  refine ⟨clock, clock, ?_, ?_⟩
  · have hpointers : (((holding .teamed).performAll clock (groupFirst 1 [1, 2]) : StateM Disk _)
        .empty).1.2.memory.map (·.pointers.map fun q => (q.pipeline, q.projectId, q.id)) =
          some [("first", 0, 0), ("second", 0, 1), ("third", 0, 2)] := by decide +kernel
    have hdone : (((holding .teamed).performAll clock (groupFirst 1 [1, 2]) : StateM Disk _)
        .empty).1.1.isOk = true := by decide +kernel
    rcases @dissolution_of_performAll (holding .teamed) .teamed clock clock 1 [1, 2] true .empty rfl
      Registry.valid_teamed (by decide +kernel) (by decide) (by decide +kernel) (by decide +kernel) with
      ⟨r', d₁, d₂, hfirst, hlast⟩ | hfails
    · rw [hfirst, Option.map_some, Option.some_inj] at hpointers
      exact ⟨r', d₁, d₂, hfirst, hlast, hpointers⟩
    · obtain ⟨p, -, h₁, d₁, -, -, hfirst, -⟩ := hfails
      rw [hfirst] at hdone
      cases hdone
  · have hfailed : (((holding .crammed).performAll clock (groupFirst 1 [1, 2]) : StateM Disk _)
        .empty).1.1 = .error (.deleteProject 0 2 false, .idsExhausted .pointer) := by decide +kernel
    rcases @dissolution_of_performAll (holding .crammed) .crammed clock clock 1 [1, 2] true .empty rfl
      Registry.valid_crammed (by decide +kernel) (by decide) (by decide +kernel) (by decide +kernel) with
      hdone | ⟨p, -, h₁, d₁, h₂, d₂, hfirst, hlast⟩
    · obtain ⟨r', d₁, -, hfirst, -⟩ := hdone
      rw [hfirst] at hfailed
      cases hfailed
    · rw [hfirst] at hfailed
      cases hfailed
      exact ⟨h₁, d₁, h₂, d₂, hfirst, hlast⟩

end PipelineRegistry
