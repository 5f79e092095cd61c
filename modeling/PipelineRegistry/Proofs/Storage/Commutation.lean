import Mathlib
import PipelineRegistry.Proofs.Registry.Commutation
import PipelineRegistry.Proofs.Storage.Dissolution

/-! # Changes of different entities through a handle

What a handle remembers after a run of operations that all succeed is what the operations make of the
registry, whatever the disk is like.  So it does not depend on the order of operations that are addressed
to different entities. -/

namespace PipelineRegistry

open Calendar

namespace Handle

/-- Performs operations one after the other, each at its own time, until one of them fails. -/
def performTimed {m : Type → Type} [Monad m] [FileSystem m] (h : Handle) :
    List (Timestamp × Operation) → m (Except RegistryError Unit × Handle)
  | [] => pure (.ok (), h)
  | (now, operation) :: operations => do
    match ← h.perform now operation with
    | (.error e, h) => pure (.error e, h)
    | (.ok _, h) => h.performTimed operations

variable {h h' : Handle} {d d' : Disk} {r : Registry}

theorem performTimed_cons_run (h : Handle) (now : Timestamp) (operation : Operation)
    (operations : List (Timestamp × Operation)) (d : Disk) :
    (h.performTimed ((now, operation) :: operations) : StateM Disk _) d =
      match (h.perform now operation : StateM Disk _) d with
      | ((.error e, h'), d') => ((.error e, h'), d')
      | ((.ok _, h'), d') => (h'.performTimed operations : StateM Disk _) d' := by
  rw [performTimed, bind_run]
  generalize (h.perform now operation : StateM Disk _) d = served
  obtain ⟨⟨_ | _, h'⟩, d'⟩ := served <;> rfl

theorem exists_of_isOk {x : StateM Disk (Except RegistryError Unit × Handle)}
    (h : (x d).1.1.isOk = true) : ∃ h' d', x d = ((.ok (), h'), d') := by
  generalize x d = run at h
  obtain ⟨⟨_ | _, h'⟩, d'⟩ := run
  · cases h
  · exact ⟨h', d', rfl⟩

/-- A run that succeeds leaves what the operations make of the registry in memory. -/
theorem performTimed_ok {operations : List (Timestamp × Operation)} (hmemory : h.memory = some r)
    (hrun : (h.performTimed operations : StateM Disk _) d = ((.ok (), h'), d')) :
    ∃ r', r.performTimed operations = .ok r' ∧ h' = { h with memory := some r' } := by
  induction operations generalizing h r d with
  | nil =>
      cases hrun
      exact ⟨r, rfl, by rw [← hmemory]⟩
  | cons o operations ih =>
      obtain ⟨now, operation⟩ := o
      rw [performTimed_cons_run] at hrun
      cases hfirst : (h.perform now operation : StateM Disk _) d with
      | mk answered d₁ =>
          obtain ⟨_ | outcome, h₁⟩ := answered
          · rw [hfirst] at hrun
            cases hrun
          · rw [hfirst] at hrun
            obtain ⟨r₁, hperform, rfl, -⟩ := exclusively_ok hmemory hfirst
            obtain ⟨r', hrest, rfl⟩ := ih rfl hrun
            exact ⟨r', Registry.performTimed_cons_eq_ok.mpr ⟨outcome, r₁, hperform, hrest⟩, rfl⟩

end Handle

variable {r : Registry} {a b : Operation} {s t : Address}

/-- Operations addressed to different entities end with the same registry in either order in which both
succeed, and a handle that performs them remembers the same. -/
theorem order_of_performTimed (hr : r.Valid) (ha : a.address? = some s) (hb : b.address? = some t)
    (hne : s ≠ t) (now now' : Timestamp) :
    (∀ r₁ r₂, r.performTimed [(now, a), (now', b)] = .ok r₁ →
      r.performTimed [(now', b), (now, a)] = .ok r₂ → r₁ = r₂) ∧
    ∀ h : Handle, h.memory = some r → ∀ d₁ d₂ h₁ h₂ d₁' d₂',
      (h.performTimed [(now, a), (now', b)] : StateM Disk _) d₁ = ((.ok (), h₁), d₁') →
      (h.performTimed [(now', b), (now, a)] : StateM Disk _) d₂ = ((.ok (), h₂), d₂') → h₁ = h₂ := by
  have hregistry : ∀ r₁ r₂, r.performTimed [(now, a), (now', b)] = .ok r₁ →
      r.performTimed [(now', b), (now, a)] = .ok r₂ → r₁ = r₂ := by
    intro r₁ r₂ h₁ h₂
    refine hr.performTimed_perm (List.Perm.swap _ _ []) ?_ ?_ h₁ h₂
    · simp [ha, hb]
    · simp [ha, hb, hne]
  refine ⟨hregistry, ?_⟩
  intro h hmemory d₁ d₂ h₁ h₂ d₁' d₂' hrun₁ hrun₂
  obtain ⟨r₁, hperform₁, rfl⟩ := Handle.performTimed_ok hmemory hrun₁
  obtain ⟨r₂, hperform₂, rfl⟩ := Handle.performTimed_ok hmemory hrun₂
  rw [hregistry r₁ r₂ hperform₁ hperform₂]

/-- A group is renamed and a project in it removed with its pointer, before or after. -/
theorem order_of_performTimed_teamed : ∃ (now later : Timestamp) (r' : Registry) (h' : Handle)
    (d₁ d₂ : Disk),
    let rename : Timestamp × Operation := (now, .editGroup 1 (.rename "crew"))
    let remove : Timestamp × Operation := (later, .deleteProject 1 1 true)
    r'.groups.toList.map (fun g => (g.name, g.modified, g.projects.keys)) =
      [("other", none, [0]), ("crew", some now, [2])] ∧
    Registry.teamed.performTimed [rename, remove] = .ok r' ∧
    Registry.teamed.performTimed [remove, rename] = .ok r' ∧
    ((holding .teamed).performTimed [rename, remove] : StateM Disk _) .empty = ((.ok (), h'), d₁) ∧
    ((holding .teamed).performTimed [remove, rename] : StateM Disk _) .empty = ((.ok (), h'), d₂) := by
  let now : Timestamp := ⟨⟨2024, 3, 1⟩, 0, 0, 0⟩
  let later : Timestamp := ⟨⟨2024, 3, 2⟩, 0, 0, 0⟩
  let rename : Timestamp × Operation := (now, .editGroup 1 (.rename "crew"))
  let remove : Timestamp × Operation := (later, .deleteProject 1 1 true)
  have hgroups : (Registry.teamed.performTimed [rename, remove]).toOption.any (fun r' =>
      r'.groups.toList.map (fun g => (g.name, g.modified, g.projects.keys)) =
        [("other", none, [0]), ("crew", some now, [2])]) = true := by decide +kernel
  have hother : (Registry.teamed.performTimed [remove, rename]).toOption.isSome = true := by
    decide +kernel
  obtain ⟨r₁, h₁, hgroups⟩ := (Option.any_eq_true _ _).mp hgroups
  obtain ⟨r₂, h₂⟩ := Option.isSome_iff_exists.mp hother
  rw [Chain.toOption_eq_some] at h₁ h₂
  obtain ⟨h', d₁, hrun₁⟩ := Handle.exists_of_isOk (x := (holding .teamed).performTimed [rename, remove])
    (d := .empty) (by decide +kernel)
  obtain ⟨h'', d₂, hrun₂⟩ := Handle.exists_of_isOk (x := (holding .teamed).performTimed [remove, rename])
    (d := .empty) (by decide +kernel)
  obtain ⟨hregistry, hhandle⟩ := order_of_performTimed Registry.valid_teamed (a := rename.2)
    (b := remove.2) rfl rfl (by decide) now later
  obtain rfl := hregistry r₁ r₂ h₁ h₂
  obtain rfl := hhandle (holding .teamed) rfl _ _ _ _ _ _ hrun₁ hrun₂
  exact ⟨now, later, r₁, h', d₁, d₂, of_decide_eq_true hgroups, h₁, h₂, hrun₁, hrun₂⟩

end PipelineRegistry
