import Mathlib
import PipelineRegistry.Proofs.Document.Decode
import PipelineRegistry.Proofs.Registry.Preservation
import PipelineRegistry.Storage.Disk
import PipelineRegistry.Storage.Session

/-! # What a handle remembers during a session

A session touches the registry in memory and the disk in four ways: a document is loaded, the first
registry is saved, a change is committed, or a commit fails.  `Kept` lists what has to be shown of
these four, and `Kept.session` draws the conclusion for whole sessions, in which any call may fail
and any mishap may befall the disk. -/

namespace PipelineRegistry

open Calendar Chain

/-! ### Actions on a disk -/

theorem bind_run {α β : Type} (x : StateM Disk α) (f : α → StateM Disk β) (d : Disk) :
    (x >>= f) d = f (x d).1 (x d).2 := rfl

namespace Storage

variable {d d' : Disk} {document : Path} {now : Timestamp} {r : Registry}

theorem load_run (document : Path) (d : Disk) :
    (load document : StateM Disk _) d = (match d.read document with
      | .error cause => .error (.io document cause)
      | .ok content => interpret document content, d) := by
  unfold load
  rw [bind_run]
  change (match d.read document with
    | .error cause => pure (.error (.io document cause))
    | .ok content => pure (interpret document content) : StateM Disk _) d = _
  cases d.read document <;> rfl

theorem loadOrSeed_run (now : Timestamp) (document : Path) (d : Disk) :
    (loadOrSeed now document : StateM Disk _) d =
      if d.isPresent document then (load document : StateM Disk _) d
      else match (save document (.initial now) : StateM Disk _) d with
        | (.error e, d') => (.error e, d')
        | (.ok (), d') => (.ok (.initial now), d') := by
  unfold loadOrSeed
  rw [bind_run]
  change (if d.isPresent document then (load document : StateM Disk _)
    else do return (← save document (.initial now)).map fun () => .initial now) d = _
  split
  · rfl
  · rw [bind_run]
    generalize (save document (.initial now) : StateM Disk _) d = saved
    obtain ⟨_ | _, d'⟩ := saved <;> rfl

end Storage

namespace Handle

variable {d d' : Disk} {h h' : Handle} {now : Timestamp} {r : Registry}

theorem registry_run (h : Handle) (now : Timestamp) (d : Disk) :
    (h.registry now : StateM Disk _) d = match h.memory with
      | some r => ((.ok r, h), d)
      | none => match (Storage.loadOrSeed now h.document : StateM Disk _) d with
        | (.ok r, d') => ((.ok r, { h with memory := some r }), d')
        | (.error e, d') => ((.error e, h), d') := by
  unfold registry
  cases h.memory with
  | some r => rfl
  | none =>
      simp only [bind_run]
      generalize (Storage.loadOrSeed now h.document : StateM Disk _) d = loaded
      obtain ⟨_ | _, d'⟩ := loaded <;> rfl

theorem exclusively_run {α : Type} (h : Handle) (now : Timestamp)
    (change : Registry → Except RegistryError (α × Registry)) (d : Disk) :
    (h.exclusively now change : StateM Disk _) d =
      match (h.registry now : StateM Disk _) d with
      | ((.error e, h), d') => ((.error e, h), d')
      | ((.ok current, h), d') => match change current with
        | .error e => ((.error e, h), d')
        | .ok (a, working) => match (h.commit current working : StateM Disk _) d' with
          | (.error e, d'') => ((.error e, h), d'')
          | (.ok (), d'') => ((.ok a, { h with memory := some working }), d'') := by
  unfold exclusively
  rw [bind_run]
  generalize (h.registry now : StateM Disk _) d = found
  obtain ⟨⟨e | current, h⟩, d'⟩ := found
  · rfl
  · cases hchange : change current with
    | error e => simp only [hchange]; rfl
    | ok pair =>
        obtain ⟨a, working⟩ := pair
        simp only [hchange, bind_run]
        generalize (h.commit current working : StateM Disk _) d' = committed
        obtain ⟨_ | _, d''⟩ := committed <;> rfl

/-- A change fails, or what it gives cannot be committed, or it is committed and remembered. -/
theorem exclusively_cases {α : Type} {change : Registry → Except RegistryError (α × Registry)}
    {answer : Except RegistryError α} (hr : h.memory = some r)
    (hrun : (h.exclusively now change : StateM Disk _) d = ((answer, h'), d')) :
    (∃ e, change r = .error e ∧ answer = .error e ∧ h' = h ∧ d' = d) ∨
    ∃ a working, change r = .ok (a, working) ∧
      ((∃ e, (h.commit r working : StateM Disk _) d = (.error e, d') ∧ answer = .error e ∧ h' = h) ∨
        (h.commit r working : StateM Disk _) d = (.ok (), d') ∧ answer = .ok a ∧
          h' = { h with memory := some working }) := by
  rw [exclusively_run, registry_run, hr] at hrun
  simp only at hrun
  split at hrun
  · rename_i e hchange
    cases hrun
    exact .inl ⟨e, hchange, rfl, rfl, rfl⟩
  · rename_i a working hchange
    refine .inr ⟨a, working, hchange, ?_⟩
    split at hrun
    · rename_i e d₁ hcommit
      cases hrun
      exact .inl ⟨e, hcommit, rfl, rfl⟩
    · rename_i d₁ hcommit
      cases hrun
      exact .inr ⟨hcommit, rfl, rfl⟩

/-- A change that succeeds is committed, and the changed registry is remembered. -/
theorem exclusively_ok {α : Type} {change : Registry → Except RegistryError (α × Registry)} {a : α}
    (hr : h.memory = some r)
    (hrun : (h.exclusively now change : StateM Disk _) d = ((.ok a, h'), d')) :
    ∃ working, change r = .ok (a, working) ∧ h' = { h with memory := some working } ∧
      (h.commit r working : StateM Disk _) d = (.ok (), d') := by
  rcases exclusively_cases hr hrun with ⟨_, -, ⟨⟩, -⟩ | ⟨_, working, hchange, hdone⟩
  rcases hdone with ⟨_, -, ⟨⟩, -⟩ | ⟨hcommit, ⟨⟩, hsame⟩
  exact ⟨working, hchange, hsame, hcommit⟩

/-- A change after which the registry agrees with the one before is remembered and not written. -/
theorem exclusively_of_agrees {α : Type} {change : Registry → Except RegistryError (α × Registry)}
    {a : α} {working : Registry} (hr : h.memory = some r) (hchange : change r = .ok (a, working))
    (hagrees : working.agrees r) (now : Timestamp) (d : Disk) :
    (h.exclusively now change : StateM Disk _) d =
      ((.ok a, { h with memory := some working }), d) := by
  rw [exclusively_run, registry_run, hr]
  simp only [hchange, commit, if_pos hagrees]
  rfl

theorem reset_run (h : Handle) (now : Timestamp) (d : Disk) : (h.reset now : StateM Disk _) d =
    match (h.forget.registry now : StateM Disk _) d with
      | ((result, h), d') => ((result.map fun _ => (), h), d') := rfl

theorem serve_run (h : Handle) (call : Call) (d : Disk) :
    (h.serve call : StateM Disk _) d = match call.request with
      | .change operation => ((h.perform call.now operation : StateM Disk _) d).map Prod.snd id
      | .read => ((h.registry call.now : StateM Disk _) d).map Prod.snd id
      | .reset => ((h.reset call.now : StateM Disk _) d).map Prod.snd id := by
  unfold serve
  cases call.request <;> rfl

theorem openAt_run (document : Path) (now : Timestamp) (d : Disk) :
    (openAt document now : StateM Disk _) d =
      match ((fresh document).registry now : StateM Disk _) d with
      | ((result, h), d') => (result.map fun _ => h, d') := rfl

end Handle

/-- A session whose handle remembers a registry as described has come to an end. -/
theorem exists_of_any_memory {ended : Except RegistryError Handle × Disk} {P : Registry → Bool}
    (h : (ended.1.toOption.bind Handle.memory).any P = true) :
    ∃ h d' r, ended = (.ok h, d') ∧ h.memory = some r ∧ P r = true := by
  obtain ⟨r, hr, hP⟩ := (Option.any_eq_true _ _).mp h
  obtain ⟨handle, hhandle, hmemory⟩ := Option.bind_eq_some_iff.mp hr
  obtain ⟨_ | _, d'⟩ := ended
  · cases hhandle
  · cases hhandle
    exact ⟨handle, d', r, rfl, hmemory, hP⟩

/-! ### What sessions keep -/

/-- The calls that are admitted load, seed, commit and fail so that `P` holds of the registry in
memory and the disk afterwards. -/
structure Kept (document : Path) (admitted : Call → Prop) (P : Registry → Disk → Prop) : Prop where
  load : ∀ {d content r}, d.read document = .ok content →
    Storage.interpret document content = .ok r → P r d
  seed : ∀ {call d d'}, admitted call →
    (Storage.save document (.initial call.now) : StateM Disk _) d = (.ok (), d') →
    P (.initial call.now) d'
  commit : ∀ {call operation d d' memory current outcome working}, admitted call →
    call.request = .change operation → P current d →
    operation.perform call.now current = .ok (outcome, working) →
    ((⟨document, memory⟩ : Handle).commit current working : StateM Disk _) d = (.ok (), d') →
    P working d'
  failure : ∀ {call operation d d' memory current outcome working e}, admitted call →
    call.request = .change operation → P current d →
    operation.perform call.now current = .ok (outcome, working) →
    ((⟨document, memory⟩ : Handle).commit current working : StateM Disk _) d = (.error e, d') →
    P current d'

/-- The handle is one for `document`, and `P` holds of what it remembers. -/
structure Handle.Remembers (h : Handle) (document : Path) (P : Registry → Disk → Prop) (d : Disk) :
    Prop where
  document_eq : h.document = document
  memory : ∀ r ∈ h.memory, P r d

namespace Kept

variable {document : Path} {admitted : Call → Prop} {P : Registry → Disk → Prop} {call : Call}
  {h h' : Handle} {d d' : Disk}

theorem loadOrSeed (hP : Kept document admitted P) (hcall : admitted call) {r : Registry}
    (h : (Storage.loadOrSeed call.now document : StateM Disk _) d = (.ok r, d')) : P r d' := by
  rw [Storage.loadOrSeed_run] at h
  split at h
  · rw [Storage.load_run] at h
    split at h
    · cases h
    · rename_i content hread
      obtain ⟨hr, rfl⟩ := Prod.mk.inj h
      exact hP.load hread hr
  · split at h
    · cases h
    · rename_i d₁ hsave
      cases h
      exact hP.seed hcall hsave

theorem registry (hP : Kept document admitted P) (hcall : admitted call)
    (hh : h.Remembers document P d) {result : Except RegistryError Registry}
    (hrun : (h.registry call.now : StateM Disk _) d = ((result, h'), d')) :
    h'.Remembers document P d' ∧ ∀ r, result = .ok r → h'.memory = some r := by
  obtain ⟨rfl, hmemory⟩ := hh
  rw [Handle.registry_run] at hrun
  cases hm : h.memory with
  | some r =>
      rw [hm] at hrun hmemory
      cases hrun
      refine ⟨⟨rfl, fun r hr => hmemory r (hm ▸ hr)⟩, ?_⟩
      rintro r ⟨⟩
      exact hm
  | none =>
      simp only [hm] at hrun
      split at hrun
      · rename_i r d₁ hload
        cases hrun
        have hr := hP.loadOrSeed hcall hload
        refine ⟨⟨rfl, ?_⟩, ?_⟩
        · rintro r ⟨⟩
          exact hr
        · rintro r ⟨⟩
          rfl
      · cases hrun
        refine ⟨⟨rfl, ?_⟩, nofun⟩
        rw [hm]
        exact nofun

theorem perform (hP : Kept document admitted P) (hcall : admitted call) {operation : Operation}
    (hrequest : call.request = .change operation) (hh : h.Remembers document P d)
    {result : Except RegistryError Outcome}
    (hrun : (h.perform call.now operation : StateM Disk _) d = ((result, h'), d')) :
    h'.Remembers document P d' := by
  rw [Handle.perform, Handle.exclusively_run] at hrun
  split at hrun
  · rename_i e h₁ d₁ hregistry
    cases hrun
    exact (hP.registry hcall hh hregistry).1
  · rename_i current h₁ d₁ hregistry
    obtain ⟨hh₁, hm⟩ := hP.registry hcall hh hregistry
    have hm := hm current rfl
    have hcurrent := hh₁.memory current hm
    split at hrun
    · cases hrun
      exact hh₁
    · rename_i outcome working hchange
      obtain ⟨doc, memory⟩ := h₁
      obtain ⟨rfl, hmemory⟩ := hh₁
      split at hrun
      · rename_i e d₂ hcommit
        cases hrun
        refine ⟨rfl, ?_⟩
        intro r hr
        obtain rfl : current = r := Option.some_inj.mp (hm.symm.trans hr)
        exact hP.failure hcall hrequest hcurrent hchange hcommit
      · rename_i d₂ hcommit
        cases hrun
        refine ⟨rfl, ?_⟩
        rintro r ⟨⟩
        exact hP.commit hcall hrequest hcurrent hchange hcommit

theorem serve (hP : Kept document admitted P) (hcall : admitted call)
    (hh : h.Remembers document P d)
    (hrun : (h.serve call : StateM Disk _) d = (h', d')) : h'.Remembers document P d' := by
  rw [Handle.serve_run] at hrun
  cases hrequest : call.request with
  | change operation =>
      simp only [hrequest] at hrun
      obtain ⟨rfl, rfl⟩ := Prod.mk.inj hrun
      exact hP.perform hcall hrequest hh rfl
  | read =>
      simp only [hrequest] at hrun
      obtain ⟨rfl, rfl⟩ := Prod.mk.inj hrun
      exact (hP.registry hcall hh rfl).1
  | reset =>
      simp only [hrequest, Handle.reset_run] at hrun
      obtain ⟨rfl, rfl⟩ := Prod.mk.inj hrun
      have hforget : h.forget.Remembers document P d := ⟨hh.document_eq, nofun⟩
      exact (hP.registry hcall hforget rfl).1

theorem serveAll (hP : Kept document admitted P) {calls : List Call}
    (hcalls : ∀ call ∈ calls, admitted call) (hh : h.Remembers document P d)
    (hrun : (h.serveAll calls : StateM Disk _) d = (h', d')) : h'.Remembers document P d' := by
  induction calls generalizing h d with
  | nil =>
      cases hrun
      exact hh
  | cons call calls ih =>
      rw [List.forall_mem_cons] at hcalls
      rw [Handle.serveAll, bind_run] at hrun
      exact ih hcalls.2 (hP.serve hcalls.1 hh rfl) hrun

/-- Whatever the calls of a session are and whichever of them fail, `P` holds of what the handle
remembers in the end. -/
theorem session (hP : Kept document admitted P) {now : Timestamp} (hnow : admitted ⟨now, .read⟩)
    {calls : List Call} (hcalls : ∀ call ∈ calls, admitted call)
    (hrun : (PipelineRegistry.session document now calls : StateM Disk _) d = (.ok h, d')) :
    h.Remembers document P d' := by
  have hfresh : (Handle.fresh document).Remembers document P d := ⟨rfl, nofun⟩
  rw [PipelineRegistry.session, bind_run, Handle.openAt_run] at hrun
  cases hopen : ((Handle.fresh document).registry now : StateM Disk _) d with
  | mk result d₁ =>
      obtain ⟨result, h₁⟩ := result
      have hh₁ := (hP.registry hnow hfresh hopen).1
      rw [hopen] at hrun
      cases result with
      | error e => cases hrun
      | ok r =>
          cases hrun
          exact hP.serveAll hcalls hh₁ rfl

end Kept
end PipelineRegistry
