import Mathlib
import PipelineRegistry.Proofs.Storage.Agreement
import PipelineRegistry.Storage.Fleet

/-! # Handles side by side

Whatever is done with one handle, the memories of the others stay as they are.  Opening a handle comes
to the same as resetting it, and what a call does to a handle is what it does in a session.  So what
a session keeps (`Kept`) is kept for the handle at work, whoever else has worked on the disk. -/

namespace PipelineRegistry

open Calendar

variable {d d' : Disk} {call : Call} {answer : Except RegistryError Unit}

/-! ### Events and calls -/

/-- The call that comes with an event: opening a handle is a call to read the registry anew. -/
def Event.call? {ι : Type} : Event ι → Option Call
  | opened _ now => some ⟨now, .reset⟩
  | closed _ => none
  | called _ call => some call

/-- The event is one at a time there is, with dates there are. -/
def Event.Dated {ι : Type} (event : Event ι) : Prop := ∀ call ∈ event.call?, call.Dated

instance {ι : Type} (event : Event ι) : Decidable event.Dated :=
  inferInstanceAs (Decidable (∀ call ∈ event.call?, call.Dated))

namespace Handle

theorem respond_run (h : Handle) (call : Call) (d : Disk) :
    (h.respond call : StateM Disk _) d = match call.request with
      | .change operation => ((h.perform call.now operation : StateM Disk _) d).map
          (Prod.map (·.map fun _ => ()) id) id
      | .read => ((h.registry call.now : StateM Disk _) d).map (Prod.map (·.map fun _ => ()) id) id
      | .reset => (h.reset call.now : StateM Disk _) d := by
  unfold respond
  cases call.request <;> rfl

/-- A call does to the handle what it does in a session. -/
theorem serve_eq_respond (h : Handle) (call : Call) (d : Disk) :
    (h.serve call : StateM Disk _) d = ((h.respond call : StateM Disk _) d).map Prod.snd id := by
  rw [serve_run, respond_run]
  cases call.request <;> rfl

/-- A handle that has read nothing answers a call as if it remembered what the document holds. -/
theorem respond_of_mirrored {document : Path} {r : Registry} (hr : Mirrored document r d)
    (call : Call) : ((fresh document).respond call : StateM Disk _) d =
      ((⟨document, some r⟩ : Handle).respond call : StateM Disk _) d := by
  have hregistry := hr.registry_eq call.now
  have hremembered : ((⟨document, some r⟩ : Handle).registry call.now : StateM Disk _) d =
      ((.ok r, ⟨document, some r⟩), d) := rfl
  rw [respond_run, respond_run]
  cases call.request with
  | change operation => simp only [perform, exclusively_run, hregistry, hremembered]
  | read => simp only [hregistry, hremembered]
  | reset => rfl

end Handle

/-- What a session keeps is kept when a call is answered. -/
theorem Kept.respond {document : Path} {admitted : Call → Prop} {P : Registry → Disk → Prop}
    {h h' : Handle} (hP : Kept document admitted P) (hcall : admitted call)
    (hh : h.Remembers document P d)
    (hrun : (h.respond call : StateM Disk _) d = ((answer, h'), d')) : h'.Remembers document P d' := by
  refine hP.serve hcall hh ?_
  rw [Handle.serve_eq_respond, hrun]
  rfl

namespace Fleet

variable {ι : Type} [DecidableEq ι] {f f' : Fleet ι} {name : ι} {event : Event ι}

/-! ### Memories -/

@[simp] theorem document_remember (f : Fleet ι) (name : ι) (memory : Option Registry) :
    (f.remember name memory).document = f.document := rfl

@[simp] theorem memory_remember (f : Fleet ι) (name : ι) (memory : Option Registry) :
    (f.remember name memory).memory name = memory := if_pos rfl

theorem memory_remember_of_ne (f : Fleet ι) {name other : ι} (hne : other ≠ name)
    (memory : Option Registry) : (f.remember name memory).memory other = f.memory other :=
  if_neg hne

@[simp] theorem remember_memory (f : Fleet ι) (name : ι) : f.remember name (f.memory name) = f := by
  obtain ⟨document, memory⟩ := f
  simp only [remember, mk.injEq, true_and]
  funext other
  split
  · rename_i heq
    rw [heq]
  · rfl

@[simp] theorem remember_remember (f : Fleet ι) (name : ι) (memory memory' : Option Registry) :
    (f.remember name memory).remember name memory' = f.remember name memory' := by
  simp only [remember, mk.injEq, true_and]
  funext other
  split <;> rfl

@[simp] theorem handle_remember (f : Fleet ι) (name : ι) (memory : Option Registry) :
    (f.remember name memory).handle name = ⟨f.document, memory⟩ := by simp [handle]

/-! ### One event -/

theorem serve_called (f : Fleet ι) (name : ι) (call : Call) (d : Disk) :
    (f.serve (.called name call) : StateM Disk _) d =
      match ((f.handle name).respond call : StateM Disk _) d with
      | ((answer, h), d') => ((answer, f.remember name h.memory), d') := rfl

/-- Opening a handle comes to the same as resetting it: both read the registry anew. -/
theorem serve_opened (f : Fleet ι) (name : ι) (now : Timestamp) (d : Disk) :
    (f.serve (.opened name now) : StateM Disk _) d =
      (f.serve (.called name ⟨now, .reset⟩) : StateM Disk _) d := by
  rw [serve_called]
  simp only [serve, Handle.respond, bind_run, Handle.openAt_run, Handle.reset_run,
    Handle.registry_run, handle, Handle.forget, Handle.fresh]
  generalize (Storage.loadOrSeed now f.document : StateM Disk _) d = loaded
  obtain ⟨_ | _, d'⟩ := loaded <;> rfl

/-- A handle that is opened finds the registry that the document holds. -/
theorem serve_opened_of_mirrored {r : Registry} (hr : Mirrored f.document r d) (name : ι)
    (now : Timestamp) : (f.serve (.opened name now) : StateM Disk _) d =
      ((.ok (), f.remember name (some r)), d) := by
  unfold serve
  simp only [bind_run, Handle.openAt_run, hr.registry_eq]
  rfl

/-- A handle that is opened where there is no document saves the first registry. -/
theorem serve_opened_of_absent (habsent : d.isPresent f.document = false) {now : Timestamp}
    (hsave : (Storage.save f.document (.initial now) : StateM Disk _) d = (.ok (), d')) (name : ι) :
    (f.serve (.opened name now) : StateM Disk _) d =
      ((.ok (), f.remember name (some (.initial now))), d') := by
  unfold serve
  simp only [bind_run, Handle.openAt_run, Handle.registry_run, Handle.fresh, Storage.loadOrSeed_run,
    habsent, hsave]
  rfl

/-- A handle is closed, or it answers a call. -/
theorem serve_cases (hrun : (f.serve event : StateM Disk _) d = ((answer, f'), d')) :
    (event.call? = none ∧ f' = f.remember event.name none ∧ d' = d) ∨
    ∃ call ∈ event.call?, ∃ h', ((f.handle event.name).respond call : StateM Disk _) d =
      ((answer, h'), d') ∧ f' = f.remember event.name h'.memory := by
  have hcalled : ∀ name call, (f.serve (.called name call) : StateM Disk _) d = ((answer, f'), d') →
      ∃ h', ((f.handle name).respond call : StateM Disk _) d = ((answer, h'), d') ∧
        f' = f.remember name h'.memory := by
    intro name call h
    rw [serve_called] at h
    generalize ((f.handle name).respond call : StateM Disk _) d = responded at h
    obtain ⟨⟨answer', h'⟩, d''⟩ := responded
    cases h
    exact ⟨h', rfl, rfl⟩
  cases event with
  | opened name now =>
      rw [serve_opened] at hrun
      exact .inr ⟨_, rfl, hcalled _ _ hrun⟩
  | closed name =>
      cases hrun
      exact .inl ⟨rfl, rfl, rfl⟩
  | called name call => exact .inr ⟨_, rfl, hcalled _ _ hrun⟩

theorem document_serve (hrun : (f.serve event : StateM Disk _) d = ((answer, f'), d')) :
    f'.document = f.document := by
  rcases serve_cases hrun with ⟨-, rfl, -⟩ | ⟨call, -, h', -, rfl⟩ <;> rfl

/-- The other handles remember what they remembered. -/
theorem memory_serve_of_ne (hrun : (f.serve event : StateM Disk _) d = ((answer, f'), d'))
    (hne : name ≠ event.name) : f'.memory name = f.memory name := by
  rcases serve_cases hrun with ⟨-, rfl, -⟩ | ⟨call, -, h', -, rfl⟩ <;>
    exact memory_remember_of_ne f hne _

/-! ### Events one after the other -/

theorem serveAll_cons {f₁ : Fleet ι} {d₁ : Disk}
    (hrun : (f.serve event : StateM Disk _) d = ((answer, f₁), d₁)) (events : List (Event ι)) :
    (f.serveAll (event :: events) : StateM Disk _) d =
      match (f₁.serveAll events : StateM Disk _) d₁ with
      | ((answers, f'), d') => ((answer :: answers, f'), d') := by
  simp only [serveAll, bind_run, hrun]
  rfl

/-! ### What events keep -/

variable {document : Path} {admitted : Call → Prop}

/-- What a session keeps is kept for the handle at work. -/
theorem remembers_serve {P : Registry → Disk → Prop} (hP : Kept document admitted P)
    (hevent : ∀ call ∈ event.call?, admitted call)
    (hh : (f.handle event.name).Remembers document P d)
    (hrun : (f.serve event : StateM Disk _) d = ((answer, f'), d')) :
    (f'.handle event.name).Remembers document P d' := by
  rcases serve_cases hrun with ⟨-, rfl, rfl⟩ | ⟨call, hcall, h', hrespond, rfl⟩
  · rw [handle_remember]
    exact ⟨hh.document_eq, nofun⟩
  · have hh' := hP.respond (hevent call hcall) hh hrespond
    rw [handle_remember]
    exact ⟨hh.document_eq, hh'.memory⟩

/-- What is kept and does not depend on the disk is kept for all handles. -/
theorem forall_memory_serve {P : Registry → Prop} (hP : Kept document admitted fun r _ => P r)
    (hevent : ∀ call ∈ event.call?, admitted call) (hf : f.document = document)
    (hmemory : ∀ name, ∀ r ∈ f.memory name, P r)
    (hrun : (f.serve event : StateM Disk _) d = ((answer, f'), d')) :
    ∀ name, ∀ r ∈ f'.memory name, P r := by
  intro name
  by_cases hname : name = event.name
  · have hh' := remembers_serve hP hevent ⟨hf, hmemory event.name⟩ hrun
    rw [hname]
    exact hh'.memory
  · rw [memory_serve_of_ne hrun hname]
    exact hmemory name

end Fleet
end PipelineRegistry
