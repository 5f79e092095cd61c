import Mathlib
import PipelineRegistry.Proofs.Registry.Counting
import PipelineRegistry.Proofs.Storage.Failure
import PipelineRegistry.Proofs.Storage.Fleet

/-! # One handle at a time

While a document is worked on by one handle at a time, the registry has a history: it goes on from one
event to the next by the operations that succeed, whether the handle is closed and opened again in
between or reads the document anew.  Where the handle remembers nothing, the registry is in the
document.  What holds from one registry to the next therefore holds along the history. -/

namespace PipelineRegistry

open Calendar Storage

/-! ### The registry on which a handle works -/

namespace Handle

variable {document : Path} {h : Handle} {r r' : Registry} {d d' : Disk} {call : Call}

/-- The registry that the handle remembers, or else the one in the document. -/
def shown? (h : Handle) (d : Disk) : Option Registry :=
  h.memory.or ((load h.document : StateM Disk _) d).1.toOption

/-- The handle works on `r`, which the document holds. -/
structure Reflects (h : Handle) (document : Path) (r : Registry) (d : Disk) : Prop where
  document_eq : h.document = document
  memory : h.memory = none ∨ h.memory = some r
  mirrored : Mirrored document r d

theorem Reflects.shown?_eq (hr : h.Reflects document r d) : h.shown? d = some r := by
  obtain ⟨rfl, hmemory, hmirrored⟩ := hr
  rw [shown?, hmirrored.load_eq]
  rcases hmemory with hmemory | hmemory <;> rw [hmemory] <;> rfl

theorem Remembers.reflects (hh : h.Remembers document (Mirrored document) d)
    (hr : h.shown? d = some r) : h.Reflects document r d := by
  obtain ⟨rfl, hmemory⟩ := hh
  unfold shown? at hr
  cases hm : h.memory with
  | some r' =>
      rw [hm, Option.some_or] at hr
      cases hr
      exact ⟨rfl, .inr hm, hmemory _ hm⟩
  | none =>
      rw [hm, Option.none_or, Chain.toOption_eq_some] at hr
      exact ⟨rfl, .inl hm, .of_load (Prod.ext hr rfl)⟩

end Handle

/-- `r'` is `r`, or what the operation of a call that was answered so has made of it. -/
def Registry.Follows (r : Registry) (call? : Option Call) (answer : Except RegistryError Unit)
    (r' : Registry) : Prop :=
  r' = r ∨ answer = .ok () ∧ ∃ call ∈ call?, ∃ operation outcome,
    call.request = .change operation ∧ operation.perform call.now r = .ok (outcome, r')

/-- `r'` is what an operation with this result has made of `r`: nothing else if it has failed. -/
def Registry.Becomes (r : Registry) (now : Timestamp) (operation : Operation)
    (result : Except RegistryError Outcome) (r' : Registry) : Prop :=
  match result with
  | .error _ => r' = r
  | .ok outcome => operation.perform now r = .ok (outcome, r')

/-- An operation on what the document holds leaves the handle with what has come of it. -/
theorem Mirrored.perform_becomes {document : Path} {r : Registry} {d : Disk} {now : Timestamp}
    {operation : Operation} (hr : Mirrored document r d) (hnow : now.IsValid)
    (hoperation : operation.Dated) : ∃ result r' d',
    ((⟨document, some r⟩ : Handle).perform now operation : StateM Disk _) d =
      ((result, ⟨document, some r'⟩), d') ∧ Mirrored document r' d' ∧
      r.Becomes now operation result r' := by
  obtain ⟨result, r', d', hrun, hr'⟩ := hr.perform hnow hoperation
  refine ⟨result, r', d', hrun, hr', ?_⟩
  cases result with
  | error e =>
      obtain ⟨hsame, -⟩ := Handle.perform_error rfl hrun
      exact Option.some_inj.mp (congrArg Handle.memory hsame)
  | ok outcome =>
      obtain ⟨working, hchange, hsame, -⟩ := Handle.exclusively_ok rfl hrun
      obtain rfl := Option.some_inj.mp (congrArg Handle.memory hsame)
      exact hchange

/-- A handle that remembers what the document holds does so after a call, and what it remembers then
follows what it remembered. -/
theorem Mirrored.respond {document : Path} {r : Registry} {d : Disk} {call : Call}
    (hr : Mirrored document r d) (hcall : call.Dated) : ∃ answer r' d',
    ((⟨document, some r⟩ : Handle).respond call : StateM Disk _) d =
      ((answer, ⟨document, some r'⟩), d') ∧ Mirrored document r' d' ∧
      r.Follows (some call) answer r' := by
  rw [Handle.respond_run]
  cases hrequest : call.request with
  | change operation =>
      obtain ⟨result, r', d', hrun, hr', hbecomes⟩ :=
        hr.perform_becomes hcall.now (hcall.operation operation hrequest)
      refine ⟨_, r', d', congrArg (Prod.map _ id) hrun, hr', ?_⟩
      cases result with
      | error e => exact .inl hbecomes
      | ok outcome => exact .inr ⟨rfl, call, rfl, operation, outcome, hrequest, hbecomes⟩
  | read => exact ⟨_, r, d, rfl, hr, .inl rfl⟩
  | reset =>
      refine ⟨.ok (), r, d, ?_, hr, .inl rfl⟩
      have hregistry := hr.registry_eq call.now
      simp only [Handle.reset_run, show (⟨document, some r⟩ : Handle).forget = Handle.fresh document
        from rfl, hregistry]
      rfl

/-- A handle that remembers nothing answers as if it remembered what the document holds. -/
theorem Handle.Reflects.respond_eq {document : Path} {h : Handle} {r : Registry} {d : Disk}
    (hr : h.Reflects document r d) (call : Call) : (h.respond call : StateM Disk _) d =
      ((⟨document, some r⟩ : Handle).respond call : StateM Disk _) d := by
  obtain ⟨document, memory⟩ := h
  obtain ⟨rfl, hmemory, hmirrored⟩ := hr
  rcases hmemory with rfl | rfl
  · exact respond_of_mirrored hmirrored call
  · rfl

/-- So it does when it performs an operation. -/
theorem Handle.Reflects.perform_eq {document : Path} {h : Handle} {r : Registry} {d : Disk}
    (hr : h.Reflects document r d) (now : Timestamp) (operation : Operation) :
    (h.perform now operation : StateM Disk _) d =
      ((⟨document, some r⟩ : Handle).perform now operation : StateM Disk _) d := by
  obtain ⟨document, memory⟩ := h
  obtain ⟨rfl, hmemory, hmirrored⟩ := hr
  rcases hmemory with rfl | rfl
  · have hregistry := hmirrored.registry_eq now
    have hremembered : ((⟨document, some r⟩ : Handle).registry now : StateM Disk _) d =
        ((.ok r, ⟨document, some r⟩), d) := rfl
    rw [fresh] at hregistry
    simp only [perform, exclusively_run, hregistry, hremembered]
  · rfl

/-- After a call the handle remembers what follows the registry on which it worked. -/
theorem Handle.Reflects.respond {document : Path} {h h' : Handle} {r : Registry} {d d' : Disk}
    {call : Call} {answer : Except RegistryError Unit} (hr : h.Reflects document r d)
    (hcall : call.Dated) (hrun : (h.respond call : StateM Disk _) d = ((answer, h'), d')) :
    ∃ r', h'.Reflects document r' d' ∧ r.Follows (some call) answer r' := by
  obtain ⟨answer', r', d'', hanswer, hr', hfollows⟩ := hr.mirrored.respond hcall
  rw [hr.respond_eq, hanswer] at hrun
  cases hrun
  exact ⟨r', ⟨rfl, .inr rfl, hr'⟩, hfollows⟩

namespace Fleet

/-! ### Histories -/

/-- The registry on which the only handle works. -/
def shown? (f : Fleet Unit) (d : Disk) : Option Registry := (f.handle ()).shown? d

/-- The handle and the disk at first, and after each of the events. -/
def moments (f : Fleet Unit) (d : Disk) : List (Event Unit) → List (Fleet Unit × Disk)
  | [] => [(f, d)]
  | event :: events =>
    let served := (f.serve event : StateM Disk _) d
    (f, d) :: served.1.2.moments served.2 events

variable {document : Path} {f f' : Fleet Unit} {d d' : Disk} {r : Registry} {event : Event Unit}
  {events : List (Event Unit)} {answer : Except RegistryError Unit}
  {answers : List (Except RegistryError Unit)} {p : ProjectId} {ps : List Project}

/-- After an event the handle works on a registry that follows the one on which it worked before. -/
theorem exists_reflects_serve (hf : (f.handle ()).Reflects document r d) (hevent : event.Dated)
    (hrun : (f.serve event : StateM Disk _) d = ((answer, f'), d')) :
    ∃ r', (f'.handle ()).Reflects document r' d' ∧ r.Follows event.call? answer r' := by
  rcases serve_cases hrun with ⟨-, rfl, rfl⟩ | ⟨call, hcall, h', hrespond, rfl⟩
  · refine ⟨r, ?_, .inl rfl⟩
    rw [handle_remember]
    exact ⟨hf.document_eq, .inl rfl, hf.mirrored⟩
  · obtain ⟨r', hr', hfollows⟩ := hf.respond (hevent call hcall) hrespond
    rw [show event.call? = some call from hcall]
    refine ⟨r', ?_, hfollows⟩
    rw [handle_remember]
    exact ⟨hf.document_eq, hr'.memory, hr'.mirrored⟩

/-- The handle that a run from the start leaves works on what the document holds. -/
theorem remembers_serveAll (hf : (f.handle ()).Remembers document (Mirrored document) d)
    (hevents : ∀ event ∈ events, event.Dated)
    (hrun : (f.serveAll events : StateM Disk _) d = ((answers, f'), d')) :
    (f'.handle ()).Remembers document (Mirrored document) d' := by
  induction events generalizing f d answers with
  | nil =>
      cases hrun
      exact hf
  | cons event events ih =>
      rw [List.forall_mem_cons] at hevents
      cases hserve : (f.serve event : StateM Disk _) d with
      | mk served d₁ =>
          obtain ⟨answer, f₁⟩ := served
          rw [serveAll_cons hserve] at hrun
          have hf₁ := remembers_serve (kept_mirrored document) hevents.1 hf hserve
          generalize hrest : (f₁.serveAll events : StateM Disk _) d₁ = served at hrun
          obtain ⟨⟨answers₁, f₂⟩, d₂⟩ := served
          cases hrun
          exact ih hf₁ hevents.2 hrest

/-- The project with an identifier in the registry on which the handle works. -/
def projectAt? (p : ProjectId) (moment : Fleet Unit × Disk) : Option Project :=
  (moment.1.shown? moment.2).bind (·.project? p)

/-- A project that is there at all moments counts what arrives. -/
theorem isChain_counts (hf : (f.handle ()).Reflects document r d)
    (hevents : ∀ event ∈ events, event.Dated)
    (hps : (f.moments d events).mapM (projectAt? p) = some ps) :
    ps.IsChain Project.Counts ∧ r.project? p = ps.head? := by
  rw [Chain.mapM_eq_some] at hps
  induction events generalizing f d r ps with
  | nil =>
      obtain _ | ⟨hproject, ⟨⟩⟩ := hps
      refine ⟨List.isChain_singleton _, ?_⟩
      rwa [projectAt?, shown?, hf.shown?_eq] at hproject
  | cons event events ih =>
      obtain _ | ⟨hproject, hrest⟩ := hps
      rw [projectAt?, shown?, hf.shown?_eq, Option.bind_some] at hproject
      rw [List.forall_mem_cons] at hevents
      obtain ⟨r', hf', hfollows⟩ := exists_reflects_serve hf hevents.1 rfl
      obtain ⟨hchain, hhead⟩ := ih hf' hevents.2 hrest
      refine ⟨List.isChain_cons.mpr ⟨?_, hchain⟩, hproject⟩
      intro project' hproject'
      rw [← hhead] at hproject'
      rcases hfollows with rfl | ⟨-, call, -, operation, outcome, -, hperform⟩
      · obtain rfl := Option.some_inj.mp (hproject.symm.trans hproject')
        exact Project.counts_refl _
      · have hr := hf.mirrored.valid
        exact (hr.counts hperform).project? hr (hr.perform hperform) hproject hproject'

end Fleet

/-- A document is worked on by one handle at a time, which is closed, opened, reset and told to change
the registry in any order, and any save may fail at any step.  While a project is in the registry, its
counter never goes back, each pointer that arrives gets the identifier that the counter shows and moves
it on by one, and no two of these pointers have the same identifier, even if one is gone before the
other arrives. -/
theorem pointerIds_never_reused {document : Path} {before between : List (Event Unit)}
    {answers : List (Except RegistryError Unit)} {f : Fleet Unit} {d d' : Disk} {p : ProjectId}
    {ps : List Project} (hbefore : ∀ event ∈ before, event.Dated)
    (hbetween : ∀ event ∈ between, event.Dated)
    (hrun : ((Fleet.idle document).serveAll before : StateM Disk _) d = ((answers, f), d'))
    (hps : (f.moments d' between).mapM (Fleet.projectAt? p) = some ps) :
    ps.IsChain Project.Counts ∧ (ps.map (·.nextPointerId.toNat)).Pairwise (· ≤ ·) ∧
      ((Project.entered ps).map Pointer.id).Nodup := by
  have hidle : ((Fleet.idle document : Fleet Unit).handle ()).Remembers document
      (Mirrored document) d := ⟨rfl, nofun⟩
  have hremembers := Fleet.remembers_serveAll hidle hbefore hrun
  obtain ⟨r, hr⟩ : ∃ r, f.shown? d' = some r := by
    obtain ⟨rest, hmoments⟩ : ∃ rest, f.moments d' between = (f, d') :: rest := by
      cases between <;> exact ⟨_, rfl⟩
    have hall := Chain.mapM_eq_some.mp hps
    rw [hmoments] at hall
    obtain _ | ⟨hfirst, -⟩ := hall
    obtain ⟨r, hr, -⟩ := Option.bind_eq_some_iff.mp hfirst
    exact ⟨r, hr⟩
  have hchain := (Fleet.isChain_counts (hremembers.reflects hr) hbetween hps).1
  exact ⟨hchain, Project.pairwise_nextPointerId hchain, Project.nodup_entered hchain⟩

/-- A pipeline is registered in the secured project, taken out and registered again; another one comes
from a project that is removed. -/
def countedEvents (now : Timestamp) : List (Event Unit) :=
  let pointer (project : ProjectId) (pipeline : PipelineId) : Operation := .createPointer
    ⟨project, pipeline, "main", .ofString "Easefile", .ofString "main.pipe", none, none, now⟩
  [pointer 0 "nightly", .deletePointer 0 0, pointer 0 "nightly", .deletePointer 0 1,
    .createGroup ⟨"team", none, none⟩, .createProject ⟨1, "build", none, none⟩,
    pointer 1 "weekly", .deleteProject 1 1 false].map fun operation =>
      .called () ⟨now, .change operation⟩

/-- A handle is opened on an empty disk. -/
def countedRun (now : Timestamp) : (List (Except RegistryError Unit) × Fleet Unit) × Disk :=
  ((Fleet.idle (.ofString "home/registry.json")).serveAll [.opened () now] : StateM Disk _) .empty

theorem pointerIds_never_reused_registered_again : ∃ now answers f d' ps,
    countedRun now = ((answers, f), d') ∧
    (f.moments d' (countedEvents now)).mapM (Fleet.projectAt? 0) = some ps ∧
    (Project.entered ps).map (fun q => (q.pipeline, q.id)) =
      [("nightly", 0), ("nightly", 1), ("weekly", 2)] ∧
    ps.IsChain Project.Counts ∧ (ps.map (·.nextPointerId.toNat)).Pairwise (· ≤ ·) ∧
    ((Project.entered ps).map Pointer.id).Nodup := by
  let now : Timestamp := ⟨⟨2024, 2, 29⟩, 720, 30, 0⟩
  have hnow : now.IsValid := by decide
  have hentered : (((countedRun now).1.2.moments (countedRun now).2 (countedEvents now)).mapM
      (Fleet.projectAt? 0)).map (fun ps => (Project.entered ps).map fun q => (q.pipeline, q.id)) =
        some [("nightly", 0), ("nightly", 1), ("weekly", 2)] := by decide +kernel
  have hopened : ∀ event ∈ [Event.opened () now], event.Dated := by
    intro event hevent call hcall
    obtain rfl := List.mem_singleton.mp hevent
    cases hcall
    exact ⟨hnow, nofun⟩
  have hevents : ∀ event ∈ countedEvents now, event.Dated := by
    intro event hevent call hcall
    obtain ⟨operation, hoperation, rfl⟩ := List.mem_map.mp hevent
    cases hcall
    refine ⟨hnow, ?_⟩
    rintro _ ⟨⟩
    simp only [List.mem_cons, List.not_mem_nil, or_false] at hoperation
    rcases hoperation with rfl | rfl | rfl | rfl | rfl | rfl | rfl | rfl
    case inl | inr.inr.inl | inr.inr.inr.inr.inr.inr.inl => exact hnow
    all_goals exact trivial
  obtain ⟨ps, hps, hnumbers⟩ := Option.map_eq_some_iff.mp hentered
  generalize hrun : countedRun now = opened at hps
  obtain ⟨⟨answers, f⟩, d'⟩ := opened
  exact ⟨now, answers, f, d', ps, hrun, hps, hnumbers,
    pointerIds_never_reused hopened hevents hrun hps⟩

end PipelineRegistry
