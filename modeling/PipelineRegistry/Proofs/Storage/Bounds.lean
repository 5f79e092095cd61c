import Mathlib
import PipelineRegistry.Proofs.Registry.Bounds
import PipelineRegistry.Proofs.Storage.Course

/-! # Identifiers do not run out

While a document is worked on by one handle at a time, no identifier is greater than the number of
entities of its kind that were created since the document was seeded.  So an operation that lacks an
identifier comes after as many creations as there are identifiers. -/

namespace PipelineRegistry

open Calendar

/-- How many entities of a kind the event creates when it succeeds. -/
def Event.creates {ι : Type} : Event ι → EntityKind → Nat
  | .called _ ⟨_, .change operation⟩, kind => operation.creates kind
  | _, _ => 0

/-- How many entities of a kind have been created by events that were answered so. -/
def created {ι : Type} : List (Event ι) → List (Except RegistryError Unit) → EntityKind → Nat
  | event :: events, answer :: answers, kind =>
    (if answer.isOk then event.creates kind else 0) + created events answers kind
  | _, _, _ => 0

theorem Event.creates_eq {ι : Type} {event : Event ι} {call : Call} {operation : Operation}
    (hcall : event.call? = some call) (hrequest : call.request = .change operation) :
    event.creates = operation.creates := by
  obtain ⟨now, request⟩ := call
  cases hrequest
  cases event with
  | opened name now => cases hcall
  | closed name => cases hcall
  | called name call =>
      cases hcall
      rfl

variable {r r' : Registry} {answer : Except RegistryError Unit} {event : Event Unit}
  {events : List (Event Unit)} {answers : List (Except RegistryError Unit)} {document : Path}
  {f f' : Fleet Unit} {d d' : Disk} {n : EntityKind → Nat} {kind : EntityKind}

/-- Bounds grow by what an event creates. -/
theorem Registry.Within.follows (h : r.Within n) (hr : r.Valid)
    (hfollows : r.Follows event.call? answer r') :
    r'.Within fun kind => n kind + if answer.isOk then event.creates kind else 0 := by
  rcases hfollows with rfl | ⟨rfl, call, hcall, operation, outcome, hrequest, hperform⟩
  · exact h.mono fun kind => Nat.le_add_right _ _
  · rw [Event.creates_eq hcall hrequest]
    exact hr.within_perform h hperform

/-- Bounds grow by what all events create, one after the other. -/
theorem Fleet.exists_within_serveAll (hf : (f.handle ()).Reflects document r d)
    (hevents : ∀ event ∈ events, event.Dated) (h : r.Within n)
    (hrun : (f.serveAll events : StateM Disk _) d = ((answers, f'), d')) :
    ∃ r', (f'.handle ()).Reflects document r' d' ∧
      r'.Within fun kind => n kind + created events answers kind := by
  induction events generalizing f d r n answers with
  | nil =>
      cases hrun
      exact ⟨r, hf, h⟩
  | cons event events ih =>
      rw [List.forall_mem_cons] at hevents
      cases hserve : (f.serve event : StateM Disk _) d with
      | mk served d₁ =>
          obtain ⟨answer, f₁⟩ := served
          rw [serveAll_cons hserve] at hrun
          obtain ⟨r₁, hf₁, hfollows⟩ := exists_reflects_serve hf hevents.1 hserve
          generalize hrest : (f₁.serveAll events : StateM Disk _) d₁ = served at hrun
          obtain ⟨⟨answers₁, f₂⟩, d₂⟩ := served
          cases hrun
          obtain ⟨r', hf', h'⟩ := ih hf₁ hevents.2 (h.follows hf.mirrored.valid hfollows) hrest
          refine ⟨r', hf', h'.mono fun kind => ?_⟩
          simp only [created]
          omega

/-- Where an identifier is lacking, it is the operation that lacks it. -/
theorem Handle.Reflects.exists_perform_idsExhausted {h h' : Handle} {call : Call}
    (hr : h.Reflects document r d) (hrun : (h.respond call : StateM Disk _) d =
      ((.error (.idsExhausted kind), h'), d')) :
    ∃ operation : Operation, operation.perform call.now r = .error (.idsExhausted kind) := by
  rw [hr.respond_eq, respond_run] at hrun
  cases hrequest : call.request with
  | change operation =>
      simp only [hrequest] at hrun
      generalize hperform : ((⟨document, some r⟩ : Handle).perform call.now operation :
        StateM Disk _) d = served at hrun
      obtain ⟨⟨result, h''⟩, d''⟩ := served
      cases result with
      | ok outcome => cases hrun
      | error e =>
          cases hrun
          refine ⟨operation, ?_⟩
          rcases exclusively_cases rfl hperform with ⟨e, hchange, ⟨⟩, -⟩ | ⟨_, working, -, hdone⟩
          · exact hchange
          · rcases hdone with ⟨e, hcommit, ⟨⟩, -⟩ | ⟨-, ⟨⟩, -⟩
            rcases Storage.save_error (save_of_commit_error hcommit) with ⟨p, cause, he⟩ | he <;>
              cases he
  | read =>
      rw [hrequest] at hrun
      cases hrun
  | reset =>
      have hregistry := hr.mirrored.registry_eq call.now
      rw [hrequest] at hrun
      simp only [reset_run, show (⟨document, some r⟩ : Handle).forget = fresh document from rfl,
        hregistry] at hrun
      cases hrun

theorem Fleet.serve_ne_idsExhausted (hf : (f.handle ()).Reflects document r d) (h : r.Within n)
    (hroom : n kind < UInt64.size - 1) (event : Event Unit) :
    ((f.serve event : StateM Disk _) d).1.1 ≠ .error (.idsExhausted kind) := by
  intro hanswer
  generalize hserve : (f.serve event : StateM Disk _) d = served at hanswer
  obtain ⟨⟨answer, f'⟩, d'⟩ := served
  obtain rfl : answer = .error (.idsExhausted kind) := hanswer
  rcases serve_cases hserve with ⟨hclosed, -⟩ | ⟨call, -, h', hrespond, -⟩
  · cases event with
    | closed name => cases hserve
    | opened name now => cases hclosed
    | called name call => cases hclosed
  · obtain ⟨operation, hperform⟩ := hf.exists_perform_idsExhausted hrespond
    exact h.perform_ne_idsExhausted hf.mirrored.valid hroom call.now operation hperform

/-- A document that has just been seeded is worked on by one handle at a time, with operations that
succeed or fail, resets and reopenings in any order.  At any time no group and no project has a greater
identifier than groups and projects have been created, no counter has gone beyond the pointers that have
been created, and no operation lacks an identifier of a kind of which fewer entities have been created
than there are identifiers beside the first. -/
theorem ids_do_not_run_out {before : List (Event Unit)} {answers₀ : List (Except RegistryError Unit)}
    {f₀ : Fleet Unit} {d₀ : Disk} {seeding : Timestamp}
    (hbefore : ∀ event ∈ before, event.Dated) (hevents : ∀ event ∈ events, event.Dated)
    (hrun₀ : ((Fleet.idle document).serveAll before : StateM Disk _) d = ((answers₀, f₀), d₀))
    (hseeded : f₀.shown? d₀ = some (.initial seeding))
    (hrun : (f₀.serveAll events : StateM Disk _) d₀ = ((answers, f), d')) :
    ∃ r, f.shown? d' = some r ∧
      (∀ group ∈ r.groups.toList, group.id.toNat ≤ created events answers .group) ∧
      (∀ project ∈ r.projects, project.id.toNat ≤ created events answers .project ∧
        project.nextPointerId.toNat ≤ created events answers .pointer) ∧
      ∀ event kind, created events answers kind < UInt64.size - 1 →
        ((f.serve event : StateM Disk _) d').1.1 ≠ .error (.idsExhausted kind) := by
  have hidle : ((Fleet.idle document : Fleet Unit).handle ()).Remembers document
      (Mirrored document) d := ⟨rfl, nofun⟩
  have hf₀ := (Fleet.remembers_serveAll hidle hbefore hrun₀).reflects hseeded
  obtain ⟨r, hf, h⟩ :=
    Fleet.exists_within_serveAll hf₀ hevents (Registry.within_initial seeding) hrun
  simp only [Nat.zero_add] at h
  refine ⟨r, hf.shown?_eq, ?_, ?_, ?_⟩
  · intro group hgroup
    exact h.groups.toNat_le _ (Listing.mem_keys.mpr ⟨group, hgroup, rfl⟩)
  · intro project hproject
    exact ⟨h.projects.toNat_le _ (List.mem_map_of_mem hproject), h.counters project hproject⟩
  · intro event kind hroom
    exact Fleet.serve_ne_idsExhausted hf h hroom event

/-- A pointer comes to the secured project with a soft removal, and another one is registered there; in
between an operation fails. -/
def restlessEvents (now : Timestamp) : List (Event Unit) :=
  let pointer (project : ProjectId) (pipeline : PipelineId) : Operation := .createPointer
    ⟨project, pipeline, pipeline, .ofString "Easefile", .ofString "main.pipe", none, none, now⟩
  [.createGroup ⟨"team", none, none⟩, .createGroup ⟨"team", none, none⟩,
    .createProject ⟨1, "build", none, none⟩, pointer 1 "weekly", .deleteProject 1 1 false,
    pointer 0 "nightly"].map fun operation => .called () ⟨now, .change operation⟩

/-- A handle is opened on an empty disk and goes through these events. -/
def restlessRun (now : Timestamp) : (List (Except RegistryError Unit) × Fleet Unit) × Disk :=
  ((countedRun now).1.2.serveAll (restlessEvents now) : StateM Disk _) (countedRun now).2

theorem ids_do_not_run_out_restless : ∃ now answers₀ f₀ d₀ answers f d' r,
    countedRun now = ((answers₀, f₀), d₀) ∧ f₀.shown? d₀ = some (.initial now) ∧
    (f₀.serveAll (restlessEvents now) : StateM Disk _) d₀ = ((answers, f), d') ∧
    answers.map Except.isOk = [true, false, true, true, true, true] ∧
    f.shown? d' = some r ∧ (r.project? 0).map (·.nextPointerId) = some 2 ∧
    (∀ project ∈ r.projects, project.nextPointerId.toNat ≤ 2) ∧
    ∀ event, ((f.serve event : StateM Disk _) d').1.1 ≠ .error (.idsExhausted .pointer) := by
  let now : Timestamp := ⟨⟨2024, 2, 29⟩, 720, 30, 0⟩
  have hopened : ∀ event ∈ [Event.opened () now], event.Dated := by decide +kernel
  have hevents : ∀ event ∈ restlessEvents now, event.Dated := by decide +kernel
  have hseeded : (countedRun now).1.2.shown? (countedRun now).2 = some (.initial now) := by
    decide +kernel
  have hanswers : (restlessRun now).1.1.map Except.isOk =
      [true, false, true, true, true, true] := by decide +kernel
  have hcreated : created (restlessEvents now) (restlessRun now).1.1 .pointer = 2 := by
    decide +kernel
  have hcounter : ((restlessRun now).1.2.shown? (restlessRun now).2).bind
      (fun r => (r.project? 0).map (·.nextPointerId)) = some 2 := by decide +kernel
  generalize hrun : restlessRun now = ended at hanswers hcreated hcounter
  obtain ⟨⟨answers, f⟩, d'⟩ := ended
  rw [restlessRun] at hrun
  generalize hrun₀ : countedRun now = opened at hseeded hrun
  obtain ⟨⟨answers₀, f₀⟩, d₀⟩ := opened
  obtain ⟨r, hr, -, hprojects, hroom⟩ := ids_do_not_run_out hopened hevents hrun₀ hseeded hrun
  simp only [hcreated] at hprojects
  rw [hr, Option.bind_some] at hcounter
  refine ⟨now, answers₀, f₀, d₀, answers, f, d', r, hrun₀, hseeded, hrun, hanswers, hr, hcounter,
    ?_, ?_⟩
  · exact fun project hproject => (hprojects project hproject).2
  · exact fun event => hroom event .pointer (by rw [hcreated]; decide)

end PipelineRegistry
