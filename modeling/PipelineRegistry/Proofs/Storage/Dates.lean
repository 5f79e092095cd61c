import Mathlib
import PipelineRegistry.Proofs.Registry.Dates
import PipelineRegistry.Proofs.Storage.Course

/-! # Dates along a run

A run begins when the registry is opened, and goes on with operations that succeed or fail, reads,
resets, and the closing and opening of the handle.  Of all these only the operations that succeed are
deeds, and the deeds lead from the registry at one moment to that at any later one.  So the dates at the
later moment are told by the deeds in between. -/

namespace PipelineRegistry

open Calendar Storage

namespace Fleet

/-- The deed that comes of an event, if it is an operation that succeeds. -/
def deed? (f : Fleet Unit) (d : Disk) : Event Unit → Option Deed
  | .called _ ⟨now, .change operation⟩ =>
    (((f.handle ()).perform now operation : StateM Disk _) d).1.1.toOption.map (Deed.mk now operation)
  | _ => none

/-- The deeds that come of events, one after the other. -/
def deeds (f : Fleet Unit) (d : Disk) : List (Event Unit) → List Deed
  | [] => []
  | event :: events =>
    let served := (f.serve event : StateM Disk _) d
    (f.deed? d event).toList ++ served.1.2.deeds served.2 events

end Fleet

variable {document : Path} {r : Registry} {f f' : Fleet Unit} {d d' : Disk}
  {event : Event Unit} {events : List (Event Unit)} {answer : Except RegistryError Unit}
  {answers : List (Except RegistryError Unit)}

namespace Fleet

/-- The deed of an event, if there is one, leads to the registry on which the handle works then. -/
theorem exists_leads_serve (hf : (f.handle ()).Reflects document r d) (hevent : event.Dated)
    (hrun : (f.serve event : StateM Disk _) d = ((answer, f'), d')) :
    ∃ r', (f'.handle ()).Reflects document r' d' ∧ r.Leads (f.deed? d event).toList r' := by
  -- without an operation the registry stays as it is
  have hstill : (∀ call ∈ event.call?, ∀ operation, call.request ≠ .change operation) →
      f.deed? d event = none →
      ∃ r', (f'.handle ()).Reflects document r' d' ∧ r.Leads (f.deed? d event).toList r' := by
    intro hno hdeed
    obtain ⟨r', hr', hfollows⟩ := exists_reflects_serve hf hevent hrun
    refine ⟨r', hr', ?_⟩
    rw [hdeed]
    rcases hfollows with hsame | ⟨-, call, hcall, operation, -, hrequest, -⟩
    · exact hsame
    · exact absurd hrequest (hno call hcall operation)
  cases event with
  | opened name now =>
      refine hstill ?_ rfl
      rintro _ ⟨⟩ operation ⟨⟩
  | closed name => exact hstill nofun rfl
  | called name call =>
      obtain ⟨now, request⟩ := call
      cases request with
      | read =>
          refine hstill ?_ rfl
          rintro _ ⟨⟩ operation ⟨⟩
      | reset =>
          refine hstill ?_ rfl
          rintro _ ⟨⟩ operation ⟨⟩
      | change operation =>
          have hcall := hevent _ rfl
          obtain ⟨result, r', d₁, hperform, hr', hbecomes⟩ :=
            hf.mirrored.perform_becomes hcall.now (hcall.operation operation rfl)
          rw [serve_called, Handle.respond_run] at hrun
          simp only [show f.handle name = f.handle () from rfl, hf.perform_eq, hperform] at hrun
          cases hrun
          have hdeed : f.deed? d (.called name ⟨now, .change operation⟩) =
              result.toOption.map (Deed.mk now operation) := by
            rw [deed?, hf.perform_eq, hperform]
          refine ⟨r', ?_, ?_⟩
          · rw [handle_remember]
            exact ⟨hf.document_eq, .inr rfl, hr'⟩
          · rw [hdeed]
            cases result with
            | error e => exact hbecomes
            | ok outcome => exact ⟨r', hbecomes, rfl⟩

/-- The deeds of events lead from the registry on which the handle works first to that on which it works
last. -/
theorem exists_leads_serveAll (hf : (f.handle ()).Reflects document r d)
    (hevents : ∀ event ∈ events, event.Dated)
    (hrun : (f.serveAll events : StateM Disk _) d = ((answers, f'), d')) :
    ∃ r', (f'.handle ()).Reflects document r' d' ∧ r.Leads (f.deeds d events) r' := by
  induction events generalizing f d r answers with
  | nil =>
      cases hrun
      exact ⟨r, hf, rfl⟩
  | cons event events ih =>
      rw [List.forall_mem_cons] at hevents
      cases hserve : (f.serve event : StateM Disk _) d with
      | mk served d₁ =>
          obtain ⟨answer, f₁⟩ := served
          rw [serveAll_cons hserve] at hrun
          obtain ⟨r₁, hf₁, hfirst⟩ := exists_leads_serve hf hevents.1 hserve
          generalize hrest : (f₁.serveAll events : StateM Disk _) d₁ = served at hrun
          obtain ⟨⟨answers₁, f₂⟩, d₂⟩ := served
          cases hrun
          obtain ⟨r', hf', hrest⟩ := ih hf₁ hevents.2 hrest
          refine ⟨r', hf', ?_⟩
          simp only [deeds, hserve]
          exact hfirst.append hrest

/-- A handle that has been opened works on the registry that was in the document, or on the first
registry where there was no document. -/
theorem exists_reflects_opened {now : Timestamp} (hnow : now.IsValid)
    (hopen : ((Fleet.idle document : Fleet Unit).serve (.opened () now) : StateM Disk _) d =
      ((.ok (), f), d')) : ∃ r, (f.handle ()).Reflects document r d' ∧
      if d.isPresent document then (load document : StateM Disk _) d = (.ok r, d)
      else r = .initial now := by
  have hopened : ∀ call ∈ (Event.opened () now).call?, Call.Dated call := by
    intro call hcall
    cases hcall
    exact ⟨hnow, nofun⟩
  have hidle : ((Fleet.idle document : Fleet Unit).handle ()).Remembers document
      (Mirrored document) d := ⟨rfl, nofun⟩
  have hremembers := remembers_serve (kept_mirrored document) hopened hidle hopen
  simp only [serve, bind_run, Handle.openAt_run, Handle.registry_run, Handle.fresh, idle] at hopen
  generalize hload : (loadOrSeed now document : StateM Disk _) d = loaded at hopen
  obtain ⟨_ | r, d₁⟩ := loaded
  · cases hopen
  · cases hopen
    refine ⟨r, ⟨rfl, .inr rfl, hremembers.memory r rfl⟩, ?_⟩
    rw [loadOrSeed_run] at hload
    split at hload
    · rename_i hpresent
      rw [if_pos hpresent]
      rw [load_run] at hload ⊢
      exact Prod.ext (Prod.mk.inj hload).1 rfl
    · rename_i habsent
      rw [if_neg habsent]
      split at hload
      · cases hload
      · cases hload
        rfl

end Fleet

/-- A document that is accepted, or that is not there and is seeded, is worked on by one handle at a
time, with operations that succeed or fail, resets and reopenings in any order.  At any moment, and so
also between any two moments, the dates of all groups, projects and registered pipelines tell what the
operations that have succeeded since have done to them. -/
theorem dates_tell_history {now : Timestamp} {before : List (Event Unit)} {f₀ f₁ : Fleet Unit}
    {d₀ d₁ : Disk} {answers₀ : List (Except RegistryError Unit)} (hnow : now.IsValid)
    (hbefore : ∀ event ∈ before, event.Dated) (hevents : ∀ event ∈ events, event.Dated)
    (hopen : ((Fleet.idle document : Fleet Unit).serve (.opened () now) : StateM Disk _) d =
      ((.ok (), f₀), d₀))
    (hrun₀ : (f₀.serveAll before : StateM Disk _) d₀ = ((answers₀, f₁), d₁))
    (hrun : (f₁.serveAll events : StateM Disk _) d₁ = ((answers, f), d')) :
    ∃ r₀ r₁ r, f₀.shown? d₀ = some r₀ ∧ f₁.shown? d₁ = some r₁ ∧ f.shown? d' = some r ∧
      (if d.isPresent document then (load document : StateM Disk _) d = (.ok r₀, d)
        else r₀ = .initial now) ∧
      r₀.Chronicles (f₀.deeds d₀ before) r₁ ∧ r₁.Chronicles (f₁.deeds d₁ events) r ∧
      r₀.Chronicles (f₀.deeds d₀ before ++ f₁.deeds d₁ events) r := by
  obtain ⟨r₀, hf₀, hfirst⟩ := Fleet.exists_reflects_opened hnow hopen
  obtain ⟨r₁, hf₁, hleads₀⟩ := Fleet.exists_leads_serveAll hf₀ hbefore hrun₀
  obtain ⟨r, hf, hleads⟩ := Fleet.exists_leads_serveAll hf₁ hevents hrun
  have hvalid₀ := hf₀.mirrored.valid
  exact ⟨r₀, r₁, r, hf₀.shown?_eq, hf₁.shown?_eq, hf.shown?_eq, hfirst, hvalid₀.chronicles hleads₀,
    hf₁.mirrored.valid.chronicles hleads, hvalid₀.chronicles (hleads₀.append hleads)⟩

/-- Some minutes after the start of a leap day. -/
def leapDay (minute : Nat) : Timestamp := ⟨⟨2024, 2, 29⟩, minute, 0, 0⟩

/-- A handle is opened on an empty disk. -/
def openedOnLeapDay : (Except RegistryError Unit × Fleet Unit) × Disk :=
  ((Fleet.idle (.ofString "home/registry.json")).serve (.opened () (leapDay 0)) :
    StateM Disk _) .empty

/-- A project with a pipeline is described. -/
def describingEvents : List (Event Unit) :=
  [.called () ⟨leapDay 1, .change (.createGroup ⟨"team", none, none⟩)⟩,
    .called () ⟨leapDay 2, .change (.createProject ⟨1, "build", none, none⟩)⟩,
    .called () ⟨leapDay 3, .change (.createPointer ⟨1, "nightly", "main", .ofString "Easefile",
      .ofString "main.pipe", none, none, leapDay 90⟩)⟩,
    .called () ⟨leapDay 4, .change (.editProject 1 (.describe "of the team"))⟩]

/-- The project moves when its group is removed, a creation fails, and the group that gets the project is
described. -/
def movingEvents : List (Event Unit) :=
  [.called () ⟨leapDay 5, .change (.deleteGroup 1 false)⟩,
    .called () ⟨leapDay 6, .change (.createProject ⟨1, "tests", none, none⟩)⟩,
    .called () ⟨leapDay 7, .change (.editGroup 0 (.describe "the rest"))⟩]

/-- The handle describes the project. -/
def describingRun : (List (Except RegistryError Unit) × Fleet Unit) × Disk :=
  (openedOnLeapDay.1.2.serveAll describingEvents : StateM Disk _) openedOnLeapDay.2

/-- The handle then moves the project. -/
def movingRun : (List (Except RegistryError Unit) × Fleet Unit) × Disk :=
  (describingRun.1.2.serveAll movingEvents : StateM Disk _) describingRun.2

theorem dates_tell_history_moved : ∃ f₀ d₀ answers₀ f₁ d₁ answers f d' r₁ r,
    openedOnLeapDay = ((.ok (), f₀), d₀) ∧ describingRun = ((answers₀, f₁), d₁) ∧
    movingRun = ((answers, f), d') ∧
    answers.map Except.isOk = [true, false, true] ∧ f.shown? d' = some r ∧
    r.dates? (.project 1) = some ⟨leapDay 2, some (leapDay 4)⟩ ∧
    r.dates? (.group 0) = some ⟨leapDay 0, some (leapDay 7)⟩ ∧
    r.dates? (.pipeline "nightly") = some ⟨leapDay 90, none⟩ ∧
    (Registry.initial (leapDay 0)).Chronicles (f₀.deeds d₀ describingEvents) r₁ ∧
    r₁.Chronicles (f₁.deeds d₁ movingEvents) r := by
  have hdescribing : ∀ event ∈ describingEvents, event.Dated := by decide +kernel
  have hmoving : ∀ event ∈ movingEvents, event.Dated := by decide +kernel
  have hopened : openedOnLeapDay.1.1 = .ok () := by decide +kernel
  have habsent : Disk.empty.isPresent (.ofString "home/registry.json") = false := by
    decide +kernel
  have hanswers : movingRun.1.1.map Except.isOk = [true, false, true] := by
    decide +kernel
  have hdates : (movingRun.1.2.shown? movingRun.2).map (fun r => (r.dates? (.project 1),
      r.dates? (.group 0), r.dates? (.pipeline "nightly"))) =
        some (some ⟨leapDay 2, some (leapDay 4)⟩, some ⟨leapDay 0, some (leapDay 7)⟩,
          some ⟨leapDay 90, none⟩) := by decide +kernel
  generalize hrun : movingRun = moved at hanswers hdates
  obtain ⟨⟨answers, f⟩, d'⟩ := moved
  generalize hrun₁ : describingRun = described
  obtain ⟨⟨answers₀, f₁⟩, d₁⟩ := described
  generalize hrun₀ : openedOnLeapDay = opened at hopened
  obtain ⟨⟨_, f₀⟩, d₀⟩ := opened
  obtain rfl : _ = Except.ok () := hopened
  have hmoved := hrun
  have hdescribed := hrun₁
  have hfirst := hrun₀
  rw [movingRun, hrun₁] at hmoved
  rw [describingRun, hrun₀] at hdescribed
  rw [openedOnLeapDay] at hfirst
  obtain ⟨r₀, r₁, r, -, -, hr, hseeded, hbefore, hafter, -⟩ :=
    dates_tell_history (by decide) hdescribing hmoving hfirst hdescribed hmoved
  rw [habsent, if_neg Bool.false_ne_true] at hseeded
  subst hseeded
  rw [hr, Option.map_some] at hdates
  obtain ⟨hproject, hdates⟩ := Prod.mk.inj (Option.some_inj.mp hdates)
  obtain ⟨hgroup, hpipeline⟩ := Prod.mk.inj hdates
  exact ⟨f₀, d₀, answers₀, f₁, d₁, answers, f, d', r₁, r, rfl, rfl, rfl, hanswers, hr, hproject,
    hgroup, hpipeline, hbefore, hafter⟩

end PipelineRegistry
