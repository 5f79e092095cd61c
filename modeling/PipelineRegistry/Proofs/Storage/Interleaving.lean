import Mathlib
import PipelineRegistry.Proofs.Storage.Failure
import PipelineRegistry.Proofs.Storage.Fleet
import PipelineRegistry.Proofs.Storage.Validity

/-! # Handles that work on one document in turn

Handles with memories of their own overwrite what others have saved, but none of them ever saves
anything else than a registry of its own that keeps all rules.  So after any interleaving the document
is the one that was saved last, whole, or the one that was there at first (`Saves`), and `Logged` tells
whose it is.

A save that fails makes directories, and a path with `..` may come to lead somewhere by them.  This is
why a document that is absent at first is looked for through directories that are there. -/

namespace PipelineRegistry

open Calendar Storage

/-! ### Saves in a row -/

namespace Storage

variable {document : Path} {d d₁ d' : Disk} {r : Registry} {rs rs' : List Registry}
  {e : RegistryError} {now : Timestamp}

/-- Saves lead from one disk to another; those that succeed save the listed registries. -/
inductive Saves (document : Path) : Disk → List Registry → Disk → Prop
  | nil {d : Disk} : Saves document d [] d
  | failed {r : Registry} {e : RegistryError} {rs : List Registry} {d d₁ d' : Disk} :
      (save document r : StateM Disk _) d = (.error e, d₁) → Saves document d₁ rs d' →
      Saves document d rs d'
  | saved {r : Registry} {rs : List Registry} {d d₁ d' : Disk} :
      (save document r : StateM Disk _) d = (.ok (), d₁) → Saves document d₁ rs d' →
      Saves document d (r :: rs) d'

theorem Saves.trans (h : Saves document d rs d₁) (h' : Saves document d₁ rs' d') :
    Saves document d (rs ++ rs') d' := by
  induction h with
  | nil => exact h'
  | failed hsave _ ih => exact .failed hsave (ih h')
  | saved hsave _ ih => exact .saved hsave (ih h')

/-- The same is found at the path, or nothing is found there as before. -/
structure Unchanged (document : Path) (d d' : Disk) : Prop where
  read : (d'.read document).toOption = (d.read document).toOption
  isPresent : d'.isPresent document = d.isPresent document

theorem Unchanged.read_eq (h : Unchanged document d d') (content : ByteArray)
    (hread : d.read document = .ok content) : d'.read document = .ok content := by
  rw [← Chain.toOption_eq_some] at hread ⊢
  exact h.read.trans hread

/-- A failed save has no bearing on what is found at the path: there is a document, or the path climbs
only from directories that are there. -/
def Settled (document : Path) (d : Disk) : Prop :=
  (∃ content, d.read document = .ok content) ∨ d.IsTree ∧ d.ClimbsFromDirectories document

theorem Settled.save_error (h : Settled document d)
    (hsave : (save document r : StateM Disk _) d = (.error e, d')) :
    Settled document d' ∧ Unchanged document d d' := by
  obtain ⟨hread, hmissing⟩ := document_of_save_error hsave
  rcases h with ⟨content, hcontent⟩ | ⟨htree, hclimbs⟩
  · have hcontent' := hread content hcontent
    refine ⟨.inl ⟨content, hcontent'⟩, ⟨by rw [hcontent', hcontent], ?_⟩⟩
    rw [Disk.isPresent_of_read hcontent', Disk.isPresent_of_read hcontent]
  · have htree' := isTree_save htree document r
    rw [hsave] at htree'
    obtain ⟨hsame, hpresent⟩ := hmissing htree hclimbs
    exact ⟨.inr ⟨htree', (save_error_keeps hsave).climbs hclimbs⟩, ⟨hsame, hpresent⟩⟩

/-- Without a save that succeeds the document is as it was. -/
theorem Saves.unchanged (h : Saves document d [] d') (hd : Settled document d) :
    Unchanged document d d' := by
  generalize hrs : ([] : List Registry) = rs at h
  induction h with
  | nil => exact ⟨rfl, rfl⟩
  | failed hsave _ ih =>
      obtain ⟨hd₁, hsame⟩ := hd.save_error hsave
      obtain ⟨hread, hpresent⟩ := ih hd₁ hrs
      exact ⟨hread.trans hsame.read, hpresent.trans hsame.isPresent⟩
  | saved => cases hrs

/-- The document is the written form of the registry that was saved last. -/
theorem Saves.read_of_getLast? (h : Saves document d rs d') (hr : rs.getLast? = some r) :
    ∃ text, r.render? = some text ∧ d'.read document = .ok text.toUTF8 := by
  induction h with
  | nil => cases hr
  | failed _ _ ih => exact ih hr
  | @saved r₁ rs d d₁ d' hsave hrest ih =>
      cases hlast : rs.getLast? with
      | some last =>
          rw [List.getLast?_cons, hlast] at hr
          cases hr
          exact ih hlast
      | none =>
          rw [List.getLast?_cons, hlast] at hr
          cases hr
          obtain ⟨text, hrender, hread⟩ := read_of_save_ok hsave
          obtain rfl := List.getLast?_eq_none_iff.mp hlast
          have hsame := hrest.unchanged (.inl ⟨_, hread⟩)
          exact ⟨text, hrender, hsame.read_eq _ hread⟩

/-- Reading a registry saves the first one, or nothing. -/
theorem loadOrSeed_saves {result : Except RegistryError Registry}
    (h : (loadOrSeed now document : StateM Disk _) d = (result, d')) :
    ∃ saved, Saves document d saved d' ∧ ∀ r ∈ saved.getLast?, result = .ok r := by
  rw [loadOrSeed_run, load_run] at h
  split at h
  · cases h
    exact ⟨[], .nil, nofun⟩
  · split at h
    · rename_i hsave
      cases h
      exact ⟨[], .failed hsave .nil, nofun⟩
    · rename_i hsave
      cases h
      refine ⟨[.initial now], .saved hsave .nil, ?_⟩
      rintro r ⟨⟩
      rfl

end Storage

/-! ### One handle -/

namespace Handle

variable {h h' : Handle} {d d' : Disk} {now : Timestamp} {saved : List Registry}

/-- The handle saves registries; what it saves last it remembers. -/
structure Writes (h : Handle) (d : Disk) (saved : List Registry) (h' : Handle) (d' : Disk) : Prop where
  saves : Saves h.document d saved d'
  last : ∀ r ∈ saved.getLast?, h'.memory = some r

theorem registry_writes {result : Except RegistryError Registry}
    (hrun : (h.registry now : StateM Disk _) d = ((result, h'), d')) :
    h'.document = h.document ∧ ∃ saved, h.Writes d saved h' d' := by
  rw [registry_run] at hrun
  split at hrun
  · cases hrun
    exact ⟨rfl, [], .nil, nofun⟩
  · split at hrun
    · rename_i r d₁ hloaded
      cases hrun
      obtain ⟨saved, hsaves, hlast⟩ := loadOrSeed_saves hloaded
      exact ⟨rfl, saved, hsaves, fun r' hr' => congrArg Except.toOption (hlast r' hr')⟩
    · rename_i e d₁ hloaded
      cases hrun
      obtain ⟨saved, hsaves, hlast⟩ := loadOrSeed_saves hloaded
      refine ⟨rfl, saved, hsaves, ?_⟩
      intro r hr
      cases hlast r hr

theorem perform_writes {operation : Operation} {result : Except RegistryError Outcome}
    (hvalid : ∀ r ∈ h.memory, r.Valid)
    (hrun : (h.perform now operation : StateM Disk _) d = ((result, h'), d')) :
    ∃ saved, h.Writes d saved h' d' := by
  rw [perform, exclusively_run] at hrun
  split at hrun
  · rename_i hregistry
    cases hrun
    exact (registry_writes hregistry).2
  · rename_i current h₁ d₁ hregistry
    obtain ⟨hdocument, saved, hsaves, hlast⟩ := registry_writes hregistry
    obtain ⟨call, rfl⟩ : ∃ call : Call, call.now = now := ⟨⟨now, .read⟩, rfl⟩
    obtain ⟨hremembers, hmemory⟩ :=
      (kept_valid h.document).registry trivial ⟨rfl, hvalid⟩ hregistry
    have hmemory := hmemory current rfl
    split at hrun
    · cases hrun
      exact ⟨saved, hsaves, hlast⟩
    · rename_i outcome working hchange
      split at hrun
      · rename_i hcommit
        cases hrun
        unfold commit at hcommit
        split at hcommit
        · cases hcommit
        · rw [hdocument] at hcommit
          have hall := hsaves.trans (.failed hcommit .nil)
          rw [List.append_nil] at hall
          exact ⟨saved, hall, hlast⟩
      · rename_i hcommit
        cases hrun
        unfold commit at hcommit
        split at hcommit
        · -- nothing is saved, because nothing has changed
          rename_i hagrees
          cases hcommit
          have hsame := (hremembers.memory current hmemory).eq_of_agrees hchange hagrees
          refine ⟨saved, hsaves, ?_⟩
          intro r hr
          rw [hsame]
          exact hmemory.symm.trans (hlast r hr)
        · rw [hdocument] at hcommit
          refine ⟨saved ++ [working], hsaves.trans (.saved hcommit .nil), ?_⟩
          intro r hr
          rw [List.getLast?_concat] at hr
          exact hr

theorem respond_writes {call : Call} {answer : Except RegistryError Unit}
    (hvalid : ∀ r ∈ h.memory, r.Valid)
    (hrun : (h.respond call : StateM Disk _) d = ((answer, h'), d')) :
    ∃ saved, h.Writes d saved h' d' := by
  rw [respond_run] at hrun
  cases hrequest : call.request with
  | change operation =>
      simp only [hrequest] at hrun
      generalize hperform : (h.perform call.now operation : StateM Disk _) d = performed at hrun
      cases hrun
      exact perform_writes hvalid hperform
  | read =>
      simp only [hrequest] at hrun
      generalize hregistry : (h.registry call.now : StateM Disk _) d = found at hrun
      cases hrun
      exact (registry_writes hregistry).2
  | reset =>
      simp only [hrequest, reset_run] at hrun
      generalize hregistry : (h.forget.registry call.now : StateM Disk _) d = found at hrun
      cases hrun
      obtain ⟨saved, hsaves, hlast⟩ := (registry_writes hregistry).2
      exact ⟨saved, hsaves, hlast⟩

end Handle

/-! ### All handles -/

/-- Whatever is remembered keeps all rules and has dates there are. -/
theorem kept_valid_dated (document : Path) :
    Kept document Call.Dated fun r _ => r.Valid ∧ r.Dated where
  load := fun hread hr =>
    have hmirrored := (kept_mirrored document).load hread hr
    ⟨hmirrored.valid, hmirrored.dated⟩
  seed := fun hcall _ => ⟨Registry.valid_initial _, Registry.dated_initial hcall.now⟩
  commit := fun hcall hrequest hcurrent hperform _ =>
    ⟨hcurrent.1.perform hperform,
      hcurrent.2.perform hcall.now (hcall.operation _ hrequest) hperform⟩
  failure := fun _ _ hcurrent _ _ => hcurrent

namespace Fleet

variable {ι : Type} [DecidableEq ι] {document : Path} {f f₁ f' : Fleet ι} {d d₁ d' : Disk}
  {event : Event ι} {events : List (Event ι)} {answer : Except RegistryError Unit}
  {answers : List (Except RegistryError Unit)} {log : List (ι × Registry)}

/-- Events lead from one state to another; `log` lists what was saved and by the handle of which name.
At the end of an event the handle remembers what it has saved last. -/
inductive Logged : Fleet ι → Disk → List (Event ι) → List (ι × Registry) → Fleet ι → Disk → Prop
  | nil {f : Fleet ι} {d : Disk} : Logged f d [] [] f d
  | cons {event : Event ι} {events : List (Event ι)} {answer : Except RegistryError Unit}
      {saved : List Registry} {log : List (ι × Registry)} {f f₁ f' : Fleet ι} {d d₁ d' : Disk} :
      (f.serve event : StateM Disk _) d = ((answer, f₁), d₁) → Saves f.document d saved d₁ →
      (∀ r ∈ saved.getLast?, f₁.memory event.name = some r) → Logged f₁ d₁ events log f' d' →
      Logged f d (event :: events) (saved.map (Prod.mk event.name) ++ log) f' d'

theorem Logged.saves (h : Logged f d events log f' d') :
    Saves f.document d (log.map Prod.snd) d' := by
  induction h with
  | nil => exact .nil
  | cons hrun hsaves _ _ ih =>
      rw [document_serve hrun] at ih
      simpa using hsaves.trans ih

/-- A handle that does something saves what it remembers. -/
theorem exists_saves (hvalid : ∀ r ∈ f.memory event.name, r.Valid)
    (hrun : (f.serve event : StateM Disk _) d = ((answer, f'), d')) :
    ∃ saved, Saves f.document d saved d' ∧ ∀ r ∈ saved.getLast?, f'.memory event.name = some r := by
  rcases serve_cases hrun with ⟨-, rfl, rfl⟩ | ⟨call, -, h', hrespond, rfl⟩
  · exact ⟨[], .nil, nofun⟩
  · obtain ⟨saved, hsaves, hlast⟩ := Handle.respond_writes hvalid hrespond
    refine ⟨saved, hsaves, ?_⟩
    rwa [memory_remember]

/-- All that handles of a document remember keeps the rules. -/
structure Sound (f : Fleet ι) (document : Path) : Prop where
  document_eq : f.document = document
  memory : ∀ name, ∀ r ∈ f.memory name, r.Valid ∧ r.Dated

theorem Sound.serve (hf : f.Sound document) (hevent : event.Dated)
    (hrun : (f.serve event : StateM Disk _) d = ((answer, f'), d')) : f'.Sound document :=
  ⟨(document_serve hrun).trans hf.document_eq,
    forall_memory_serve (kept_valid_dated document) hevent hf.document_eq hf.memory hrun⟩

/-- After any events there is a log, and the registry that was saved last keeps the rules. -/
theorem Sound.serveAll (hf : f.Sound document) (hevents : ∀ event ∈ events, event.Dated)
    (hrun : (f.serveAll events : StateM Disk _) d = ((answers, f'), d')) :
    f'.Sound document ∧ ∃ log, Logged f d events log f' d' ∧
      ∀ saved ∈ log.getLast?, saved.2.Valid ∧ saved.2.Dated := by
  induction events generalizing f d answers with
  | nil =>
      cases hrun
      exact ⟨hf, [], .nil, nofun⟩
  | cons event events ih =>
      rw [List.forall_mem_cons] at hevents
      cases hserve : (f.serve event : StateM Disk _) d with
      | mk served d₁ =>
          obtain ⟨answer, f₁⟩ := served
          rw [serveAll_cons hserve] at hrun
          obtain ⟨saved, hsaves, hlast⟩ :=
            exists_saves (fun r hr => (hf.memory event.name r hr).1) hserve
          have hf₁ := hf.serve hevents.1 hserve
          generalize hrest : (f₁.serveAll events : StateM Disk _) d₁ = served at hrun
          obtain ⟨⟨answers₁, f₂⟩, d₂⟩ := served
          cases hrun
          obtain ⟨hf', log, hlog, hsound⟩ := ih hf₁ hevents.2 hrest
          refine ⟨hf', _, .cons hserve hsaves hlast hlog, ?_⟩
          intro entry hentry
          rw [List.getLast?_append, List.getLast?_map] at hentry
          cases hlog' : log.getLast? with
          | some entry' =>
              rw [hlog'] at hentry
              cases hentry
              exact hsound _ hlog'
          | none =>
              rw [hlog', Option.none_or] at hentry
              obtain ⟨r, hr, rfl⟩ := Option.map_eq_some_iff.mp hentry
              exact hf₁.memory event.name r (hlast r hr)

/-- Every registry in memory keeps all rules, and so does the document if there is one; and whoever
reads it anew does not find it corrupted. -/
structure Consistent (f : Fleet ι) (d : Disk) : Prop where
  memory : ∀ name, ∀ r ∈ f.memory name, r.Valid ∧ r.Addressed
  document : d.isPresent f.document = false ∨
    ∃ r, (load f.document : StateM Disk _) d = (.ok r, d) ∧ r.Valid ∧ r.Addressed
  opening : ∀ name now path cause,
    ((f.serve (.opened name now) : StateM Disk _) d).1.1 ≠ .error (.storageCorruption path cause)
  resetting : ∀ name now path cause,
    ((f.serve (.called name ⟨now, .reset⟩) : StateM Disk _) d).1.1 ≠
      .error (.storageCorruption path cause)

theorem answer_reset (f : Fleet ι) (name : ι) (now : Timestamp) (d : Disk) :
    ((f.serve (.called name ⟨now, .reset⟩) : StateM Disk _) d).1.1 =
      ((loadOrSeed now f.document : StateM Disk _) d).1.map fun _ => () := by
  simp only [serve_called, Handle.respond, Handle.reset_run, Handle.registry_run, handle,
    Handle.forget]
  generalize (loadOrSeed now f.document : StateM Disk _) d = loaded
  obtain ⟨_ | _, d'⟩ := loaded <;> rfl

theorem Sound.consistent (hf : f.Sound document)
    (hd : d.isPresent document = false ∨ ∃ r, Mirrored document r d) : f.Consistent d := by
  obtain ⟨rfl, hmemory⟩ := hf
  have hreset : ∀ name now path cause, ((f.serve (.called name ⟨now, .reset⟩) : StateM Disk _) d).1.1 ≠
      .error (.storageCorruption path cause) := by
    intro name now path cause hanswer
    rw [answer_reset] at hanswer
    rcases hd with habsent | ⟨r, hr⟩
    · rw [loadOrSeed_run, habsent, if_neg Bool.false_ne_true] at hanswer
      split at hanswer
      · rename_i e d' hsave
        cases hanswer
        obtain ⟨_, _, he⟩ | he := save_error hsave <;> cases he
      · cases hanswer
    · rw [hr.loadOrSeed_eq] at hanswer
      cases hanswer
  refine ⟨fun name r hr => ⟨(hmemory name r hr).1, (hmemory name r hr).1.addressed⟩, ?_, ?_, hreset⟩
  · rcases hd with habsent | ⟨r, hr⟩
    · exact .inl habsent
    · exact .inr ⟨r, hr.load_eq, hr.valid, hr.valid.addressed⟩
  · intro name now
    rw [serve_opened]
    exact hreset name now

end Fleet

/-- Handles of one document are opened, reset, asked and told to change the registry in any order, and
any save may fail at any step.  At first there is a registry in the document, or there is no document,
and the path climbs only from directories that are there.  Then everything is consistent afterwards,
and the document is as it was at first or holds, whole and exactly, the registry that was saved last,
as the handle that saved it remembered it. -/
theorem consistent_of_serveAll {ι : Type} [DecidableEq ι] {document : Path} {events : List (Event ι)}
    {d d' : Disk} {answers : List (Except RegistryError Unit)} {f : Fleet ι}
    (hstart : (∃ r, (load document : StateM Disk _) d = (.ok r, d)) ∨
      d.isPresent document = false ∧ d.IsTree ∧ d.ClimbsFromDirectories document)
    (hevents : ∀ event ∈ events, event.Dated)
    (hrun : ((Fleet.idle document).serveAll events : StateM Disk _) d = ((answers, f), d')) :
    f.Consistent d' ∧ ∃ log, (Fleet.idle document).Logged d events log f d' ∧
      (log = [] → Unchanged document d d') ∧
      ∀ name r, log.getLast? = some (name, r) → (load document : StateM Disk _) d' = (.ok r, d') ∧
        ∃ text, r.render? = some text ∧ d'.read document = .ok text.toUTF8 := by
  have hidle : (Fleet.idle document : Fleet ι).Sound document := ⟨rfl, nofun⟩
  obtain ⟨hsound, log, hlog, hlast⟩ := hidle.serveAll hevents hrun
  have hsaves : Saves document d (log.map Prod.snd) d' := hlog.saves
  have hsettled : Settled document d := by
    rcases hstart with ⟨r, hr⟩ | ⟨-, hd⟩
    · obtain ⟨content, hread, -⟩ := (Mirrored.of_load hr).stored
      exact .inl ⟨content, hread⟩
    · exact .inr hd
  have hsame : log = [] → Unchanged document d d' := by
    rintro rfl
    exact hsaves.unchanged hsettled
  have hheld : ∀ name r, log.getLast? = some (name, r) → Mirrored document r d' ∧
      ∃ text, r.render? = some text ∧ d'.read document = .ok text.toUTF8 := by
    intro name r hr
    obtain ⟨hvalid, hdated⟩ := hlast _ hr
    have hr' : (log.map Prod.snd).getLast? = some r := by rw [List.getLast?_map, hr, Option.map_some]
    obtain ⟨text, hrender, hread⟩ := hsaves.read_of_getLast? hr'
    exact ⟨⟨hvalid, hdated, _, hread, interpret_render? hvalid hdated hrender document⟩,
      text, hrender, hread⟩
  have hdocument : d'.isPresent document = false ∨ ∃ r, Mirrored document r d' := by
    cases hentry : log.getLast? with
    | some entry => exact .inr ⟨entry.2, (hheld entry.1 entry.2 hentry).1⟩
    | none =>
        have hunchanged := hsame (List.getLast?_eq_none_iff.mp hentry)
        rcases hstart with ⟨r, hr⟩ | ⟨habsent, -⟩
        · exact .inr ⟨r, (Mirrored.of_load hr).of_read hunchanged.read_eq⟩
        · exact .inl (hunchanged.isPresent.trans habsent)
  refine ⟨hsound.consistent hdocument, log, hlog, hsame, ?_⟩
  intro name r hr
  obtain ⟨hmirrored, htext⟩ := hheld name r hr
  exact ⟨hmirrored.load_eq, htext⟩

/-- The time at which handles work across each other. -/
def crossingTime : Timestamp := ⟨⟨2024, 2, 29⟩, 720, 30, 0⟩

/-- The document of these handles. -/
def crossedDocument : Path := .ofString "home/registry.json"

/-- An empty disk, on which the second draft breaks off. -/
def crossedDisk : Disk :=
  { Disk.empty with mishaps := List.replicate 5 none ++ [some (.torn 10 (.other "No space"))] }

/-- Both handles add a group of their own; the first one has to try twice. -/
def crossedChanges : List (Event Bool) :=
  [(false, "team"), (true, "crew"), (false, "team")].map fun change =>
    .called change.1 ⟨crossingTime, .change (.createGroup ⟨change.2, none, none⟩)⟩

/-- Two handles are opened, and add groups without looking at what the other has done. -/
def crossedRun : (List (Except RegistryError Unit) × Fleet Bool) × Disk :=
  ((Fleet.idle crossedDocument).serveAll
    (.opened false crossingTime :: .opened true crossingTime :: crossedChanges) : StateM Disk _)
    crossedDisk

/-- The disk on which the first registry has been saved. -/
def seededDisk : Disk :=
  ((save crossedDocument (.initial crossingTime) : StateM Disk _) crossedDisk).2

/-- The first handle saves the first registry, and the second one finds it. -/
theorem crossedRun_eq : crossedRun =
    match ((((Fleet.idle crossedDocument).remember false (some (.initial crossingTime))).remember true
      (some (.initial crossingTime))).serveAll crossedChanges : StateM Disk _) seededDisk with
    | ((answers, f), d') => ((.ok () :: .ok () :: answers, f), d') := by
  have habsent : crossedDisk.isPresent crossedDocument = false := by decide +kernel
  have hanswer : ((save crossedDocument (.initial crossingTime) : StateM Disk _) crossedDisk).1 =
      .ok () := by rfl
  have hsaved : (save crossedDocument (.initial crossingTime) : StateM Disk _) crossedDisk =
      (.ok (), seededDisk) := Prod.ext hanswer rfl
  have hmirrored := Mirrored.of_save (Registry.valid_initial crossingTime)
    (Registry.dated_initial (by decide)) hsaved
  have hfirst := Fleet.serve_opened_of_absent (f := Fleet.idle crossedDocument) habsent hsaved false
  have hsecond := Fleet.serve_opened_of_mirrored (f := (Fleet.idle crossedDocument).remember false
    (some (.initial crossingTime))) hmirrored true crossingTime
  rw [crossedRun, Fleet.serveAll_cons hfirst, Fleet.serveAll_cons hsecond]
  generalize (Fleet.serveAll _ crossedChanges : StateM Disk _) seededDisk = served
  obtain ⟨⟨answers, f⟩, d'⟩ := served
  rfl

theorem consistent_of_serveAll_crossed : ∃ answers f d', ∃ log : List (Bool × Registry), ∃ name r,
    crossedRun = ((answers, f), d') ∧ answers.map Except.isOk = [true, true, false, true, true] ∧
    (f.memory false).map (·.groups.toList.map Group.name) = some ["other", "team"] ∧
    (f.memory true).map (·.groups.toList.map Group.name) = some ["other", "crew"] ∧
    f.Consistent d' ∧ log.getLast? = some (name, r) ∧
    (load crossedDocument : StateM Disk _) d' = (.ok r, d') := by
  have hanswers : crossedRun.1.1.map Except.isOk = [true, true, false, true, true] := by
    rw [crossedRun_eq]
    decide +kernel
  have hteam : (crossedRun.1.2.memory false).map (·.groups.toList.map Group.name) =
      some ["other", "team"] := by
    rw [crossedRun_eq]
    decide +kernel
  have hcrew : (crossedRun.1.2.memory true).map (·.groups.toList.map Group.name) =
      some ["other", "crew"] := by
    rw [crossedRun_eq]
    decide +kernel
  have hpresent : crossedRun.2.isPresent crossedDocument = true := by
    rw [crossedRun_eq]
    decide +kernel
  have habsent : crossedDisk.isPresent crossedDocument = false := by decide +kernel
  have htree : crossedDisk.IsTree := Disk.isTree_empty.of_sight_eq rfl
  have hclimbs := Disk.climbsFromDirectories_of_not_mem (p := crossedDocument) (by decide) crossedDisk
  have htime : crossingTime.IsValid := by decide
  have hevents : ∀ event ∈ Event.opened false crossingTime :: .opened true crossingTime ::
      crossedChanges, event.Dated := by
    intro event hevent call hcall
    simp only [crossedChanges, List.map_cons, List.map_nil, List.mem_cons, List.not_mem_nil,
      or_false] at hevent
    rcases hevent with rfl | rfl | rfl | rfl | rfl <;> cases hcall <;> refine ⟨htime, ?_⟩ <;>
      rintro _ ⟨⟩ <;> exact trivial
  generalize hrun : crossedRun = ended at hanswers hteam hcrew hpresent
  obtain ⟨⟨answers, f⟩, d'⟩ := ended
  have hserved := hrun
  rw [crossedRun] at hserved
  obtain ⟨hconsistent, log, -, hsame, hheld⟩ :=
    consistent_of_serveAll (.inr ⟨habsent, htree, hclimbs⟩) hevents hserved
  cases hlast : log.getLast? with
  | none =>
      have hunchanged := hsame (List.getLast?_eq_none_iff.mp hlast)
      rw [← hunchanged.isPresent, hpresent] at habsent
      cases habsent
  | some entry =>
      exact ⟨answers, f, d', log, entry.1, entry.2, rfl, hanswers, hteam, hcrew, hconsistent, hlast,
        (hheld _ _ hlast).1⟩

/-- Where the path leads nowhere because it climbs from a directory that is missing, a handle that
cannot be opened makes a document appear, and the next one finds it corrupted. -/
theorem corrupted_after_opening : ∃ now e path cause f d', strayDisk.IsTree ∧
    strayDisk.isPresent strayHandle.document = false ∧
    ((Fleet.idle strayHandle.document).serveAll [.opened false now, .opened true now] :
        StateM Disk _) strayDisk =
      (([.error e, .error (.storageCorruption path cause)], f), d') := by
  let now : Timestamp := ⟨⟨2024, 2, 29⟩, 720, 30, 0⟩
  have htree : strayDisk.IsTree := (Disk.isTree_empty.perform _).perform _
  have habsent : strayDisk.isPresent strayHandle.document = false := by decide +kernel
  have hanswers : (((Fleet.idle strayHandle.document).serveAll [.opened false now, .opened true now] :
      StateM Disk _) strayDisk).1.1 = [.error (.io (Workspace.draft strayHandle.document) .isDirectory),
        .error (.storageCorruption strayHandle.document (.unreadable (.missingField "projectGroups")))] := by
    decide +kernel
  exact ⟨now, _, _, _, _, _, htree, habsent, Prod.ext (Prod.ext hanswers rfl) rfl⟩

end PipelineRegistry
