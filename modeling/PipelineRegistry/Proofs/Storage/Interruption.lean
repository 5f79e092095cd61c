import Mathlib
import PipelineRegistry.Proofs.Storage.Failure
import PipelineRegistry.Proofs.Storage.RoundTrip

/-! # Saves that stop half way

A save is a list of steps (`saveSteps`): the directory of the document is made where it is missing, the
new text is written to the draft, and the draft is renamed.  The program may be stopped behind any of
these steps, and any step may be refused or done in part, which is a mishap of the disk.  As long as the
draft has not been renamed the document is what it was (`DocumentStays`), and once it has been renamed
the document is the new text as a whole (`DocumentReplaced`), whatever earlier saves have left behind.

As after a failed save, a path behind which there was nothing may lead to something if it climbs by `..`
out of the directory that has been made. -/

namespace PipelineRegistry

open Calendar Disk

/-! ### Renaming -/

namespace Disk

variable {d d' : Disk} {source target : Path}

/-- What is below a file is nothing. -/
theorem IsTree.not_prefix_of_file (h : d.IsTree) {s l : Location} {f : File}
    (hs : d.node? s = some (.file f)) (hl : d.sight l ≠ .nothing) (hne : l ≠ s) : ¬ s <+: l := by
  intro hprefix
  have hopen := h l hl
  rcases List.eq_nil_or_concat' l with rfl | ⟨init, last, rfl⟩
  · exact hne (List.prefix_nil.mp hprefix).symm
  · rw [List.dropLast_concat] at hopen
    rcases List.prefix_concat_iff.mp hprefix with rfl | hinit
    · exact hne rfl
    · exact not_directory_of_file hs (hopen s hinit)

/-- A file that has been renamed is no longer at its former path, and the other files are as they were. -/
theorem apply_rename_frame (h : d.apply (.rename source target) = (.ok (), d')) :
    ∃ s t, d'.locate source = .ok s ∧ d'.locate target = .ok t ∧ (s ≠ t → d'.sight s = .nothing) ∧
      (∀ p l, d.locate p = .ok l → d'.locate p = .ok l) ∧
      (d.IsTree → ∀ l content, d.sight l = .file content → l ≠ s → l ≠ t →
        d'.sight l = .file content) := by
  rw [apply] at h
  split at h
  · cases h
  · cases h
  · rename_i s t hs ht
    obtain ⟨dir, name, -, -, rfl, htarget⟩ := locateFile_eq_ok ht
    obtain ⟨f, hf, hdir, rfl⟩ := renameAt_ok h
    have hne : dir ++ [name] ≠ [] := List.concat_ne_nil _ _
    by_cases hst : s = dir ++ [name]
    · rw [if_pos hst]
      exact ⟨s, _, hs, htarget, absurd hst, fun _ _ => id, fun _ _ _ hl _ _ => hl⟩
    · rw [if_neg hst]
      have hkeep : ∀ p l, d.locate p = .ok l →
          ((d.remove s).put (dir ++ [name]) (.file f)).locate p = .ok l := by
        intro p l hl
        obtain ⟨hcheck, hwalk⟩ := locate_eq_ok_iff.mp hl
        exact locate_eq_ok_iff.mpr
          ⟨hcheck, (walk_mono (fun j hj => sight_remove_put hf hne hdir hj) hwalk).1⟩
      refine ⟨s, _, hkeep _ _ hs, hkeep _ _ htarget, ?_, hkeep, ?_⟩
      · intro _
        rw [sight_put hne _ hst, sight_eq_nothing_iff, node?_remove,
          if_pos ⟨ne_nil_of_node?_eq_file hf, List.prefix_rfl⟩]
      · intro htree l content hl hls hlt
        have hsome : d.sight l ≠ .nothing := by
          intro hnothing
          rw [hl] at hnothing
          cases hnothing
        rw [sight_put hne _ hlt, sight, node?_remove,
          if_neg fun h => htree.not_prefix_of_file hf hsome hls h.2]
        exact hl

end Disk

namespace Storage

variable {d d' : Disk} {document : Path} {r : Registry} {k : ℕ} {result : Except RegistryError Unit}

/-! ### The steps of a save -/

/-- The steps that make the directory of a document if it is missing. -/
def preparation (document : Path) (d : Disk) : List Step :=
  document.parent.elim [] fun dir => if d.isPresent dir then [] else directorySteps dir

/-- The steps of a save; there are none for the draft if the registry has no written form. -/
def saveSteps (document : Path) (r : Registry) (d : Disk) : List Step :=
  preparation document d ++ r.render?.elim [] (replaceSteps document)

/-- The step that brings the new text to the path of the document. -/
def replacement (document : Path) : Step := .rename (Workspace.draft document) document

theorem prepareDirectory_eq (document : Path) (d : Disk) :
    (prepareDirectory document : StateM Disk _) d =
      (performAll (preparation document d) : StateM Disk _) d := by
  rw [prepareDirectory_run, preparation]
  cases document.parent with
  | none => rfl
  | some dir =>
      rw [Option.elim_some]
      by_cases hpresent : d.isPresent dir = true
      · simp only [if_pos hpresent]
        rfl
      · simp only [if_neg hpresent]

/-- A save performs its steps, and fails in the end if the registry has no written form. -/
theorem save_eq (document : Path) (r : Registry) (d : Disk) : (save document r : StateM Disk _) d =
    match (performAll (saveSteps document r d) : StateM Disk _) d with
    | (.error e, d') => (.error e, d')
    | (.ok (), d') => (if r.render?.isSome then .ok () else .error .unwritable, d') := by
  rw [save_run, prepareDirectory_eq, saveSteps, performAll_append_run]
  generalize (performAll (preparation document d) : StateM Disk _) d = prepared
  obtain ⟨e | _, d₁⟩ := prepared
  · rfl
  · cases r.render? with
    | none => rfl
    | some text =>
        simp only [Option.elim_some]
        generalize (performAll (replaceSteps document text) : StateM Disk _) d₁ = replaced
        obtain ⟨e | _, d₂⟩ := replaced <;> rfl

/-- A step that brings nothing to the path of the document: it writes the draft at most, and makes no
other directories than the one of the document and those above it. -/
def IsPreparatory (document : Path) (step : Step) : Prop :=
  (∀ p q, step ≠ .rename p q) ∧ (∀ p ∈ written? step, p = Workspace.draft document) ∧
    ∀ p ∈ made? step, document.parent = some p

theorem isPreparatory_setMode (p : Path) (mode : Nat) : IsPreparatory document (.setMode p mode) := by
  refine ⟨?_, ?_, ?_⟩
  · rintro _ _ ⟨⟩
  · rintro _ ⟨⟩
  · rintro _ ⟨⟩

theorem isPreparatory_write_draft (content : ByteArray) :
    IsPreparatory document (.write (Workspace.draft document) content) := by
  refine ⟨?_, ?_, ?_⟩
  · rintro _ _ ⟨⟩
  · rintro _ ⟨⟩
    rfl
  · rintro _ ⟨⟩

theorem isPreparatory_createDirectories {dir : Path} (hdir : document.parent = some dir) :
    IsPreparatory document (.createDirectories dir) := by
  refine ⟨?_, ?_, ?_⟩
  · rintro _ _ ⟨⟩
  · rintro _ ⟨⟩
  · rintro _ ⟨⟩
    exact hdir

theorem isPreparatory_of_mem_preparation {step : Step} (h : step ∈ preparation document d) :
    IsPreparatory document step := by
  unfold preparation at h
  cases hparent : document.parent with
  | none =>
      rw [hparent] at h
      cases h
  | some dir =>
      rw [hparent, Option.elim_some] at h
      split at h
      · cases h
      · simp only [directorySteps, List.mem_cons, List.not_mem_nil, or_false] at h
        rcases h with rfl | rfl
        · exact isPreparatory_createDirectories hparent
        · exact isPreparatory_setMode _ _

/-- The steps of a save before the renaming. -/
def draftSteps (document : Path) (text : String) (d : Disk) : List Step :=
  preparation document d ++ [.write (Workspace.draft document) text.toUTF8,
    .setMode (Workspace.draft document) documentMode]

theorem isPreparatory_of_mem_draftSteps {step : Step} {text : String}
    (h : step ∈ draftSteps document text d) : IsPreparatory document step := by
  rcases List.mem_append.mp h with h | h
  · exact isPreparatory_of_mem_preparation h
  · simp only [List.mem_cons, List.not_mem_nil, or_false] at h
    rcases h with rfl | rfl
    · exact isPreparatory_write_draft _
    · exact isPreparatory_setMode _ _

theorem saveSteps_eq {text : String} (htext : r.render? = some text) (d : Disk) :
    saveSteps document r d = draftSteps document text d ++ [replacement document] := by
  rw [saveSteps, htext, draftSteps, List.append_assoc]
  rfl

/-- The first steps of a save prepare the renaming, or are all its steps. -/
theorem take_saveSteps_cases (document : Path) (r : Registry) (d : Disk) (k : ℕ) :
    (∀ step ∈ (saveSteps document r d).take k, IsPreparatory document step) ∨
    ∃ text, r.render? = some text ∧
      (saveSteps document r d).take k = draftSteps document text d ++ [replacement document] := by
  cases htext : r.render? with
  | none =>
      refine .inl fun step hstep => isPreparatory_of_mem_preparation (d := d) ?_
      have hmem := List.mem_of_mem_take hstep
      rwa [saveSteps, htext, Option.elim_none, List.append_nil] at hmem
  | some text =>
      rw [saveSteps_eq htext]
      rcases le_or_gt k (draftSteps document text d).length with hk | hk
      · rw [List.take_append_of_le_length hk]
        exact .inl fun step hstep => isPreparatory_of_mem_draftSteps (List.mem_of_mem_take hstep)
      · refine .inr ⟨text, rfl, List.take_of_length_le ?_⟩
        rw [List.length_append, List.length_singleton]
        exact hk

/-! ### Before the renaming -/

/-- Steps before the renaming touch the draft and make directories on the way to the document. -/
theorem performAll_preparatory_keeps {steps : List Step}
    (hsteps : ∀ step ∈ steps, IsPreparatory document step)
    (h : (performAll steps : StateM Disk _) d = (result, d')) :
    Keeps (fun l => d'.locate (Workspace.draft document) = .ok l)
      (fun l => ∃ dir ∈ document.parent, d'.IsOnWay dir l) d d' := by
  refine (performAll_keeps (fun step hstep => (hsteps step hstep).1) h).mono ?_ ?_
  · rintro l ⟨step, hstep, p, hp, hl⟩
    rwa [(hsteps step hstep).2.1 p hp] at hl
  · rintro l ⟨step, hstep, p, hp, hl⟩
    exact ⟨p, (hsteps step hstep).2.2 p hp, hl⟩

/-- As long as the draft has not been renamed, only the draft and new directories differ. -/
theorem take_saveSteps_keeps
    (h : (performAll ((saveSteps document r d).take k) : StateM Disk _) d = (result, d'))
    (hbefore : ¬ (replacement document ∈ (saveSteps document r d).take k ∧ result = .ok ())) :
    Keeps (fun l => d'.locate (Workspace.draft document) = .ok l)
      (fun l => ∃ dir ∈ document.parent, d'.IsOnWay dir l) d d' := by
  rcases take_saveSteps_cases document r d k with hsteps | ⟨text, -, htake⟩
  · exact performAll_preparatory_keeps hsteps h
  · rw [htake] at h hbefore
    rw [performAll_append_run] at h
    split at h
    · rename_i e d₁ hdraft
      cases h
      exact performAll_preparatory_keeps (fun _ => isPreparatory_of_mem_draftSteps) hdraft
    · rename_i d₁ hdraft
      have hkeeps := performAll_preparatory_keeps (fun _ => isPreparatory_of_mem_draftSteps) hdraft
      rw [performAll_cons_run] at h
      split at h
      · -- the renaming is refused
        rename_i cause d₂ hrename
        cases h
        have hlast : Keeps (fun _ => False) (fun _ => False) d₁ d' :=
          (perform_keeps hrename fun _ _ _ => ⟨cause, rfl⟩).mono
            (by rintro l ⟨p, ⟨⟩, -⟩) (by rintro l ⟨p, ⟨⟩, -⟩)
        refine Keeps.trans (hkeeps.mono (fun _ => hlast.locate) ?_)
          (hlast.mono (fun _ => False.elim) fun _ => False.elim)
        rintro l ⟨dir, hdir, before, behind, hnames, hwalk⟩
        exact ⟨dir, hdir, before, behind, hnames, hlast.walk hwalk⟩
      · cases h
        exact absurd ⟨List.mem_concat_self, rfl⟩ hbefore

/-- The document is what it was.  Files other than the draft are as they were, and what stands at the
path of the document afterwards stood there before. -/
structure DocumentStays (document : Path) (d d' : Disk) : Prop where
  /-- The content of the document stays. -/
  read : ∀ content, d.read document = .ok content → d'.read document = .ok content
  /-- Where there was no document there is none, if the path climbs only from directories that were
  there. -/
  absent : d.ClimbsFromDirectories document →
    (d'.read document).toOption = (d.read document).toOption ∧
      d'.isPresent document = d.isPresent document
  /-- No file but the draft has changed. -/
  others : ∀ l content, d.sight l = .file content →
    d'.locate (Workspace.draft document) ≠ .ok l → d'.sight l = .file content
  /-- What is read as the document stood at its location before, which is not that of the draft. -/
  origin : ∀ content, d'.read document = .ok content → ∃ l, d'.locate document = .ok l ∧
    d'.locate (Workspace.draft document) ≠ .ok l ∧ d.sight l = .file content
  /-- The document is loaded as before. -/
  loaded : ∀ content, d.read document = .ok content →
    (load document : StateM Disk _) d' = (((load document : StateM Disk _) d).1, d')
  /-- Where nothing was loaded, nothing is loaded, with the same proviso. -/
  loaded_absent : d.ClimbsFromDirectories document →
    ((load document : StateM Disk _) d').1.toOption = ((load document : StateM Disk _) d).1.toOption

/-- Loading depends on what is read at the path of the document, and on nothing else. -/
theorem load_congr (h : (d'.read document).toOption = (d.read document).toOption) :
    ((load document : StateM Disk _) d').1.toOption = ((load document : StateM Disk _) d).1.toOption := by
  rw [load_run, load_run]
  cases hd' : d'.read document <;> cases hd : d.read document <;> rw [hd, hd'] at h <;> cases h <;> rfl

theorem documentStays_of_keeps (htree : d.IsTree)
    (hkeeps : Keeps (fun l => d'.locate (Workspace.draft document) = .ok l)
      (fun l => ∃ dir ∈ document.parent, d'.IsOnWay dir l) d d') : DocumentStays document d d' := by
  obtain ⟨hread, habsent⟩ := document_of_keeps hkeeps
  refine ⟨hread, habsent htree, ?_, ?_, ?_, ?_⟩
  · intro l content hl hdraft
    rcases hkeeps.elsewhere hdraft with hsame | ⟨-, hnothing, -⟩
    · exact hsame.trans hl
    · rw [hnothing] at hl
      cases hl
  · intro content hcontent
    obtain ⟨l, hl, hsight⟩ := read_eq_ok_iff.mp hcontent
    have hdraft : d'.locate (Workspace.draft document) ≠ .ok l := fun hs => locate_draft_ne hl hs rfl
    refine ⟨l, hl, hdraft, ?_⟩
    rcases hkeeps.elsewhere hdraft with hsame | ⟨-, -, hdirectory⟩
    · exact hsame.symm.trans hsight
    · rw [hdirectory] at hsight
      cases hsight
  · intro content hcontent
    rw [load_run, load_run, hread content hcontent, hcontent]
  · exact fun hclimbs => load_congr (habsent htree hclimbs).1

/-! ### After the renaming -/

/-- The document holds the new text as a whole, no draft remains, and the other files are as they
were. -/
structure DocumentReplaced (document : Path) (r : Registry) (text : String) (d d' : Disk) : Prop where
  /-- The document is a file with the new text that only its owner can read and write. -/
  file : ∃ l f, d'.locate document = .ok l ∧ d'.node? l = some (.file f) ∧
    f.content = text.toUTF8 ∧ f.mode = documentMode
  /-- There is no draft. -/
  draft : d'.isPresent (Workspace.draft document) = false
  /-- No file but the draft and the document has changed. -/
  others : ∀ l content, d.sight l = .file content → d'.locate document ≠ .ok l →
    d'.locate (Workspace.draft document) ≠ .ok l → d'.sight l = .file content
  /-- The document is loaded as the registry that has been saved. -/
  loaded : (load document : StateM Disk _) d' = (.ok r, d')

theorem load_of_read {text : String} (hr : r.Valid) (hdated : r.Dated) (htext : r.render? = some text)
    (hread : d.read document = .ok text.toUTF8) :
    (load document : StateM Disk _) d = (.ok r, d) := by
  rw [load_run, hread]
  simp only [interpret_render? hr hdated htext]

theorem documentReplaced_of_saveSteps (htree : d.IsTree) (hr : r.Valid) (hdated : r.Dated)
    {text : String} (htext : r.render? = some text)
    (h : (performAll (saveSteps document r d) : StateM Disk _) d = (.ok (), d')) :
    DocumentReplaced document r text d d' := by
  obtain ⟨l, f, hl, hf, hcontent, hmode⟩ : ∃ l f, d'.locate document = .ok l ∧
      d'.node? l = some (.file f) ∧ f.content = text.toUTF8 ∧ f.mode = documentMode := by
    have h' := h
    rw [saveSteps, htext, Option.elim_some, performAll_append_run] at h'
    split at h'
    · cases h'
    · exact performAll_replaceSteps_ok h'
  have hread : d'.read document = .ok text.toUTF8 :=
    read_eq_ok_iff.mpr ⟨l, hl, sight_eq_file_iff.mpr ⟨f, hf, hcontent⟩⟩
  rw [saveSteps_eq htext, performAll_append_run] at h
  split at h
  · cases h
  · rename_i d₁ hdraft
    have hkeeps := performAll_preparatory_keeps (fun _ => isPreparatory_of_mem_draftSteps) hdraft
    have htree₁ : d₁.IsTree := by
      have htree' := isTree_performAll htree (draftSteps document text d)
      rwa [hdraft] at htree'
    rw [performAll_cons_run] at h
    split at h
    · cases h
    · rename_i d₂ hrename
      cases h
      obtain ⟨rest, happly⟩ := perform_ok hrename
      have hstart : IsTree { d₁ with mishaps := rest } := htree₁.of_sight_eq rfl
      obtain ⟨s, t, hs, ht, hgone, hways, hframe⟩ := apply_rename_frame happly
      refine ⟨⟨l, f, hl, hf, hcontent, hmode⟩, ?_, ?_, load_of_read hr hdated htext hread⟩
      · rw [Bool.eq_false_iff, Ne, isPresent_iff]
        rintro ⟨l', hl', hsome⟩
        obtain rfl := Except.ok.inj (hs.symm.trans hl')
        exact hsome (hgone (locate_draft_ne ht hs).symm)
      · intro l' content hl' hdocument hdraft'
        have hl₁ : d₁.sight l' = .file content := by
          rcases hkeeps.elsewhere (fun hmem => hdraft' (hways _ _ hmem)) with hsame | ⟨-, hnothing, -⟩
          · exact hsame.trans hl'
          · rw [hnothing] at hl'
            cases hl'
        refine hframe hstart l' content hl₁ ?_ ?_
        · rintro rfl
          exact hdraft' hs
        · rintro rfl
          exact hdocument ht

/-! ### Interrupted saves -/

/-- What the first steps of a save leave behind. -/
theorem take_saveSteps (htree : d.IsTree) (hr : r.Valid) (hdated : r.Dated)
    (h : (performAll ((saveSteps document r d).take k) : StateM Disk _) d = (result, d')) :
    (replacement document ∈ (saveSteps document r d).take k ∧ result = .ok () →
      ∃ text, r.render? = some text ∧ DocumentReplaced document r text d d') ∧
    (¬ (replacement document ∈ (saveSteps document r d).take k ∧ result = .ok ()) →
      DocumentStays document d d') := by
  refine ⟨?_, fun hbefore => documentStays_of_keeps htree (take_saveSteps_keeps h hbefore)⟩
  rintro ⟨hmem, rfl⟩
  rcases take_saveSteps_cases document r d k with hsteps | ⟨text, htext, htake⟩
  · exact absurd rfl ((hsteps _ hmem).1 _ _)
  · rw [htake, ← saveSteps_eq htext] at h
    exact ⟨text, htext, documentReplaced_of_saveSteps htree hr hdated htext h⟩

/-- The disk after an attempt to save a registry that ends after `attempt.2` steps. -/
def afterAttempt (document : Path) (d : Disk) (attempt : Registry × ℕ) : Disk :=
  ((performAll ((saveSteps document attempt.1 d).take attempt.2) : StateM Disk _) d).2

/-- However many saves have been interrupted, a document that could be loaded is loaded, as the registry
that it was or as one of those that were to be saved. -/
theorem load_of_attempts {attempts : List (Registry × ℕ)} {r₀ : Registry}
    (hattempts : ∀ attempt ∈ attempts, attempt.1.Valid ∧ attempt.1.Dated) (htree : d.IsTree)
    (hload : (load document : StateM Disk _) d = (.ok r₀, d)) :
    ∃ r ∈ r₀ :: attempts.map Prod.fst,
      (load document : StateM Disk _) (attempts.foldl (afterAttempt document) d) =
        (.ok r, attempts.foldl (afterAttempt document) d) := by
  induction attempts generalizing d r₀ with
  | nil => exact ⟨r₀, List.mem_singleton_self _, hload⟩
  | cons attempt attempts ih =>
      obtain ⟨⟨hvalid, hdated⟩, hrest⟩ := List.forall_mem_cons.mp hattempts
      obtain ⟨hreplaced, hstays⟩ := take_saveSteps (k := attempt.2) htree hvalid hdated rfl
      have htree' : (afterAttempt document d attempt).IsTree := isTree_performAll htree _
      rw [List.foldl_cons, List.map_cons]
      by_cases hdone : replacement document ∈ (saveSteps document attempt.1 d).take attempt.2 ∧
          ((performAll ((saveSteps document attempt.1 d).take attempt.2) : StateM Disk _) d).1 = .ok ()
      · obtain ⟨text, -, h⟩ := hreplaced hdone
        obtain ⟨r, hr, hfound⟩ := ih hrest htree' h.loaded
        exact ⟨r, List.mem_cons_of_mem _ hr, hfound⟩
      · obtain ⟨content, hcontent⟩ : ∃ content, d.read document = .ok content := by
          cases hread : d.read document with
          | error cause =>
              rw [load_run, hread] at hload
              cases hload
          | ok content => exact ⟨content, rfl⟩
        have hsame := (hstays hdone).loaded content hcontent
        rw [hload] at hsame
        obtain ⟨r, hr, hfound⟩ := ih hrest htree' hsame
        refine ⟨r, ?_, hfound⟩
        rcases List.mem_cons.mp hr with rfl | hr
        · exact List.mem_cons_self
        · exact List.mem_cons_of_mem _ (List.mem_cons_of_mem _ hr)

/-- A save that succeeds has performed all its steps, the renaming as the last one. -/
theorem saveSteps_of_save_ok (h : (save document r : StateM Disk _) d = (.ok (), d')) :
    replacement document ∈ saveSteps document r d ∧
      (performAll (saveSteps document r d) : StateM Disk _) d = (.ok (), d') := by
  rw [save_eq] at h
  split at h
  · cases h
  · rename_i d₁ hsteps
    obtain ⟨hresult, rfl⟩ := Prod.mk.inj h
    split at hresult
    · rename_i hsome
      obtain ⟨text, htext⟩ := Option.isSome_iff_exists.mp hsome
      refine ⟨?_, hsteps⟩
      rw [saveSteps_eq htext]
      exact List.mem_concat_self
    · cases hresult

end Storage

open Storage

/-- A save is the performance of its steps.  Wherever the program stops in it, or a step fails, possibly
half done, the document is what it was as long as the draft has not been renamed, and afterwards it is
the new text as a whole; a later load finds the former registry or the new one.  This holds whatever an
earlier save has left in the draft.  After a save that succeeds the document is replaced, with its
permissions, and there is no draft. -/
theorem document_of_interrupted_save {d : Disk} (htree : d.IsTree) {r : Registry} (hr : r.Valid)
    (hdated : r.Dated) (document : Path) :
    ((save document r : StateM Disk _) d =
      match (performAll (saveSteps document r d) : StateM Disk _) d with
      | (.error e, d') => (.error e, d')
      | (.ok (), d') => (if r.render?.isSome then .ok () else .error .unwritable, d')) ∧
    (∀ k result d',
      (performAll ((saveSteps document r d).take k) : StateM Disk _) d = (result, d') →
      (replacement document ∈ (saveSteps document r d).take k ∧ result = .ok () →
        ∃ text, r.render? = some text ∧ DocumentReplaced document r text d d') ∧
      (¬ (replacement document ∈ (saveSteps document r d).take k ∧ result = .ok ()) →
        DocumentStays document d d')) ∧
    ∀ d', (save document r : StateM Disk _) d = (.ok (), d') →
      ∃ text, r.render? = some text ∧ DocumentReplaced document r text d d' := by
  refine ⟨save_eq document r d, fun k result d' h => take_saveSteps htree hr hdated h, ?_⟩
  intro d' h
  obtain ⟨hmem, hsteps⟩ := saveSteps_of_save_ok h
  rw [← List.take_length (l := saveSteps document r d)] at hmem hsteps
  exact (take_saveSteps htree hr hdated hsteps).1 ⟨hmem, rfl⟩

/-- A disk with a document and with a draft that an earlier save has left. -/
def leftoverDisk : Disk :=
  (documentedDisk.perform (.write (Workspace.draft crowdedHandle.document) "left over".toUTF8)).2

/-- The same disk, on which the next write breaks off. -/
def breakingDisk : Disk := { leftoverDisk with mishaps := [some (.torn 5 (.other "No space"))] }

/-- A save over a leftover draft stops before the renaming, breaks off in the middle of the new text, and
succeeds. -/
theorem document_of_interrupted_save_leftover : ∃ r text e d₁ d₂ d₃,
    (performAll ((saveSteps crowdedHandle.document r leftoverDisk).take 2) : StateM Disk _)
      leftoverDisk = (.ok (), d₁) ∧ DocumentStays crowdedHandle.document leftoverDisk d₁ ∧
    (performAll ((saveSteps crowdedHandle.document r breakingDisk).take 3) : StateM Disk _)
      breakingDisk = (.error e, d₂) ∧ DocumentStays crowdedHandle.document breakingDisk d₂ ∧
    (save crowdedHandle.document r : StateM Disk _) leftoverDisk = (.ok (), d₃) ∧
      DocumentReplaced crowdedHandle.document r text leftoverDisk d₃ := by
  let r := Registry.initial ⟨⟨2024, 2, 29⟩, 720, 30, 0⟩
  have hvalid : r.Valid := Registry.valid_initial _
  have hdated : r.Dated := Registry.dated_initial (by decide)
  have htree : leftoverDisk.IsTree := ((isTree_empty.perform _).perform _).perform _
  have htree' : breakingDisk.IsTree := htree.of_sight_eq rfl
  have hbefore : ((saveSteps crowdedHandle.document r leftoverDisk).take 2).all
      (fun | .rename _ _ => false | _ => true) = true := by decide +kernel
  obtain ⟨d₁, hstopped⟩ : ∃ d₁, (performAll ((saveSteps crowdedHandle.document r leftoverDisk).take 2) :
      StateM Disk _) leftoverDisk = (.ok (), d₁) := ⟨_, Prod.ext (by rfl) rfl⟩
  obtain ⟨e, d₂, hbroken⟩ : ∃ e d₂, (performAll ((saveSteps crowdedHandle.document r breakingDisk).take 3) :
      StateM Disk _) breakingDisk = (.error e, d₂) :=
    ⟨.io (Workspace.draft crowdedHandle.document) (.other "No space"), _, Prod.ext (by rfl) rfl⟩
  obtain ⟨d₃, hsaved⟩ : ∃ d₃, (save crowdedHandle.document r : StateM Disk _) leftoverDisk =
      (.ok (), d₃) := ⟨_, Prod.ext (by rfl) rfl⟩
  obtain ⟨-, hstop, hsave⟩ := document_of_interrupted_save htree hvalid hdated crowdedHandle.document
  obtain ⟨-, hbreak, -⟩ := document_of_interrupted_save htree' hvalid hdated crowdedHandle.document
  obtain ⟨text, -, hreplaced⟩ := hsave _ hsaved
  have hstays := (hstop 2 _ _ hstopped).2 fun h => nomatch List.all_eq_true.mp hbefore _ h.1
  have hstays' := (hbreak 3 _ _ hbroken).2 fun h => nomatch h.2
  exact ⟨r, text, e, d₁, d₂, d₃, hstopped, hstays, hbroken, hstays', hsaved, hreplaced⟩

/-- A save that fails can make a document appear that is neither the former one, as there was none, nor
the new text. -/
theorem failed_save_reveals_document : ∃ r e d', strayDisk.IsTree ∧ r.Valid ∧ r.Dated ∧
    strayDisk.isPresent strayHandle.document = false ∧
    (performAll (saveSteps strayHandle.document r strayDisk) : StateM Disk _) strayDisk =
      (.error e, d') ∧
    (d'.read strayHandle.document).toOption = some "{}".toUTF8 ∧ r.render? ≠ some "{}" := by
  let r := Registry.initial ⟨⟨2024, 2, 29⟩, 720, 30, 0⟩
  have hdated : r.Dated := Registry.dated_initial (by decide)
  have htree : strayDisk.IsTree := (isTree_empty.perform _).perform _
  have habsent : strayDisk.isPresent strayHandle.document = false := by decide +kernel
  have hresult : ((performAll (saveSteps strayHandle.document r strayDisk) :
      StateM Disk _) strayDisk).1 =
        .error (.io (Workspace.draft strayHandle.document) .isDirectory) := by rfl
  have hread : (((performAll (saveSteps strayHandle.document r strayDisk) :
      StateM Disk _) strayDisk).2.read strayHandle.document).toOption = some "{}".toUTF8 := by
    decide +kernel
  have hother : r.render? ≠ some "{}" := by decide +kernel
  exact ⟨r, _, _, htree, Registry.valid_initial _, hdated, habsent, Prod.ext hresult rfl, hread, hother⟩

end PipelineRegistry
