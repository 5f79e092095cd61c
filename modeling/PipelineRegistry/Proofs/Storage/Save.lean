import Mathlib
import PipelineRegistry.Proofs.Storage.Session
import PipelineRegistry.Proofs.Storage.Steps

/-! # What saving does to the disk

A save that fails has made directories on the way to the document and touched its draft, and nothing
else; a save that succeeds leaves the written form of the registry at the path of the document.  The
draft never stands where the document stands.  So the document of a failed save is read as before,
and where there was none there is none. -/

namespace PipelineRegistry.Storage

open Chain Disk

variable {d d' : Disk} {document : Path} {r : Registry} {e : RegistryError} {l s : Location}
  {result : Except RegistryError Unit}

/-! ### Performing several steps -/

theorem performAll_cons_run (step : Step) (steps : List Step) (d : Disk) :
    (performAll (step :: steps) : StateM Disk _) d = match d.perform step with
      | (.error cause, d') => (.error (.io step.subject cause), d')
      | (.ok (), d') => (performAll steps : StateM Disk _) d' := by
  have hperform : (FileSystem.perform step : StateM Disk _) d = d.perform step := rfl
  rw [performAll, bind_run, hperform]
  generalize d.perform step = performed
  obtain ⟨_ | _, d'⟩ := performed <;> rfl

theorem performAll_append_run (steps steps' : List Step) (d : Disk) :
    (performAll (steps ++ steps') : StateM Disk _) d = match (performAll steps : StateM Disk _) d with
      | (.error e, d') => (.error e, d')
      | (.ok (), d') => (performAll steps' : StateM Disk _) d' := by
  induction steps generalizing d with
  | nil => rfl
  | cons step steps ih =>
      rw [List.cons_append, performAll_cons_run, performAll_cons_run]
      generalize d.perform step = performed
      obtain ⟨_ | _, d'⟩ := performed
      · rfl
      · exact ih d'

/-- Steps without renaming keep everything but what they write and make. -/
theorem performAll_keeps {steps : List Step} (hsteps : ∀ step ∈ steps, ∀ p q, step ≠ .rename p q)
    (h : (performAll steps : StateM Disk _) d = (result, d')) :
    Keeps (fun l => ∃ step ∈ steps, ∃ p ∈ written? step, d'.locate p = .ok l)
      (fun l => ∃ step ∈ steps, ∃ p ∈ made? step, d'.IsOnWay p l) d d' := by
  induction steps generalizing d with
  | nil =>
      cases h
      exact .of_sight_eq rfl
  | cons step steps ih =>
      rw [List.forall_mem_cons] at hsteps
      rw [performAll_cons_run] at h
      split at h
      · rename_i cause d₁ hperform
        cases h
        have hstep := perform_keeps hperform fun p q heq => absurd heq (hsteps.1 p q)
        exact hstep.mono (fun l hl => ⟨step, List.mem_cons_self, hl⟩)
          (fun l hl => ⟨step, List.mem_cons_self, hl⟩)
      · rename_i d₁ hperform
        have hstep := perform_keeps hperform fun p q heq => absurd heq (hsteps.1 p q)
        have hrest := ih hsteps.2 h
        refine Keeps.trans (hstep.mono ?_ ?_) (hrest.mono ?_ ?_)
        · rintro l ⟨p, hp, hl⟩
          exact ⟨step, List.mem_cons_self, p, hp, hrest.locate hl⟩
        · rintro l ⟨p, hp, before, behind, hnames, hwalk⟩
          exact ⟨step, List.mem_cons_self, p, hp, before, behind, hnames, hrest.walk hwalk⟩
        · rintro l ⟨step', hmem, hl⟩
          exact ⟨step', List.mem_cons_of_mem _ hmem, hl⟩
        · rintro l ⟨step', hmem, hl⟩
          exact ⟨step', List.mem_cons_of_mem _ hmem, hl⟩

/-! ### The phases of a save -/

theorem prepareDirectory_run (document : Path) (d : Disk) :
    (prepareDirectory document : StateM Disk _) d = match document.parent with
      | none => (.ok (), d)
      | some directory => if d.isPresent directory then (.ok (), d)
        else (performAll (directorySteps directory) : StateM Disk _) d := by
  unfold prepareDirectory
  cases document.parent with
  | none => rfl
  | some directory =>
      change (if d.isPresent directory then pure (.ok ())
        else performAll (directorySteps directory) : StateM Disk _) d = _
      simp only
      split <;> rfl

theorem save_run (document : Path) (r : Registry) (d : Disk) :
    (save document r : StateM Disk _) d = match (prepareDirectory document : StateM Disk _) d with
      | (.error e, d') => (.error e, d')
      | (.ok (), d') => match r.render? with
        | none => (.error .unwritable, d')
        | some text => (performAll (replaceSteps document text) : StateM Disk _) d' := by
  unfold save
  rw [bind_run]
  generalize (prepareDirectory document : StateM Disk _) d = prepared
  obtain ⟨e | _, d'⟩ := prepared
  · rfl
  · cases r.render? <;> rfl

/-- Preparing the directory of a document makes directories on the way there. -/
theorem prepareDirectory_keeps (h : (prepareDirectory document : StateM Disk _) d = (result, d')) :
    Keeps (fun _ => False) (fun l => ∃ dir ∈ document.parent, d'.IsOnWay dir l) d d' := by
  rw [prepareDirectory_run] at h
  split at h
  · cases h
    exact .of_sight_eq rfl
  · rename_i directory hdirectory
    split at h
    · cases h
      exact .of_sight_eq rfl
    · have hsteps : ∀ step ∈ directorySteps directory, ∀ p q, step ≠ .rename p q := by
        simp [directorySteps]
      refine (performAll_keeps hsteps h).mono ?_ ?_
      · simp [directorySteps, written?]
      · rintro l ⟨step, hstep, p, hp, hl⟩
        have hp : p = directory := by
          simp only [directorySteps, List.mem_cons, List.not_mem_nil, or_false] at hstep
          rcases hstep with rfl | rfl
          · exact (Option.some_inj.mp hp).symm
          · cases hp
        exact ⟨directory, hdirectory, hp ▸ hl⟩

theorem replaceSteps_eq (document : Path) (text : String) : replaceSteps document text =
    [.write (Workspace.draft document) text.toUTF8, .setMode (Workspace.draft document) documentMode] ++
      [.rename (Workspace.draft document) document] := rfl

theorem performAll_replaceSteps_error {text : String}
    (h : (performAll (replaceSteps document text) : StateM Disk _) d = (.error e, d')) :
    Keeps (fun l => d'.locate (Workspace.draft document) = .ok l) (fun _ => False) d d' := by
  have hsteps : ∀ step ∈ [Step.write (Workspace.draft document) text.toUTF8,
      .setMode (Workspace.draft document) documentMode], ∀ p q, step ≠ .rename p q := by simp
  -- the draft is written, and no directories are made
  have hdraft : ∀ {result d₁}, (performAll [.write (Workspace.draft document) text.toUTF8,
      .setMode (Workspace.draft document) documentMode] : StateM Disk _) d = (result, d₁) →
      Keeps (fun l => d₁.locate (Workspace.draft document) = .ok l) (fun _ => False) d d₁ := by
    intro result d₁ h₁
    refine (performAll_keeps hsteps h₁).mono ?_ ?_
    · simp [written?]
    · simp [made?]
  rw [replaceSteps_eq, performAll_append_run] at h
  split at h
  · rename_i e d₁ h₁
    cases h
    exact hdraft h₁
  · rename_i d₁ h₁
    rw [performAll_cons_run] at h
    split at h
    · rename_i cause d₂ hrename
      cases h
      have hlast := perform_keeps hrename fun _ _ _ => ⟨cause, rfl⟩
      refine Keeps.trans ((hdraft h₁).mono (fun l => hlast.locate) fun _ => id) (hlast.mono ?_ ?_)
      · rintro l ⟨p, hp, -⟩
        cases hp
      · rintro l ⟨p, hp, -⟩
        cases hp
    · cases h

theorem performAll_replaceSteps_ok {text : String}
    (h : (performAll (replaceSteps document text) : StateM Disk _) d = (.ok (), d')) :
    ∃ l f, d'.locate document = .ok l ∧ d'.node? l = some (.file f) ∧ f.content = text.toUTF8 ∧
      f.mode = documentMode := by
  unfold replaceSteps at h
  simp only [performAll_cons_run] at h
  split at h
  · cases h
  · rename_i d₁ hwrite
    split at h
    · cases h
    · rename_i d₂ hsetMode
      split at h
      · cases h
      · rename_i d₃ hrename
        cases h
        obtain ⟨_, hwrite⟩ := perform_ok hwrite
        obtain ⟨_, hsetMode⟩ := perform_ok hsetMode
        obtain ⟨_, hrename⟩ := perform_ok hrename
        obtain ⟨s, f, hs, hf, hcontent⟩ := apply_write_ok hwrite
        obtain ⟨hs', hf'⟩ := apply_setMode_ok hsetMode hs hf
        obtain ⟨l, hl, hl'⟩ := apply_rename_ok hrename hs' hf'
        exact ⟨l, _, hl, hl', hcontent, rfl⟩

/-! ### Saves -/

/-- A save that fails touches only the draft and makes directories on the way to the document. -/
theorem save_error_keeps (h : (save document r : StateM Disk _) d = (.error e, d')) :
    Keeps (fun l => d'.locate (Workspace.draft document) = .ok l)
      (fun l => ∃ dir ∈ document.parent, d'.IsOnWay dir l) d d' := by
  rw [save_run] at h
  split at h
  · rename_i e₁ d₁ hprepare
    cases h
    exact (prepareDirectory_keeps hprepare).mono (fun _ => False.elim) fun _ => id
  · rename_i d₁ hprepare
    have hprepared := prepareDirectory_keeps hprepare
    split at h
    · cases h
      exact hprepared.mono (fun _ => False.elim) fun _ => id
    · have hreplace := performAll_replaceSteps_error h
      refine Keeps.trans (hprepared.mono (fun _ => False.elim) ?_)
        (hreplace.mono (fun _ => id) fun _ => False.elim)
      rintro l ⟨dir, hdir, before, behind, hnames, hwalk⟩
      exact ⟨dir, hdir, before, behind, hnames, hreplace.walk hwalk⟩

theorem performAll_error {steps : List Step}
    (h : (performAll steps : StateM Disk _) d = (.error e, d')) : ∃ p cause, e = .io p cause := by
  induction steps generalizing d with
  | nil => cases h
  | cons step steps ih =>
      rw [performAll_cons_run] at h
      split at h
      · cases h
        exact ⟨_, _, rfl⟩
      · exact ih h

/-- A save fails because a step is refused, or because the registry has no written form. -/
theorem save_error (h : (save document r : StateM Disk _) d = (.error e, d')) :
    (∃ p cause, e = .io p cause) ∨ e = .unwritable := by
  rw [save_run] at h
  split at h
  · rename_i e₁ d₁ hprepare
    cases h
    rw [prepareDirectory_run] at hprepare
    split at hprepare
    · cases hprepare
    · split at hprepare
      · cases hprepare
      · exact .inl (performAll_error hprepare)
  · split at h
    · cases h
      exact .inr rfl
    · exact .inl (performAll_error h)

/-- A save that fails without a refused step touches nothing where the directory of the document is
there. -/
theorem eq_of_save_error (hpresent : ∀ dir ∈ document.parent, d.isPresent dir = true)
    (hio : ∀ p cause, e ≠ .io p cause)
    (h : (save document r : StateM Disk _) d = (.error e, d')) : d' = d := by
  have hprepare : (prepareDirectory document : StateM Disk _) d = (.ok (), d) := by
    rw [prepareDirectory_run]
    cases hparent : document.parent with
    | none => rfl
    | some dir => exact if_pos (hpresent dir hparent)
  rw [save_run, hprepare] at h
  simp only at h
  split at h
  · cases h
    rfl
  · obtain ⟨p, cause, he⟩ := performAll_error h
    exact absurd he (hio p cause)

/-- A save that succeeds leaves the written form of the registry at the path of the document. -/
theorem save_ok (h : (save document r : StateM Disk _) d = (.ok (), d')) :
    ∃ text l f, r.render? = some text ∧ d'.locate document = .ok l ∧ d'.node? l = some (.file f) ∧
      f.content = text.toUTF8 ∧ f.mode = documentMode := by
  rw [save_run] at h
  split at h
  · cases h
  · split at h
    · cases h
    · rename_i text hrender
      obtain ⟨l, f, hl, hf, hcontent, hmode⟩ := performAll_replaceSteps_ok h
      exact ⟨text, l, f, hrender, hl, hf, hcontent, hmode⟩

theorem read_of_save_ok (h : (save document r : StateM Disk _) d = (.ok (), d')) :
    ∃ text, r.render? = some text ∧ d'.read document = .ok text.toUTF8 := by
  obtain ⟨text, l, f, hrender, hl, hf, hcontent, -⟩ := save_ok h
  exact ⟨text, hrender, read_eq_ok_iff.mpr ⟨l, hl, sight_eq_file_iff.mpr ⟨f, hf, hcontent⟩⟩⟩

/-! ### Trees -/

theorem isTree_performAll (htree : d.IsTree) (steps : List Step) :
    ((performAll steps : StateM Disk _) d).2.IsTree := by
  induction steps generalizing d with
  | nil => exact htree
  | cons step steps ih =>
      have hstep := htree.perform step
      rw [performAll_cons_run]
      generalize d.perform step = performed at hstep
      obtain ⟨_ | _, d₁⟩ := performed
      · exact hstep
      · exact ih hstep

/-- A disk stays a tree when a registry is saved, whether the save succeeds or not. -/
theorem isTree_save (htree : d.IsTree) (document : Path) (r : Registry) :
    ((save document r : StateM Disk _) d).2.IsTree := by
  have hprepared : ((prepareDirectory document : StateM Disk _) d).2.IsTree := by
    rw [prepareDirectory_run]
    split
    · exact htree
    · split
      · exact htree
      · exact isTree_performAll htree _
  rw [save_run]
  generalize (prepareDirectory document : StateM Disk _) d = prepared at hprepared
  obtain ⟨_ | _, d₁⟩ := prepared
  · exact hprepared
  · simp only
    split
    · exact hprepared
    · exact isTree_performAll hprepared _

/-! ### The document of a failed save -/

/-- The draft is not the document. -/
theorem locate_draft_ne (hl : d.locate document = .ok l)
    (hs : d.locate (Workspace.draft document) = .ok s) : l ≠ s := by
  obtain ⟨front, rest, hroute, hdraft, hrest, hfilter⟩ := Workspace.exists_route_eq document
  have hname := Workspace.isFileName_draftName document
  obtain ⟨-, hl⟩ := locate_eq_ok_iff.mp hl
  obtain ⟨-, hs⟩ := locate_eq_ok_iff.mp hs
  rw [hroute, walkFrom_append_eq_ok_iff] at hl
  rw [hdraft, walkFrom_append_eq_ok_iff] at hs
  obtain ⟨k, hk, hl⟩ := hl
  obtain ⟨k', hk', hs⟩ := hs
  obtain rfl : k = k' := Except.ok.inj (hk.symm.trans hk')
  obtain ⟨-, hchild⟩ := descend_eq_ok_iff.mp (walkFrom_singleton_eq_ok_iff.mp hs)
  rw [child?_of_ne hname.ne_current hname.ne_parent hchild, eq_append_of_walkFrom hrest hl, hfilter]
  intro heq
  have hsame := List.append_cancel_left heq
  cases hfile : document.fileName with
  | none =>
      rw [hfile] at hsame
      cases hsame
  | some name =>
      rw [hfile] at hsame
      exact Workspace.draftName_ne hfile (List.cons.inj hsame).1.symm

/-- Where nothing was, a document is not where directories have been made on the way to it. -/
theorem not_isOnWay (hkeeps : ∀ {before k}, d.walkFrom [] before = .ok k → d'.walkFrom [] before = .ok k)
    (hclimbs : d.ClimbsFromDirectories document) (hl : d'.locate document = .ok l)
    (hnothing : d.sight l = .nothing) {dir : Path} (hdir : document.parent = some dir) :
    ¬ d'.IsOnWay dir l := by
  rintro ⟨before, behind, hnames, hwalk⟩
  cases hlast : document.last? with
  | none =>
      rw [Path.names_parent_of_last?_eq_none hlast hdir] at hnames
      obtain ⟨rfl, rfl⟩ := List.append_eq_nil_iff.mp hnames.symm
      obtain rfl := walkFrom_nil_eq_ok_iff.mp hwalk
      rw [d.sight_root] at hnothing
      cases hnothing
  | some last =>
      obtain ⟨between, tail, hdocument, -⟩ := Path.exists_names_eq hlast hdir
      rw [hnames, List.append_assoc, List.append_assoc] at hdocument
      by_cases hup : Path.parentName ∈ behind ++ (between ++ last :: tail)
      · -- the way climbs from a directory behind `l`, so that `l` was a directory
        obtain ⟨down, others, hsplit⟩ := List.append_of_mem hup
        rw [hsplit, ← List.append_assoc] at hdocument
        obtain ⟨k, hk, hdirectory⟩ := hclimbs _ _ hdocument
        obtain ⟨j, hj, hjk⟩ := walkFrom_append_eq_ok_iff.mp hk
        obtain rfl : j = l := Except.ok.inj ((hkeeps hj).symm.trans hwalk)
        rw [sight_of_walkFrom hjk hdirectory] at hnothing
        cases hnothing
      · -- the way leads down from `l` by the last component at least
        obtain ⟨-, hroute⟩ := locate_eq_ok_iff.mp hl
        rw [Path.route, hdocument, List.append_assoc, walkFrom_append_eq_ok_iff] at hroute
        obtain ⟨k, hk, hdown⟩ := hroute
        obtain rfl : k = l := Except.ok.inj (hk.symm.trans hwalk)
        have hnoUp := Path.parentName_not_mem_append_slash hup document
        have hnil := List.self_eq_append_right.mp (eq_append_of_walkFrom hnoUp hdown)
        have hmem : last ∈ behind ++ (between ++ last :: tail) ++ document.slash := by simp
        exact List.filter_eq_nil_iff.mp hnil last hmem
          (decide_eq_true (Path.ne_currentName_of_last? hlast))

/-- Where only the draft has been touched and directories made on the way to the document, what was at
the path of the document is there, and if the path climbs only from directories that were there, what is
there now was there before. -/
theorem document_of_keeps (hkeeps : Keeps (fun l => d'.locate (Workspace.draft document) = .ok l)
    (fun l => ∃ dir ∈ document.parent, d'.IsOnWay dir l) d d') :
    (∀ content, d.read document = .ok content → d'.read document = .ok content) ∧
    (d.IsTree → d.ClimbsFromDirectories document →
      (d'.read document).toOption = (d.read document).toOption ∧
        d'.isPresent document = d.isPresent document) := by
  have hread : ∀ content, d.read document = .ok content → d'.read document = .ok content :=
    fun content => hkeeps.read fun l hl hs => locate_draft_ne hl hs rfl
  refine ⟨hread, ?_⟩
  intro htree hclimbs
  have hback : ∀ {l}, d'.locate document = .ok l →
      d'.sight l = d.sight l ∧ (d.sight l ≠ .nothing → d.locate document = .ok l) := by
    intro l hl
    refine hkeeps.sight_eq htree hclimbs hl (fun hs => locate_draft_ne hl hs rfl) ?_
    rintro hnothing ⟨dir, hdir, hway⟩
    exact not_isOnWay hkeeps.walk hclimbs hl hnothing hdir hway
  constructor
  · cases hd' : d'.read document with
    | ok content =>
        obtain ⟨l, hl, hsight⟩ := read_eq_ok_iff.mp hd'
        obtain ⟨hsame, hlocate⟩ := hback hl
        have hfile := hsame.symm.trans hsight
        have hl' := hlocate (by rw [hfile]; exact nofun)
        rw [read_eq_ok_iff.mpr ⟨l, hl', hfile⟩]
    | error cause =>
        cases hd : d.read document with
        | ok content =>
            rw [hread content hd] at hd'
            cases hd'
        | error cause' => rfl
  · rw [Bool.eq_iff_iff, isPresent_iff, isPresent_iff]
    constructor
    · rintro ⟨l, hl, hsome⟩
      obtain ⟨hsame, hlocate⟩ := hback hl
      rw [hsame] at hsome
      exact ⟨l, hlocate hsome, hsome⟩
    · rintro ⟨l, hl, hsome⟩
      have hl' := hkeeps.locate hl
      rw [← (hback hl').1] at hsome
      exact ⟨l, hl', hsome⟩

/-- What was at the path of a document is there after a failed save, and if the path climbs only from
directories that were there, what is there after the save was there before. -/
theorem document_of_save_error (h : (save document r : StateM Disk _) d = (.error e, d')) :
    (∀ content, d.read document = .ok content → d'.read document = .ok content) ∧
    (d.IsTree → d.ClimbsFromDirectories document →
      (d'.read document).toOption = (d.read document).toOption ∧
        d'.isPresent document = d.isPresent document) :=
  document_of_keeps (save_error_keeps h)

end PipelineRegistry.Storage
