import Mathlib
import PipelineRegistry.Proofs.Storage.Disk

/-! # What steps change on a disk

`Keeps X M d d'` says that directories stay, that files appear, change or vanish at locations in `X`
only, and that directories are made at locations in `M` only.  Whoever looks elsewhere notices
nothing: a path that could be read is read as before (`Keeps.read`), and a path behind which there was
nothing leads to nothing as before, unless it climbs by `..` out of a directory that has been made
(`Keeps.sight_eq`).  Except for renaming, a step keeps everything but what it writes and makes. -/

namespace PipelineRegistry.Disk

open Chain

variable {d d' : Disk} {l k l' below : Location} {name : FileName} {names : List FileName}
  {p : Path} {n : Node} {content : ByteArray}

/-! ### What is kept -/

/-- Directories stay; anything else differs at locations in `X`, or is a new directory in `M`. -/
structure Keeps (X M : Location → Prop) (d d' : Disk) : Prop where
  directory : ∀ {l}, d.sight l = .directory → d'.sight l = .directory
  elsewhere : ∀ {l}, ¬ X l →
    d'.sight l = d.sight l ∨ (M l ∧ d.sight l = .nothing ∧ d'.sight l = .directory)

namespace Keeps

variable {X X' M M' : Location → Prop} {d₁ : Disk}

theorem of_sight_eq (h : d'.sight = d.sight) : Keeps X M d d' where
  directory := fun hdir => (congrFun h _).trans hdir
  elsewhere := fun _ => .inl (congrFun h _)

theorem mono (h : Keeps X M d d') (hX : ∀ l, X l → X' l) (hM : ∀ l, M l → M' l) :
    Keeps X' M' d d' where
  directory := h.directory
  elsewhere := by
    intro l hl
    rcases h.elsewhere (fun hmem => hl (hX l hmem)) with hsame | ⟨hmade, hrest⟩
    · exact .inl hsame
    · exact .inr ⟨hM l hmade, hrest⟩

theorem trans (h : Keeps X M d d₁) (h' : Keeps X M d₁ d') : Keeps X M d d' where
  directory := fun hdir => h'.directory (h.directory hdir)
  elsewhere := by
    intro l hl
    rcases h.elsewhere hl with hsame | ⟨hmade, hnothing, hdir⟩
    · rcases h'.elsewhere hl with hsame' | ⟨hmade, hnothing, hdir⟩
      · exact .inl (hsame'.trans hsame)
      · exact .inr ⟨hmade, hsame.symm.trans hnothing, hdir⟩
    · exact .inr ⟨hmade, hnothing, h'.directory hdir⟩

theorem walk (h : Keeps X M d d') (hwalk : d.walkFrom [] names = .ok l) :
    d'.walkFrom [] names = .ok l :=
  (walk_mono (fun k hk => h.directory (hk k List.prefix_rfl)) hwalk).1

theorem locate (h : Keeps X M d d') (hl : d.locate p = .ok l) : d'.locate p = .ok l := by
  obtain ⟨hcheck, hwalk⟩ := locate_eq_ok_iff.mp hl
  exact locate_eq_ok_iff.mpr ⟨hcheck, h.walk hwalk⟩

theorem read (h : Keeps X M d d') (hX : ∀ l, d'.locate p = .ok l → ¬ X l)
    (hread : d.read p = .ok content) : d'.read p = .ok content := by
  obtain ⟨l, hl, hsight⟩ := read_eq_ok_iff.mp hread
  have hl' := h.locate hl
  rcases h.elsewhere (hX l hl') with hsame | ⟨-, hnothing, -⟩
  · exact read_eq_ok_iff.mpr ⟨l, hl', hsame.trans hsight⟩
  · rw [hnothing] at hsight
    cases hsight

theorem climbs (h : Keeps X M d d') (hclimbs : d.ClimbsFromDirectories p) :
    d'.ClimbsFromDirectories p := by
  intro before behind hnames
  obtain ⟨k, hk, hdir⟩ := hclimbs before behind hnames
  exact ⟨k, h.walk hk, h.directory hdir⟩

/-- A path with which nothing has been done leads where it led before. -/
theorem sight_eq (h : Keeps X M d d') (htree : d.IsTree) (hclimbs : d.ClimbsFromDirectories p)
    (hl : d'.locate p = .ok l) (hX : ¬ X l) (hM : d.sight l = .nothing → ¬ M l) :
    d'.sight l = d.sight l ∧ (d.sight l ≠ .nothing → d.locate p = .ok l) := by
  have hsight : d'.sight l = d.sight l := by
    rcases h.elsewhere hX with hsame | ⟨hmade, hnothing, -⟩
    · exact hsame
    · exact absurd hmade (hM hnothing)
  refine ⟨hsight, ?_⟩
  intro hsome
  have hdirs : ∀ k, k <+: l → d'.sight k = .directory → d.sight k = .directory := by
    intro k hk hdir
    rcases List.eq_nil_or_concat' l with rfl | ⟨init, last, rfl⟩
    · rw [List.prefix_nil.mp hk]
      exact d.sight_root
    · rcases List.prefix_concat_iff.mp hk with rfl | hinit
      · exact hsight.symm.trans hdir
      · have hopen := htree _ hsome
        rw [List.dropLast_concat] at hopen
        exact hopen k hinit
  obtain ⟨hcheck, hwalk⟩ := locate_eq_ok_iff.mp hl
  refine locate_eq_ok_iff.mpr ⟨hcheck, ?_⟩
  -- up to the last `..` the way is over directories that were there, behind it the way only goes down
  obtain ⟨before, behind, hnames, hbehind, hbefore⟩ : ∃ before behind, p.names = before ++ behind ∧
      Path.parentName ∉ behind ∧ ∃ j, d.walkFrom [] before = .ok j := by
    by_cases hmem : Path.parentName ∈ p.names.reverse
    · obtain ⟨xs, ys, hsplit, hxs⟩ := List.eq_append_cons_of_mem hmem
      have hnames : p.names = ys.reverse ++ Path.parentName :: xs.reverse := by
        rw [← List.reverse_reverse p.names, hsplit, List.reverse_append, List.reverse_cons,
          List.append_assoc, List.singleton_append]
      obtain ⟨j, hj, hdir⟩ := hclimbs _ _ hnames
      refine ⟨ys.reverse ++ [Path.parentName], xs.reverse, ?_, ?_, j.dropLast, ?_⟩
      · rw [hnames, List.append_assoc, List.singleton_append]
      · rwa [List.mem_reverse]
      · rw [walkFrom_append_eq_ok_iff]
        exact ⟨j, hj, walkFrom_singleton_eq_ok_iff.mpr (descend_eq_ok_iff.mpr ⟨hdir, rfl⟩)⟩
    · rw [List.mem_reverse] at hmem
      exact ⟨[], p.names, rfl, hmem, [], rfl⟩
  obtain ⟨j, hj⟩ := hbefore
  have hroute : p.route = before ++ (behind ++ p.slash) := by
    rw [Path.route, hnames, List.append_assoc]
  have hdown := Path.parentName_not_mem_append_slash hbehind p
  rw [hroute, walkFrom_append_eq_ok_iff] at hwalk ⊢
  obtain ⟨j', hj', hrest⟩ := hwalk
  obtain rfl : j = j' := Except.ok.inj ((h.walk hj).symm.trans hj')
  exact ⟨j, hj, walkFrom_of_prefixes hdown hrest hdirs⟩

end Keeps

/-! ### Putting and making -/

theorem sight_put_directory (hl : l ≠ []) (mode : Nat) :
    (d.put l (.directory mode)).sight l = .directory := by
  rw [sight, node?_put hl, if_pos rfl]

theorem sight_put_file (hl : l ≠ []) (f : File) : (d.put l (.file f)).sight l = .file f.content := by
  rw [sight, node?_put hl, if_pos rfl]

theorem ne_nil_of_node?_eq_none (h : d.node? l = none) : l ≠ [] := by
  rintro rfl
  rw [node?, if_pos rfl] at h
  cases h

theorem ne_nil_of_node?_eq_file {f : File} (h : d.node? l = some (.file f)) : l ≠ [] := by
  rintro rfl
  rw [node?, if_pos rfl] at h
  cases h

/-- `l` is on the way of `p`. -/
def IsOnWay (d : Disk) (p : Path) (l : Location) : Prop :=
  ∃ before behind, p.names = before ++ behind ∧ d.walkFrom [] before = .ok l

/-- Making directories makes them on the way only. -/
theorem makeDirectories_keeps {result : Except IoCause Unit}
    (h : d.makeDirectories l names = (result, d')) :
    Keeps (fun _ => False)
      (fun k => ∃ before behind, names = before ++ behind ∧ d'.walkFrom l before = .ok k) d d' := by
  induction names generalizing d l with
  | nil =>
      unfold makeDirectories at h
      split at h
      all_goals
        cases h
        exact .of_sight_eq rfl
  | cons name names ih =>
      unfold makeDirectories at h
      split at h
      · cases h
        exact .of_sight_eq rfl
      · rename_i below hdescend
        obtain ⟨hdir, hchild⟩ := descend_eq_ok_iff.mp hdescend
        -- the way behind the first name is a part of the whole way
        have hway : ∀ {d₁ : Disk}, d₁.sight l = .directory → d₁.makeDirectories below names = (result, d') →
            Keeps (fun _ => False) (fun k => ∃ before behind, name :: names = before ++ behind ∧
              d'.walkFrom l before = .ok k) d₁ d' := by
          intro d₁ hdir₁ h₁
          have hkeeps := ih h₁
          have hfirst := descend_eq_ok_iff.mpr ⟨hkeeps.directory hdir₁, hchild⟩
          refine hkeeps.mono (fun _ => id) ?_
          rintro k ⟨before, behind, rfl, hwalk⟩
          exact ⟨name :: before, behind, rfl, walkFrom_cons_eq_ok_iff.mpr ⟨below, hfirst, hwalk⟩⟩
        split at h
        · exact hway hdir h
        · rename_i habsent
          have hnone := Option.not_isSome_iff_eq_none.mp habsent
          have hne := ne_nil_of_node?_eq_none hnone
          have hput : ∀ k, d.sight k = .directory →
              (d.put below (.directory directoryMode)).sight k = .directory := by
            intro k hk
            by_cases hkb : k = below
            · rw [hkb]
              exact sight_put_directory hne _
            · rw [sight_put hne _ hkb]
              exact hk
          have hrest := hway (hput l hdir) h
          refine Keeps.trans ⟨fun hk => hput _ hk, ?_⟩ hrest
          intro k _
          by_cases hkb : k = below
          · subst hkb
            have hfirst := descend_eq_ok_iff.mpr ⟨hrest.directory (hput l hdir), hchild⟩
            exact .inr ⟨⟨[name], names, rfl, walkFrom_singleton_eq_ok_iff.mpr hfirst⟩,
              sight_eq_nothing_iff.mpr hnone, sight_put_directory hne _⟩
          · exact .inl (sight_put hne _ hkb)

/-- Writing changes what is at one location, where there was no directory. -/
theorem writeAt_keeps {result : Except IoCause Unit} (h : d.writeAt l content = (result, d')) :
    Keeps (· = l) (fun _ => False) d d' := by
  have hput : ∀ f : File, l ≠ [] → d.sight l ≠ .directory → ∀ d' : Disk,
      d'.sight = (d.put l (.file f)).sight → Keeps (· = l) (fun _ => False) d d' := by
    intro f hne hdir d' hd'
    constructor
    · intro k hk
      have hkl : k ≠ l := by
        rintro rfl
        exact hdir hk
      rw [hd', sight_put hne _ hkl]
      exact hk
    · intro k hkl
      rw [hd']
      exact .inl (sight_put hne _ hkl)
  unfold writeAt at h
  split at h
  · cases h
    exact .of_sight_eq rfl
  · rename_i f hf
    cases h
    exact hput _ (ne_nil_of_node?_eq_file hf) (not_directory_of_file hf) _ rfl
  · rename_i hnone
    cases h
    exact hput _ (ne_nil_of_node?_eq_none hnone) (not_directory_of_none hnone) _ rfl

/-- Permissions are not seen. -/
theorem sight_setModeAt {mode : Nat} {result : Except IoCause Unit}
    (h : d.setModeAt l mode = (result, d')) : d'.sight = d.sight := by
  unfold setModeAt at h
  split at h
  · cases h
    rfl
  · rename_i m hdir
    have hsight := sight_eq_directory_iff.mpr ⟨m, hdir⟩
    split at h
    · cases h
      rfl
    · rename_i hne
      cases h
      funext k
      by_cases hkl : k = l
      · rw [hkl, sight_put_directory hne, hsight]
      · exact sight_put hne _ hkl
  · rename_i f hf
    have hne := ne_nil_of_node?_eq_file hf
    cases h
    funext k
    by_cases hkl : k = l
    · rw [hkl, sight_put_file hne, sight_eq_file_iff.mpr ⟨f, hf, rfl⟩]
    · exact sight_put hne _ hkl

theorem renameAt_ok (h : d.renameAt l k = (.ok (), d')) :
    ∃ f, d.node? l = some (.file f) ∧ d.sight k ≠ .directory ∧
      d' = if l = k then d else (d.remove l).put k (.file f) := by
  unfold renameAt at h
  split at h
  · cases h
  · cases h
  · cases h
  · rename_i f hf hdir
    cases h
    refine ⟨f, hf, ?_, rfl⟩
    intro hsight
    obtain ⟨mode, hmode⟩ := sight_eq_directory_iff.mp hsight
    exact hdir mode hmode

/-- Renaming a file leaves every way open. -/
theorem sight_remove_put {f g : File} (hl : d.node? l = some (.file f)) (hk : k ≠ [])
    (hdir : d.sight k ≠ .directory) {j : Location} (hj : d.IsOpen j) :
    ((d.remove l).put k (.file g)).sight j = .directory := by
  have hjk : j ≠ k := by
    rintro rfl
    exact hdir (hj j List.prefix_rfl)
  have hlj : ¬ l <+: j := by
    intro hprefix
    have hfile := sight_eq_file_iff.mpr ⟨f, hl, rfl⟩
    rw [hj l hprefix] at hfile
    cases hfile
  rw [sight_put hk _ hjk, sight, node?_remove, if_neg fun h => hlj h.2]
  exact hj j List.prefix_rfl

/-! ### Performing steps -/

/-- The path of the file that a step writes. -/
def written? : Step → Option Path
  | .write p _ => some p
  | _ => none

/-- The path of the directories that a step makes. -/
def made? : Step → Option Path
  | .createDirectories p => some p
  | _ => none

/-- A step goes from `d` to `d'` and keeps all but what it writes and makes. -/
def KeepsBut (step : Step) (d d' : Disk) : Prop :=
  Keeps (fun l => ∃ p ∈ written? step, d'.locate p = .ok l) (fun l => ∃ p ∈ made? step, d'.IsOnWay p l) d d'

variable {step : Step} {result : Except IoCause Unit} {cause : IoCause} {source target : Path}
  {mode : Nat} {f : File}

theorem apply_createDirectories_keeps (h : d.apply (.createDirectories p) = (result, d')) :
    KeepsBut (.createDirectories p) d d' := by
  rw [apply] at h
  split at h
  · cases h
    exact .of_sight_eq rfl
  · split at h
    · cases h
      exact .of_sight_eq rfl
    · refine (makeDirectories_keeps h).mono (fun _ => False.elim) ?_
      rintro l ⟨before, behind, hnames, hwalk⟩
      exact ⟨p, rfl, before, behind, hnames, hwalk⟩

theorem apply_setMode_keeps (h : d.apply (.setMode p mode) = (result, d')) :
    KeepsBut (.setMode p mode) d d' := by
  rw [apply] at h
  split at h
  · cases h
    exact .of_sight_eq rfl
  · exact .of_sight_eq (sight_setModeAt h)

theorem apply_write_keeps (h : d.apply (.write p content) = (result, d')) :
    KeepsBut (.write p content) d d' := by
  rw [apply] at h
  split at h
  · cases h
    exact .of_sight_eq rfl
  · rename_i l hl
    obtain ⟨-, -, -, -, -, hlocate⟩ := locateFile_eq_ok hl
    have hkeeps := writeAt_keeps h
    refine hkeeps.mono ?_ (fun _ => False.elim)
    rintro k rfl
    exact ⟨p, rfl, hkeeps.locate hlocate⟩

theorem apply_rename_error (h : d.apply (.rename source target) = (.error cause, d')) : d' = d := by
  rw [apply] at h
  split at h
  · cases h
    rfl
  · cases h
    rfl
  · unfold renameAt at h
    split at h
    all_goals
      cases h
    all_goals rfl

/-- What performing a step amounts to: the step is done or refused, or a write or the making of
directories is done in part. -/
theorem perform_cases (h : d.perform step = (result, d')) : ∃ rest,
    ({ d with mishaps := rest } : Disk).apply step = (result, d') ∨
    ∃ cause, result = .error cause ∧ (d' = { d with mishaps := rest } ∨
      (∃ p content result', written? step = some p ∧
        ({ d with mishaps := rest } : Disk).apply (.write p content) = (result', d')) ∨
      ∃ p before behind result', made? step = some p ∧ p.names = before ++ behind ∧
        ({ d with mishaps := rest } : Disk).makeDirectories [] before = (result', d')) := by
  unfold perform at h
  split at h
  · exact ⟨d.mishaps, .inl h⟩
  · rename_i rest _
    exact ⟨rest, .inl h⟩
  · rename_i mishap rest _
    refine ⟨rest, .inr ?_⟩
    unfold applyTorn at h
    split at h
    · cases h
      exact ⟨_, rfl, .inl rfl⟩
    · cases h
      exact ⟨_, rfl, .inr (.inl ⟨_, _, _, rfl, rfl⟩)⟩
    · rename_i length cause p _
      split at h
      · cases h
        exact ⟨_, rfl, .inr (.inr ⟨p, _, _, _, rfl, (List.take_append_drop length p.names).symm, rfl⟩)⟩
      · cases h
        exact ⟨_, rfl, .inl rfl⟩
    · cases h
      exact ⟨_, rfl, .inl rfl⟩

theorem perform_ok (h : d.perform step = (.ok (), d')) :
    ∃ rest, ({ d with mishaps := rest } : Disk).apply step = (.ok (), d') := by
  obtain ⟨rest, happly | ⟨cause, herror, -⟩⟩ := perform_cases h
  · exact ⟨rest, happly⟩
  · cases herror

/-- A step that is no renaming, or a renaming that fails, keeps everything but what it writes and
makes, whatever befalls it. -/
theorem perform_keeps (h : d.perform step = (result, d'))
    (hrename : ∀ source target, step = .rename source target → ∃ cause, result = .error cause) :
    KeepsBut step d d' := by
  obtain ⟨rest, hcases⟩ := perform_cases h
  have hstart : ∀ {X M}, Keeps X M d { d with mishaps := rest } := .of_sight_eq rfl
  rcases hcases with happly | ⟨cause, -, rfl | ⟨p, content, result', hp, happly⟩ |
    ⟨p, before, behind, result', hp, hnames, hmake⟩⟩
  · cases step with
    | createDirectories p => exact hstart.trans (apply_createDirectories_keeps happly)
    | setMode p mode => exact hstart.trans (apply_setMode_keeps happly)
    | write p content => exact hstart.trans (apply_write_keeps happly)
    | rename source target =>
        obtain ⟨cause, rfl⟩ := hrename source target rfl
        rw [apply_rename_error happly]
        exact hstart
  · exact hstart
  · refine hstart.trans ((apply_write_keeps happly).mono ?_ ?_)
    · rintro l ⟨q, hq, hl⟩
      obtain rfl := Option.some_inj.mp hq
      exact ⟨p, hp, hl⟩
    · rintro l ⟨q, hq, -⟩
      cases hq
  · refine hstart.trans ((makeDirectories_keeps hmake).mono (fun _ => False.elim) ?_)
    rintro l ⟨first, others, hbefore, hwalk⟩
    rw [hbefore, List.append_assoc] at hnames
    exact ⟨p, hp, first, _, hnames, hwalk⟩

/-! ### Steps that succeed -/

/-- What is written is there. -/
theorem apply_write_ok (h : d.apply (.write p content) = (.ok (), d')) :
    ∃ l f, d'.locate p = .ok l ∧ d'.node? l = some (.file f) ∧ f.content = content := by
  have hkeeps := apply_write_keeps h
  rw [apply] at h
  split at h
  · cases h
  · rename_i l hl
    obtain ⟨-, -, -, -, -, hlocate⟩ := locateFile_eq_ok hl
    have hl' : d'.locate p = .ok l := hkeeps.locate hlocate
    unfold writeAt at h
    split at h
    · cases h
    · rename_i f hf
      have hne := ne_nil_of_node?_eq_file hf
      cases h
      refine ⟨l, { f with content }, hl', ?_, rfl⟩
      rw [node?_put hne, if_pos rfl]
    · rename_i hnone
      have hne := ne_nil_of_node?_eq_none hnone
      cases h
      refine ⟨l, ⟨d.nextSerial, fileMode, content⟩, hl', ?_, rfl⟩
      change (d.put l _).node? l = _
      rw [node?_put hne, if_pos rfl]

theorem read_of_perform_write (h : d.perform (.write p content) = (.ok (), d')) :
    d'.read p = .ok content := by
  obtain ⟨rest, happly⟩ := perform_ok h
  obtain ⟨l, f, hl, hf, hcontent⟩ := apply_write_ok happly
  exact read_eq_ok_iff.mpr ⟨l, hl, sight_eq_file_iff.mpr ⟨f, hf, hcontent⟩⟩

theorem apply_setMode_ok (h : d.apply (.setMode p mode) = (.ok (), d'))
    (hl : d.locate p = .ok l) (hf : d.node? l = some (.file f)) :
    d'.locate p = .ok l ∧ d'.node? l = some (.file { f with mode }) := by
  have hkeeps := apply_setMode_keeps h
  have hne := ne_nil_of_node?_eq_file hf
  refine ⟨hkeeps.locate hl, ?_⟩
  simp only [apply, hl, setModeAt, hf] at h
  cases h
  rw [node?_put hne, if_pos rfl]

/-- What is renamed is found under its new name. -/
theorem apply_rename_ok (h : d.apply (.rename source target) = (.ok (), d'))
    (hl : d.locate source = .ok l) (hf : d.node? l = some (.file f)) :
    ∃ k, d'.locate target = .ok k ∧ d'.node? k = some (.file f) := by
  simp only [apply, hl] at h
  split at h
  · cases h
  · cases h
  · rename_i s k hs hk
    cases hs
    obtain ⟨dir, name, -, -, rfl, htarget⟩ := locateFile_eq_ok hk
    obtain ⟨g, hg, hdir, rfl⟩ := renameAt_ok h
    obtain rfl := Node.file.inj (Option.some_inj.mp (hf.symm.trans hg))
    refine ⟨dir ++ [name], ?_⟩
    split
    · rename_i hsame
      exact ⟨htarget, hsame ▸ hf⟩
    · have hne : dir ++ [name] ≠ [] := List.concat_ne_nil _ _
      obtain ⟨hcheck, hwalk⟩ := locate_eq_ok_iff.mp htarget
      have hopen : ∀ j, d.IsOpen j → ((d.remove l).put (dir ++ [name]) (.file f)).sight j = .directory :=
        fun j hj => sight_remove_put hf hne hdir hj
      refine ⟨locate_eq_ok_iff.mpr ⟨hcheck, (walk_mono hopen hwalk).1⟩, ?_⟩
      rw [node?_put hne, if_pos rfl]

/-! ### Trees -/

theorem isTree_empty : IsTree .empty := by
  intro l hl
  have hroot : l = [] := by
    by_contra hne
    refine hl (sight_eq_nothing_iff.mpr ?_)
    rw [node?, if_neg hne]
    rfl
  rw [hroot]
  exact isOpen_nil _

theorem IsTree.isOpen (h : d.IsTree) (hl : d.sight l = .directory) : d.IsOpen l := by
  refine isOpen_of_dropLast (h l ?_) hl
  rw [hl]
  exact nofun

/-- A tree stays one if directories stay and whatever is new stands in a directory. -/
theorem IsTree.of_directories (h : d.IsTree) (hdir : ∀ k, d.IsOpen k → d'.sight k = .directory)
    (hnew : ∀ k, d'.sight k ≠ .nothing → d.sight k ≠ .nothing ∨ d.IsOpen k.dropLast) : d'.IsTree := by
  intro k hk j hj
  have hopen : d.IsOpen k.dropLast := by
    rcases hnew k hk with hold | hopen
    · exact h k hold
    · exact hopen
  exact hdir j (hopen.of_prefix hj)

theorem IsTree.put (h : d.IsTree) (hl : l ≠ []) (hopen : d.IsOpen l.dropLast)
    (hdir : d.sight l = .directory → (d.put l n).sight l = .directory) : (d.put l n).IsTree := by
  refine h.of_directories ?_ ?_
  · intro k hk
    by_cases hkl : k = l
    · rw [hkl] at hk ⊢
      exact hdir (hk l List.prefix_rfl)
    · rw [sight_put hl _ hkl]
      exact hk k List.prefix_rfl
  · intro k hk
    by_cases hkl : k = l
    · rw [hkl]
      exact .inr hopen
    · rw [sight_put hl _ hkl] at hk
      exact .inl hk

theorem IsTree.of_sight_eq (h : d.IsTree) (hsight : d'.sight = d.sight) : d'.IsTree := by
  unfold IsTree IsOpen
  rw [hsight]
  exact h

theorem IsTree.makeDirectories (h : d.IsTree)
    (hmake : d.makeDirectories l names = (result, d')) : d'.IsTree := by
  induction names generalizing d l with
  | nil =>
      unfold Disk.makeDirectories at hmake
      split at hmake
      all_goals
        cases hmake
        exact h
  | cons name names ih =>
      unfold Disk.makeDirectories at hmake
      split at hmake
      · cases hmake
        exact h
      · rename_i below hdescend
        obtain ⟨hdir, hchild⟩ := descend_eq_ok_iff.mp hdescend
        split at hmake
        · exact ih h hmake
        · rename_i habsent
          have hnone := Option.not_isSome_iff_eq_none.mp habsent
          have hne := ne_nil_of_node?_eq_none hnone
          refine ih (h.put hne ((h.isOpen hdir).child? hchild) ?_) hmake
          intro _
          exact sight_put_directory hne _

theorem IsTree.apply_write (h : d.IsTree) (happly : d.apply (.write p content) = (result, d')) :
    d'.IsTree := by
  rw [Disk.apply] at happly
  split at happly
  · cases happly
    exact h
  · rename_i l hl
    obtain ⟨dir, name, -, hopen, rfl, -⟩ := locateFile_eq_ok hl
    have hne : dir ++ [name] ≠ [] := List.concat_ne_nil _ _
    have hput : ∀ f, d.sight (dir ++ [name]) ≠ .directory → (d.put (dir ++ [name]) (.file f)).IsTree := by
      intro f hfile
      refine h.put hne ?_ (fun hdir => absurd hdir hfile)
      rwa [List.dropLast_concat]
    unfold writeAt at happly
    split at happly
    · cases happly
      exact h
    · rename_i f hf
      cases happly
      exact hput _ (not_directory_of_file hf)
    · rename_i hnone
      cases happly
      exact (hput ⟨d.nextSerial, fileMode, content⟩ (not_directory_of_none hnone)).of_sight_eq rfl

theorem IsTree.apply_rename (h : d.IsTree) (happly : d.apply (.rename source target) = (.ok (), d')) :
    d'.IsTree := by
  rw [Disk.apply] at happly
  split at happly
  · cases happly
  · cases happly
  · rename_i s t hs ht
    obtain ⟨dir, name, -, hopen, rfl, -⟩ := locateFile_eq_ok ht
    obtain ⟨f, hf, hdir, rfl⟩ := renameAt_ok happly
    split
    · exact h
    · have hne : dir ++ [name] ≠ [] := List.concat_ne_nil _ _
      refine h.of_directories (fun j hj => sight_remove_put hf hne hdir hj) ?_
      intro k hk
      by_cases hkt : k = dir ++ [name]
      · rw [hkt, List.dropLast_concat]
        exact .inr hopen
      · refine .inl fun hnothing => hk ?_
        rw [sight_put hne _ hkt, sight_eq_nothing_iff, node?_remove]
        split
        · rfl
        · exact sight_eq_nothing_iff.mp hnothing

/-- A disk stays a tree whatever steps are performed on it and whatever befalls them. -/
theorem IsTree.perform (h : d.IsTree) (step : Step) : (d.perform step).2.IsTree := by
  generalize hperform : d.perform step = performed
  obtain ⟨result, d'⟩ := performed
  obtain ⟨rest, hcases⟩ := perform_cases hperform
  have hstart : IsTree { d with mishaps := rest } := h.of_sight_eq rfl
  rcases hcases with happly | ⟨cause, -, rfl | ⟨p, content, result', -, happly⟩ |
    ⟨p, before, behind, result', -, -, hmake⟩⟩
  · cases step with
    | createDirectories p =>
        rw [Disk.apply] at happly
        split at happly
        · cases happly
          exact hstart
        · split at happly
          · cases happly
            exact hstart
          · exact hstart.makeDirectories happly
    | setMode p mode =>
        rw [Disk.apply] at happly
        split at happly
        · cases happly
          exact hstart
        · exact hstart.of_sight_eq (sight_setModeAt happly)
    | write p content => exact hstart.apply_write happly
    | rename source target =>
        cases result with
        | error cause =>
            rw [apply_rename_error happly]
            exact hstart
        | ok _ => exact hstart.apply_rename happly
  · exact hstart
  · exact hstart.apply_write happly
  · exact hstart.makeDirectories hmake

end PipelineRegistry.Disk
