import Mathlib
import PipelineRegistry.Proofs.Storage.Interruption

/-! # Paths at which a registry can be saved

The other modules say what is there after a step that has succeeded.  This one says when the steps of a
save do succeed: on a calm disk, on which nothing befalls a step, and for a path that ends in a file name
and on whose way only directories stand (`Usable`).  The way is then made as far as it is missing, the
draft is written beside the document, and the renaming ends the save.

One kind of usable path is an exception.  A path without a separator has the empty path as its parent,
nothing is present there, making it does nothing, and setting its permissions fails. -/

namespace PipelineRegistry

open Calendar Chain Disk

namespace Path

/-- The location that a path without `..` spells. -/
def spelled (names : List FileName) : Location := names.filter (· ≠ currentName)

theorem spelled_append (names others : List FileName) :
    spelled (names ++ others) = spelled names ++ spelled others :=
  List.filter_append names others

theorem spelled_singleton {name : FileName} (h : name ≠ currentName) : spelled [name] = [name] :=
  List.filter_cons_of_pos (decide_eq_true h)

theorem spelled_slash (p : Path) : spelled p.slash = [] :=
  filter_eq_nil_of_dots fun _ => eq_currentName_of_mem_slash

variable {p dir : Path} {name : FileName}

theorem mem_of_mem_pieces {bytes piece : List UInt8} {b : UInt8} (h : piece ∈ pieces bytes)
    (hb : b ∈ piece) : b ∈ bytes := by
  induction bytes generalizing piece with
  | nil =>
      rw [pieces, List.mem_singleton] at h
      rwa [h] at hb
  | cons c rest ih =>
      obtain ⟨first, others, hpieces⟩ := List.exists_cons_of_ne_nil (pieces_ne_nil rest)
      rw [hpieces] at ih
      rw [pieces, hpieces] at h
      split at h
      · rcases List.mem_cons.mp h with rfl | hmem
        · cases hb
        · exact List.mem_cons_of_mem _ (ih hmem hb)
      · rcases List.mem_cons.mp h with rfl | hmem
        · rcases List.mem_cons.mp hb with rfl | hb
          · exact List.mem_cons_self
          · exact List.mem_cons_of_mem _ (ih List.mem_cons_self hb)
        · exact List.mem_cons_of_mem _ (ih (List.mem_cons_of_mem _ hmem) hb)

theorem mem_join {q : Path} {b : UInt8} (h : b ∈ (p.join q).bytes) :
    b ∈ p.bytes ∨ b = separator ∨ b ∈ q.bytes := by
  unfold join at h
  split_ifs at h
  · exact .inr (.inr h)
  · exact (List.mem_append.mp h).imp_right .inr
  · exact (List.mem_append.mp h).imp_right List.mem_cons.mp

theorem eq_nil_of_joined {ps : List (List UInt8)} (hps : trimmed ps = ps) (h : joined ps = []) :
    ps = [] := by
  rcases ps with _ | ⟨piece, _ | ⟨next, others⟩⟩
  · rfl
  · rw [show piece = [] from h] at hps
    cases hps
  · rw [joined, List.append_eq_nil_iff] at h
    · cases h.2
    · exact List.cons_ne_nil _ _

theorem trimmed_trimmed (ps : List (List UInt8)) : trimmed (trimmed ps) = trimmed ps := by
  rw [trimmed, trimmed, List.reverse_reverse, List.dropWhile_idempotent]

/-- A path that begins with a piece that stands for nothing has an anchor. -/
theorem anchor_ne_nil {piece next : List UInt8} {others : List (List UInt8)}
    (h : pieces p.bytes = piece :: next :: others) (hpiece : isSkipped piece) : p.anchor ≠ [] := by
  have hbytes : p.bytes = piece ++ separator :: joined (next :: others) := by
    rw [← joined_pieces p.bytes, h, joined]
    exact List.cons_ne_nil _ _
  unfold anchor
  rcases of_decide_eq_true hpiece with rfl | rfl
  · rw [hbytes, List.nil_append]
    generalize joined (next :: others) = rest
    cases rest with
    | nil => simp
    | cons b rest => simp
  · rw [hbytes, List.singleton_append]
    simp

/-- The parent of a path is the empty path exactly where the path is a file name alone. -/
theorem parent_bytes_eq_nil_iff (h : (pieces p.bytes).getLast? = some name) (hname : IsFileName name)
    (hdir : p.parent = some dir) : dir.bytes = [] ↔ separator ∉ p.bytes := by
  have hbody := getLast?_body h hname
  have htrimmed : trimmed p.body = p.body := trimmed_of_getLast? hbody hname.isSkipped_eq_false
  have hlast : p.last? = some name := by rw [last?, htrimmed, hbody]
  obtain ⟨init, hinit⟩ := List.getLast?_eq_some_iff.mp hbody
  have hfront : p.front = trimmed init := by rw [front, htrimmed, hinit, List.dropLast_concat]
  have hbytes : dir.bytes = p.anchor ++ joined (trimmed init) := by
    rw [parent_of_last? hlast, hfront] at hdir
    exact (congrArg bytes (Option.some_inj.mp hdir)).symm
  rw [hbytes, List.append_eq_nil_iff]
  constructor
  · rintro ⟨hanchor, hjoined⟩
    have hpieces : pieces p.bytes = init ++ [name] := by
      rw [← hinit, body, hanchor]
      rfl
    obtain ⟨tail, htail, hskipped⟩ := exists_trimmed_append init
    rw [eq_nil_of_joined (trimmed_trimmed init) hjoined, List.nil_append] at htail
    -- a piece in front of the name would stand for nothing, and the path would have an anchor
    have hnone : init = [] := by
      cases init with
      | nil => rfl
      | cons piece init =>
          obtain ⟨next, others, hnext⟩ := List.exists_cons_of_ne_nil (List.concat_ne_nil name init)
          rw [List.cons_append, hnext] at hpieces
          exact absurd hanchor (anchor_ne_nil hpieces (hskipped piece (htail ▸ List.mem_cons_self)))
    rw [← joined_pieces p.bytes, hpieces, hnone]
    exact hname.not_mem
  · intro hsep
    obtain ⟨bytes⟩ := p
    rw [pieces_of_not_mem hsep] at h
    obtain rfl : bytes = name := Option.some_inj.mp h
    have hanchor := anchor_of_isFileName hname
    have hnone : init = [] := by
      rw [body, hanchor, List.length_nil, List.drop_zero, pieces_of_not_mem hsep] at hinit
      exact List.self_eq_append_left.mp hinit
    rw [hnone]
    exact ⟨hanchor, rfl⟩

end Path

/-! ### Ways -/

namespace Disk

variable {d d' : Disk} {l k : Location} {name : FileName} {names : List FileName} {p : Path}
  {content : ByteArray} {mode : Nat}

/-- The location that names spell when they are gone from `l`. -/
theorem child?_of_short (hname : name ≠ Path.parentName) (hshort : name.length ≤ Path.maxNameLength) :
    child? l name = some (l ++ Path.spelled [name]) := by
  unfold child?
  by_cases hcurrent : name = Path.currentName
  · rw [if_pos hcurrent, Path.spelled, List.filter_cons_of_neg (by simpa using hcurrent),
      List.filter_nil, List.append_nil]
  · rw [if_neg hcurrent, if_neg hname, if_neg (by omega), Path.spelled_singleton hcurrent]

/-- A way down over directories can be gone. -/
theorem walkFrom_of_isOpen (hdown : Path.parentName ∉ names)
    (hshort : ∀ name ∈ names, name.length ≤ Path.maxNameLength)
    (hopen : d.IsOpen (l ++ Path.spelled names)) :
    d.walkFrom l names = .ok (l ++ Path.spelled names) := by
  induction names generalizing l with
  | nil =>
      rw [Path.spelled, List.filter_nil, List.append_nil]
      exact walkFrom_nil_eq_ok_iff.mpr rfl
  | cons name names ih =>
      rw [List.mem_cons, not_or] at hdown
      obtain ⟨hfirst, hrest⟩ := List.forall_mem_cons.mp hshort
      have hsplit : l ++ Path.spelled (name :: names) =
          l ++ Path.spelled [name] ++ Path.spelled names := by
        rw [← List.singleton_append, Path.spelled_append, List.append_assoc]
      rw [hsplit] at hopen ⊢
      have hchild := child?_of_short (l := l) (Ne.symm hdown.1) hfirst
      have hdir : d.sight l = .directory := by
        refine hopen l ?_
        rw [List.append_assoc]
        exact List.prefix_append _ _
      exact walkFrom_cons_eq_ok_iff.mpr
        ⟨_, descend_eq_ok_iff.mpr ⟨hdir, hchild⟩, ih hdown.2 hrest hopen⟩

/-- No file stands on the way down to a location. -/
def IsFree (d : Disk) (l : Location) : Prop :=
  ∀ k, k <+: l → d.sight k = .directory ∨ d.sight k = .nothing

/-- Directories can be made where no file stands in the way. -/
theorem makeDirectories_ok (hdown : Path.parentName ∉ names)
    (hshort : ∀ name ∈ names, name.length ≤ Path.maxNameLength) (hl : d.IsOpen l)
    (hfree : d.IsFree (l ++ Path.spelled names)) :
    ∃ d', d.makeDirectories l names = (.ok (), d') ∧ d'.IsOpen (l ++ Path.spelled names) := by
  induction names generalizing d l with
  | nil =>
      rw [Path.spelled, List.filter_nil, List.append_nil]
      refine ⟨d, ?_, hl⟩
      obtain ⟨mode, hmode⟩ := sight_eq_directory_iff.mp (hl l List.prefix_rfl)
      rw [makeDirectories, hmode]
  | cons name names ih =>
      rw [List.mem_cons, not_or] at hdown
      obtain ⟨hfirst, hrest⟩ := List.forall_mem_cons.mp hshort
      have hsplit : l ++ Path.spelled (name :: names) =
          l ++ Path.spelled [name] ++ Path.spelled names := by
        rw [← List.singleton_append, Path.spelled_append, List.append_assoc]
      rw [hsplit] at hfree ⊢
      have hchild := child?_of_short (l := l) (Ne.symm hdown.1) hfirst
      have habove : d.IsOpen (l ++ Path.spelled [name]).dropLast := hl.child? hchild
      have hdescend := descend_eq_ok_iff.mpr ⟨hl l List.prefix_rfl, hchild⟩
      generalize l ++ Path.spelled [name] = below at *
      rw [makeDirectories, hdescend]
      simp only
      split
      · rename_i hsome
        refine ih hdown.2 hrest (isOpen_of_dropLast habove ?_) hfree
        rcases hfree below (List.prefix_append _ _) with hdir | hnothing
        · exact hdir
        · rw [sight_eq_nothing_iff.mp hnothing] at hsome
          cases hsome
      · rename_i habsent
        have hnone := Option.not_isSome_iff_eq_none.mp habsent
        have hne := ne_nil_of_node?_eq_none hnone
        refine ih hdown.2 hrest (isOpen_of_dropLast ?_ (sight_put_directory hne _)) ?_
        · intro k hk
          by_cases hkb : k = below
          · rw [hkb]
            exact sight_put_directory hne _
          · rw [sight_put hne _ hkb]
            exact habove k hk
        · intro k hk
          by_cases hkb : k = below
          · rw [hkb]
            exact .inl (sight_put_directory hne _)
          · rw [sight_put hne _ hkb]
            exact hfree k hk

/-- A path is located behind a way over directories. -/
theorem locate_of_isOpen (hcheck : p.check = .ok ()) (hdown : Path.parentName ∉ p.names)
    (hshort : ∀ name ∈ p.names, name.length ≤ Path.maxNameLength)
    (hopen : d.IsOpen (Path.spelled p.names)) : d.locate p = .ok (Path.spelled p.names) := by
  have hspelled : Path.spelled p.route = Path.spelled p.names := by
    rw [Path.route, Path.spelled_append, Path.spelled_slash, List.append_nil]
  rw [← hspelled] at hopen ⊢
  refine locate_eq_ok_iff.mpr ⟨hcheck, ?_⟩
  refine walkFrom_of_isOpen (l := []) (Path.parentName_not_mem_append_slash hdown p) ?_ hopen
  intro name hname
  rcases List.mem_append.mp hname with hname | hname
  · exact hshort name hname
  · rw [Path.eq_currentName_of_mem_slash hname]
    decide

/-- A file can be put behind a way over directories. -/
theorem locateFile_of_isOpen {dots slash : IoCause} {front : List FileName} (hcheck : p.check = .ok ())
    (hend : p.endsInSeparator = false) (hnames : p.names = front ++ [name])
    (hname : Path.IsFileName name) (hdown : Path.parentName ∉ p.names)
    (hshort : ∀ name ∈ p.names, name.length ≤ Path.maxNameLength)
    (hopen : d.IsOpen (Path.spelled front)) :
    d.locateFile dots slash p = .ok (Path.spelled front ++ [name]) := by
  rw [hnames] at hdown hshort
  have hfront : Path.parentName ∉ front := fun hmem => hdown (List.mem_append_left _ hmem)
  have hwalk : d.walk (front ++ [Path.currentName]) = .ok (Path.spelled front) := by
    refine walkFrom_append_eq_ok_iff.mpr ⟨_, walkFrom_of_isOpen (l := []) hfront ?_ hopen, ?_⟩
    · exact fun name hmem => hshort name (List.mem_append_left _ hmem)
    · exact walkFrom_singleton_eq_ok_iff.mpr
        (descend_eq_ok_iff.mpr ⟨hopen _ List.prefix_rfl, if_pos rfl⟩)
  have hdescend : d.descend (Path.spelled front) name = .ok (Path.spelled front ++ [name]) := by
    rw [descend_eq_ok_iff, ← Path.spelled_singleton hname.ne_current]
    exact ⟨hopen _ List.prefix_rfl, child?_of_short hname.ne_parent (hshort name (by simp))⟩
  have hdots : ¬ (name = Path.currentName ∨ name = Path.parentName) :=
    not_or.mpr ⟨hname.ne_current, hname.ne_parent⟩
  simp only [locateFile, hcheck, hnames, hend, hdots, List.dropLast_concat, List.getLast?_concat,
    hwalk, if_false, Bool.false_eq_true]
  exact hdescend

/-! ### Calm disks -/

/-- Nothing befalls the coming steps. -/
def IsCalm (d : Disk) : Prop := ∀ mishap ∈ d.mishaps, mishap = none

theorem IsCalm.perform_eq (h : d.IsCalm) (step : Step) :
    d.perform step = ({ d with mishaps := d.mishaps.tail } : Disk).apply step := by
  obtain ⟨entries, nextSerial, mishaps⟩ := d
  cases mishaps with
  | nil => rfl
  | cons mishap rest =>
      obtain rfl := h mishap List.mem_cons_self
      rfl

theorem mishaps_makeDirectories (d : Disk) (l : Location) (names : List FileName) :
    (d.makeDirectories l names).2.mishaps = d.mishaps := by
  induction names generalizing d l with
  | nil =>
      unfold makeDirectories
      split <;> rfl
  | cons name names ih =>
      unfold makeDirectories
      split
      · rfl
      · split
        · exact ih _ _
        · exact ih _ _

theorem mishaps_setModeAt (d : Disk) (l : Location) (mode : ℕ) :
    (d.setModeAt l mode).2.mishaps = d.mishaps := by
  unfold setModeAt
  split
  · rfl
  · split_ifs <;> rfl
  · rfl

theorem mishaps_writeAt (d : Disk) (l : Location) (content : ByteArray) :
    (d.writeAt l content).2.mishaps = d.mishaps := by
  unfold writeAt
  split <;> rfl

theorem mishaps_renameAt (d : Disk) (s t : Location) : (d.renameAt s t).2.mishaps = d.mishaps := by
  unfold renameAt
  split
  · rfl
  · rfl
  · rfl
  · split_ifs <;> rfl

theorem mishaps_apply (d : Disk) (step : Step) : (d.apply step).2.mishaps = d.mishaps := by
  cases step with
  | createDirectories p =>
      rw [apply]
      split
      · rfl
      · split
        · rfl
        · exact mishaps_makeDirectories _ _ _
  | setMode p mode =>
      rw [apply]
      split
      · rfl
      · exact mishaps_setModeAt _ _ _
  | write p content =>
      rw [apply]
      split
      · rfl
      · exact mishaps_writeAt _ _ _
  | rename source target =>
      rw [apply]
      split
      · rfl
      · rfl
      · exact mishaps_renameAt _ _ _

/-- A calm disk stays calm, whatever is done. -/
theorem IsCalm.perform (h : d.IsCalm) (step : Step) : (d.perform step).2.IsCalm := by
  rw [h.perform_eq step, IsCalm, mishaps_apply]
  exact fun mishap hmem => h mishap (List.mem_of_mem_tail hmem)

theorem IsCalm.of_perform_eq {step : Step} {result : Except IoCause Unit} (h : d.IsCalm)
    (hstep : d.perform step = (result, d')) : d'.IsCalm := by
  have hcalm := h.perform step
  rwa [hstep] at hcalm

/-! ### Steps that can be done -/

theorem perform_createDirectories_ok (h : d.IsCalm) (hcheck : p.check = .ok ())
    (hdown : Path.parentName ∉ p.names)
    (hshort : ∀ name ∈ p.names, name.length ≤ Path.maxNameLength)
    (hfree : d.IsFree (Path.spelled p.names)) :
    ∃ d', d.perform (.createDirectories p) = (.ok (), d') ∧ d'.IsOpen (Path.spelled p.names) ∧
      ∀ k, ¬ k <+: Path.spelled p.names → d'.sight k = d.sight k := by
  obtain ⟨d', hmake, hopen⟩ := makeDirectories_ok (d := { d with mishaps := d.mishaps.tail })
    (l := []) hdown hshort (isOpen_nil _) hfree
  refine ⟨d', ?_, hopen, ?_⟩
  · rw [h.perform_eq, apply, if_neg (Path.check_eq_ok_iff.mp hcheck).2.1, hcheck]
    exact hmake
  · intro k hk
    rcases (makeDirectories_keeps hmake).elsewhere (l := k) id with hsame | ⟨hway, -⟩
    · exact hsame
    · obtain ⟨before, behind, hnames, hwalk⟩ := hway
      refine absurd ?_ hk
      have hbefore : Path.parentName ∉ before := by
        rw [hnames] at hdown
        exact fun hmem => hdown (List.mem_append_left _ hmem)
      rw [eq_append_of_walkFrom hbefore hwalk, hnames, Path.spelled_append]
      exact List.prefix_append _ _

theorem perform_setMode_ok (mode : Nat) (h : d.IsCalm) (hl : d.locate p = .ok l)
    (hsome : d.sight l ≠ .nothing) :
    ∃ d', d.perform (.setMode p mode) = (.ok (), d') ∧ d'.sight = d.sight := by
  have happly : d.perform (.setMode p mode) =
      ({ d with mishaps := d.mishaps.tail } : Disk).setModeAt l mode := by
    have hl' : ({ d with mishaps := d.mishaps.tail } : Disk).locate p = .ok l := hl
    rw [h.perform_eq, apply, hl']
  have hdone : ∃ d', ({ d with mishaps := d.mishaps.tail } : Disk).setModeAt l mode = (.ok (), d') := by
    obtain ⟨n, hn⟩ := Option.ne_none_iff_exists'.mp (fun hnone => hsome (sight_eq_nothing_iff.mpr hnone))
    have hn' : ({ d with mishaps := d.mishaps.tail } : Disk).node? l = some n := hn
    rw [setModeAt, hn']
    cases n with
    | file f => exact ⟨_, rfl⟩
    | directory m => exact ⟨_, rfl⟩
  obtain ⟨d', hd'⟩ := hdone
  exact ⟨d', happly.trans hd', (sight_setModeAt hd').trans rfl⟩

theorem perform_write_ok (content : ByteArray) (h : d.IsCalm)
    (hl : d.locateFile .isDirectory .isDirectory p = .ok l) (hdir : d.sight l ≠ .directory) :
    ∃ d', d.perform (.write p content) = (.ok (), d') ∧ d'.sight l = .file content ∧
      ∀ k, k ≠ l → d'.sight k = d.sight k := by
  have happly : d.perform (.write p content) =
      ({ d with mishaps := d.mishaps.tail } : Disk).writeAt l content := by
    have hl' : ({ d with mishaps := d.mishaps.tail } : Disk).locateFile .isDirectory .isDirectory p =
        .ok l := hl
    rw [h.perform_eq, apply, hl']
  rw [happly, writeAt]
  split
  · rename_i m hm
    exact absurd (sight_eq_directory_iff.mpr ⟨m, hm⟩) hdir
  · rename_i f hf
    have hne := ne_nil_of_node?_eq_file hf
    exact ⟨_, rfl, sight_put_file hne _, fun k hk => sight_put hne _ hk⟩
  · rename_i hnone
    have hne := ne_nil_of_node?_eq_none hnone
    exact ⟨_, rfl, sight_put_file hne _, fun k hk => sight_put hne _ hk⟩

theorem perform_rename_ok {source target : Path} {s t : Location} (h : d.IsCalm)
    (hs : d.locate source = .ok s) (hfile : d.sight s = .file content)
    (ht : d.locateFile .busy .notDirectory target = .ok t) (hdir : d.sight t ≠ .directory) :
    ∃ d', d.perform (.rename source target) = (.ok (), d') := by
  have hs' : ({ d with mishaps := d.mishaps.tail } : Disk).locate source = .ok s := hs
  have ht' : ({ d with mishaps := d.mishaps.tail } : Disk).locateFile .busy .notDirectory target =
      .ok t := ht
  obtain ⟨f, hf, -⟩ := sight_eq_file_iff.mp hfile
  rw [h.perform_eq, apply, hs', ht']
  simp only [renameAt]
  split
  · rename_i hnone
    cases hnone.symm.trans hf
  · rename_i hdirectory
    cases hdirectory.symm.trans hf
  · rename_i hdirectory _ _
    exact absurd (sight_eq_directory_iff.mpr ⟨_, hdirectory⟩) hdir
  · exact ⟨_, rfl⟩

end Disk

/-! ### Usable paths -/

/-- A document can be saved at the path, as far as one can see: nothing befalls a step, a file system
takes the path and that of the draft with all the names in them, the path ends in a file name and does
not climb, and there is no file on its way and no directory in the place of the document or its draft. -/
structure Usable (d : Disk) (document : Path) : Prop where
  calm : d.IsCalm
  nulFree : 0 ∉ document.bytes
  length : document.bytes.length ≤ Path.maxLength
  draftLength : (Workspace.draft document).bytes.length ≤ Path.maxLength
  fileName : ∃ name, (Path.pieces document.bytes).getLast? = some name ∧ Path.IsFileName name
  down : Path.parentName ∉ document.names
  short : ∀ name ∈ document.names, name.length ≤ Path.maxNameLength
  draftShort : (Workspace.draftName document).length ≤ Path.maxNameLength
  free : d.IsFree (Path.spelled document.names).dropLast
  documentSight : d.sight (Path.spelled document.names) ≠ .directory
  draftSight : d.sight (Path.spelled (Workspace.draft document).names) ≠ .directory

/-- The ways to a document and to its draft lead through `dir`, to `name` in the case of the document. -/
structure Way (document dir : Path) (front : List FileName) (name : FileName) : Prop where
  isFileName : Path.IsFileName name
  parent : document.parent = some dir
  prefix_bytes : dir.bytes <+: document.bytes
  names : document.names = front ++ [name]
  names_prefix : dir.names <+: front
  spelled_front : Path.spelled front = Path.spelled dir.names
  fileName : document.fileName = some name
  draft : Workspace.draft document = dir.join ⟨Workspace.draftName document⟩

namespace Way

variable {document dir : Path} {front : List FileName} {name : FileName}
  (w : Way document dir front name)
include w

theorem names_draft :
    (Workspace.draft document).names = dir.names ++ [Workspace.draftName document] := by
  have hdraft := Workspace.isFileName_draftName document
  rw [w.draft, Path.names_join dir hdraft.ne_nil hdraft.not_mem]

theorem location_document :
    Path.spelled document.names = Path.spelled dir.names ++ [name] := by
  rw [w.names, Path.spelled_append, w.spelled_front, Path.spelled_singleton w.isFileName.ne_current]

theorem location_draft : Path.spelled (Workspace.draft document).names =
    Path.spelled dir.names ++ [Workspace.draftName document] := by
  rw [w.names_draft, Path.spelled_append,
    Path.spelled_singleton (Workspace.isFileName_draftName document).ne_current]

theorem mem_names {x : FileName} (hx : x ∈ dir.names) : x ∈ document.names := by
  rw [w.names]
  exact List.mem_append_left _ (w.names_prefix.subset hx)

end Way

/-- What stands below a location is not on the way there. -/
theorem not_prefix_concat (l : Location) (name : FileName) : ¬ l ++ [name] <+: l := by
  intro hprefix
  have hlength := hprefix.length_le
  rw [List.length_append, List.length_singleton] at hlength
  omega

namespace Usable

variable {d : Disk} {document dir : Path} {front : List FileName} {name : FileName}

theorem exists_way (h : Usable d document) : ∃ dir front name, Way document dir front name := by
  obtain ⟨name, hpiece, hname⟩ := h.fileName
  obtain ⟨hlast, -⟩ := Path.names_of_lastPiece hpiece hname
  have hfile := Path.fileName_of_getLast?_names hlast hname.ne_current hname.ne_parent
  have hcomponent := Path.last?_of_getLast?_names hlast hname.ne_current
  have hparent := Path.parent_of_last? hcomponent
  obtain ⟨between, behind, hnames, hdots⟩ := Path.exists_names_eq hcomponent hparent
  -- the file name ends the path, so that nothing stands behind it
  have hbehind : behind = [] := by
    rcases List.eq_nil_or_concat' behind with rfl | ⟨init, last, rfl⟩
    · rfl
    · rw [hnames, ← List.cons_append, ← List.append_assoc, List.getLast?_concat] at hlast
      exact absurd ((Option.some_inj.mp hlast).symm.trans (hdots last (by simp))) hname.ne_current
  rw [hbehind] at hnames
  refine ⟨_, _, name, hname, hparent, Path.parent_prefix hcomponent hparent, hnames,
    List.prefix_append _ _, ?_, hfile, ?_⟩
  · have hbetween : Path.spelled between = [] :=
      Path.filter_eq_nil_of_dots fun x hx => hdots x (List.mem_append_left _ hx)
    rw [Path.spelled_append, hbetween, List.append_nil]
  · rw [Workspace.draft_eq, Workspace.draftDirectory, hfile, hparent]
    rfl

variable (h : Usable d document) (w : Way document dir front name)
include h w

theorem check : document.check = .ok () := by
  refine Path.check_eq_ok_iff.mpr ⟨h.nulFree, ?_, h.length⟩
  intro hnil
  have hnames := w.names
  rw [Path.names, hnil] at hnames
  exact List.concat_ne_nil _ _ hnames.symm

theorem check_draft : (Workspace.draft document).check = .ok () := by
  refine Path.check_eq_ok_iff.mpr ⟨?_, ?_, h.draftLength⟩
  · intro hzero
    rw [w.draft] at hzero
    rcases Path.mem_join hzero with hdir | hsep | hname
    · exact h.nulFree (w.prefix_bytes.subset hdir)
    · cases hsep
    · rw [Workspace.draftName, w.fileName, Option.getD_some] at hname
      rcases List.mem_append.mp hname with hname | hsuffix
      · have hmem : name ∈ document.names := by
          rw [w.names]
          exact List.mem_concat_self
        exact h.nulFree (Path.mem_of_mem_pieces (List.mem_filter.mp hmem).1 hname)
      · revert hsuffix
        decide
  · intro hnil
    have hnames := w.names_draft
    rw [Path.names, hnil] at hnames
    exact List.concat_ne_nil _ _ hnames.symm

theorem parentName_not_mem_dir : Path.parentName ∉ dir.names :=
  fun hmem => h.down (w.mem_names hmem)

theorem short_dir : ∀ x ∈ dir.names, x.length ≤ Path.maxNameLength :=
  fun x hx => h.short x (w.mem_names hx)

theorem free_dir : d.IsFree (Path.spelled dir.names) := by
  have hfree := h.free
  rwa [w.location_document, List.dropLast_concat] at hfree

/-- The directory of the document is there, or it can be made, unless its path is empty. -/
theorem prepareDirectory_ok (hne : dir.bytes ≠ []) :
    ∃ d', (Storage.prepareDirectory document : StateM Disk _) d = (.ok (), d') ∧ d'.IsCalm ∧
      d'.IsOpen (Path.spelled dir.names) ∧
      ∀ k, ¬ k <+: Path.spelled dir.names → d'.sight k = d.sight k := by
  have hcheck : dir.check = .ok () := Path.check_of_prefix w.prefix_bytes hne (h.check w)
  have hdown := h.parentName_not_mem_dir w
  have hshort := h.short_dir w
  rw [Storage.prepareDirectory_run, w.parent]
  simp only
  split
  · -- where the directory is present, all directories above it are
    rename_i hpresent
    obtain ⟨l, hl, hsome⟩ := isPresent_iff.mp hpresent
    obtain ⟨-, hwalk⟩ := locate_eq_ok_iff.mp hl
    have hspelled : l = Path.spelled dir.names := by
      have hroute := eq_append_of_walkFrom (Path.parentName_not_mem_append_slash hdown dir) hwalk
      rw [List.nil_append] at hroute
      rw [hroute]
      change Path.spelled (dir.names ++ dir.slash) = _
      rw [Path.spelled_append, Path.spelled_slash, List.append_nil]
    have habove := (walk_mono (fun k hk => hk k List.prefix_rfl) hwalk).2
    rw [hspelled] at hsome habove
    have hdirectory := (h.free_dir w _ List.prefix_rfl).resolve_right hsome
    exact ⟨d, rfl, h.calm, isOpen_of_dropLast habove hdirectory, fun _ _ => rfl⟩
  · obtain ⟨d₁, hmake, hopen, hsame⟩ :=
      perform_createDirectories_ok h.calm hcheck hdown hshort (h.free_dir w)
    have hcalm₁ : d₁.IsCalm := h.calm.of_perform_eq hmake
    have hlocate : d₁.locate dir = .ok (Path.spelled dir.names) :=
      locate_of_isOpen hcheck hdown hshort hopen
    have hsome : d₁.sight (Path.spelled dir.names) ≠ .nothing := by
      rw [hopen _ List.prefix_rfl]
      exact nofun
    obtain ⟨d₂, hmode, hsight⟩ := perform_setMode_ok Storage.directoryMode hcalm₁ hlocate hsome
    refine ⟨d₂, ?_, hcalm₁.of_perform_eq hmode, ?_, ?_⟩
    · rw [Storage.directorySteps, Storage.performAll_cons_run, hmake]
      simp only [Storage.performAll_cons_run, hmode]
      rfl
    · intro k hk
      rw [hsight]
      exact hopen k hk
    · intro k hk
      rw [hsight]
      exact hsame k hk

/-- Once the directory is there, a file can be put where the draft is to be. -/
theorem locateFile_draft {d₁ : Disk} (hopen : d₁.IsOpen (Path.spelled dir.names)) (dots slash : IoCause) :
    d₁.locateFile dots slash (Workspace.draft document) =
      .ok (Path.spelled dir.names ++ [Workspace.draftName document]) := by
  have hname := Workspace.isFileName_draftName document
  have hdown : Path.parentName ∉ (Workspace.draft document).names := by
    rw [w.names_draft, List.mem_append, List.mem_singleton, not_or]
    exact ⟨h.parentName_not_mem_dir w, hname.ne_parent.symm⟩
  have hshort : ∀ x ∈ (Workspace.draft document).names, x.length ≤ Path.maxNameLength := by
    rw [w.names_draft]
    intro x hx
    rcases List.mem_append.mp hx with hx | hx
    · exact h.short_dir w x hx
    · rw [List.mem_singleton.mp hx]
      exact h.draftShort
  exact locateFile_of_isOpen (h.check_draft w) (Workspace.endsInSeparator_draft document) w.names_draft
    hname hdown hshort hopen

theorem locate_draft {d₁ : Disk} (hopen : d₁.IsOpen (Path.spelled dir.names)) :
    d₁.locate (Workspace.draft document) =
      .ok (Path.spelled dir.names ++ [Workspace.draftName document]) := by
  obtain ⟨-, -, -, -, -, hlocate⟩ := locateFile_eq_ok
    (h.locateFile_draft w hopen .isDirectory .isDirectory)
  exact hlocate

/-- Once the directory is there, a file can be put where the document is to be. -/
theorem locateFile_document {d₁ : Disk} (hopen : d₁.IsOpen (Path.spelled dir.names))
    (dots slash : IoCause) :
    d₁.locateFile dots slash document = .ok (Path.spelled dir.names ++ [name]) := by
  obtain ⟨_, hpiece, hname⟩ := h.fileName
  rw [← w.spelled_front] at hopen ⊢
  exact locateFile_of_isOpen (h.check w) (Path.names_of_lastPiece hpiece hname).2 w.names w.isFileName
    h.down h.short hopen

/-- The document is replaced once its directory is there. -/
theorem replace_ok {d₁ : Disk} (hcalm₁ : d₁.IsCalm) (hopen₁ : d₁.IsOpen (Path.spelled dir.names))
    (hsame₁ : ∀ k, ¬ k <+: Path.spelled dir.names → d₁.sight k = d.sight k) (text : String) :
    ∃ d', (Storage.performAll (Storage.replaceSteps document text) : StateM Disk _) d₁ =
      (.ok (), d') := by
  have hdocument := not_prefix_concat (Path.spelled dir.names) name
  have hdraft := not_prefix_concat (Path.spelled dir.names) (Workspace.draftName document)
  -- the draft is written
  have hfree : d₁.sight (Path.spelled dir.names ++ [Workspace.draftName document]) ≠ .directory := by
    rw [hsame₁ _ hdraft, ← w.location_draft]
    exact h.draftSight
  obtain ⟨d₂, hwrite, hwritten, hsame₂⟩ :=
    perform_write_ok text.toUTF8 hcalm₁ (h.locateFile_draft w hopen₁ _ _) hfree
  have hcalm₂ : d₂.IsCalm := hcalm₁.of_perform_eq hwrite
  have hopen₂ : d₂.IsOpen (Path.spelled dir.names) := by
    intro k hk
    rw [hsame₂ k fun heq => hdraft (heq ▸ hk)]
    exact hopen₁ k hk
  -- it gets its permissions
  obtain ⟨d₃, hmode, hsight₃⟩ := perform_setMode_ok Storage.documentMode hcalm₂
    (h.locate_draft w hopen₂) (by rw [hwritten]; exact nofun)
  have hopen₃ : d₃.IsOpen (Path.spelled dir.names) := by
    unfold Disk.IsOpen
    rwa [hsight₃]
  -- and it is put in the place of the document
  have hplace : d₃.sight (Path.spelled dir.names ++ [name]) ≠ .directory := by
    rw [hsight₃, hsame₂, hsame₁ _ hdocument, ← w.location_document]
    · exact h.documentSight
    · intro heq
      exact Workspace.draftName_ne w.fileName (List.cons.inj (List.append_cancel_left heq)).1.symm
  obtain ⟨d₄, hrename⟩ := perform_rename_ok (hcalm₂.of_perform_eq hmode) (h.locate_draft w hopen₃)
    ((congrFun hsight₃ _).trans hwritten) (h.locateFile_document w hopen₃ _ _) hplace
  refine ⟨d₄, ?_⟩
  simp only [Storage.replaceSteps, Storage.performAll_cons_run, hwrite, hmode, hrename]
  rfl

omit w in
/-- With a separator in its path, every registry that has a written form can be saved. -/
theorem save_ok (hsep : Path.separator ∈ document.bytes) {r : Registry} {text : String}
    (htext : r.render? = some text) :
    ∃ d', (Storage.save document r : StateM Disk _) d = (.ok (), d') := by
  obtain ⟨dir, front, name, w⟩ := h.exists_way
  obtain ⟨piece, hpiece, hpieceName⟩ := h.fileName
  have hne : dir.bytes ≠ [] := fun hnil =>
    (Path.parent_bytes_eq_nil_iff hpiece hpieceName w.parent).mp hnil hsep
  obtain ⟨d₁, hprepare, hcalm₁, hopen₁, hsame₁⟩ := h.prepareDirectory_ok w hne
  obtain ⟨d', hreplace⟩ := h.replace_ok w hcalm₁ hopen₁ hsame₁ text
  refine ⟨d', ?_⟩
  rw [Storage.save_run, hprepare, htext]
  exact hreplace

end Usable

namespace Storage

variable {d : Disk} {document : Path}

theorem isSome_render?_initial (now : Timestamp) : (Registry.initial now).render?.isSome :=
  Registry.isSome_render?_iff.mpr fun _ hq => absurd hq List.not_mem_nil

/-- Where the parent is the empty path, every save fails before anything is written. -/
theorem save_of_parent_eq_empty (hcalm : d.IsCalm) (hparent : document.parent = some ⟨[]⟩)
    (r : Registry) : (save document r : StateM Disk _) d =
      (.error (.io ⟨[]⟩ .notFound), { d with mishaps := d.mishaps.drop 2 }) := by
  have habsent : d.isPresent ⟨[]⟩ = false := rfl
  have hmake : d.perform (.createDirectories ⟨[]⟩) = (.ok (), { d with mishaps := d.mishaps.tail }) :=
    hcalm.perform_eq _
  have hcalm' : ({ d with mishaps := d.mishaps.tail } : Disk).IsCalm :=
    fun mishap hmem => hcalm mishap (List.mem_of_mem_tail hmem)
  have hmode : ({ d with mishaps := d.mishaps.tail } : Disk).perform (.setMode ⟨[]⟩ directoryMode) =
      (.error .notFound, { d with mishaps := d.mishaps.tail.tail }) := hcalm'.perform_eq _
  rw [save_run, prepareDirectory_run, hparent]
  simp only [habsent, directorySteps, performAll_cons_run, hmake, hmode, Bool.false_eq_true, if_false]
  rw [← List.drop_one, ← List.drop_one, List.drop_drop]
  rfl

end Storage

open Storage

/-- With a usable path that has a separator, absolute or not, every registry that has a written form is
saved, the document then holds this form, and a valid registry is loaded as it was; where there was no
document, the first registry is saved and loaded.  With a usable path that is a file name alone nothing
is ever saved: the parent is the empty path, whose permissions cannot be set. -/
theorem saved_of_usable {d : Disk} {document : Path} (h : Usable d document) :
    (Path.separator ∈ document.bytes →
      (∀ r text, r.render? = some text → ∃ d',
        (save document r : StateM Disk _) d = (.ok (), d') ∧ d'.read document = .ok text.toUTF8 ∧
        (r.Valid → r.Dated → (load document : StateM Disk _) d' = (.ok r, d'))) ∧
      (∀ now, now.IsValid → d.isPresent document = false → ∃ d',
        (loadOrSeed now document : StateM Disk _) d = (.ok (.initial now), d') ∧
        (load document : StateM Disk _) d' = (.ok (.initial now), d'))) ∧
    (Path.separator ∉ document.bytes →
      (∀ r, (save document r : StateM Disk _) d =
        (.error (.io ⟨[]⟩ .notFound), { d with mishaps := d.mishaps.drop 2 })) ∧
      (∀ now, d.isPresent document = false → (loadOrSeed now document : StateM Disk _) d =
        (.error (.io ⟨[]⟩ .notFound), { d with mishaps := d.mishaps.drop 2 }))) := by
  have hholds : ∀ {r text d'}, r.render? = some text →
      (save document r : StateM Disk _) d = (.ok (), d') → d'.read document = .ok text.toUTF8 := by
    intro r text d' htext hsave
    obtain ⟨text', htext', hread⟩ := read_of_save_ok hsave
    rwa [Option.some_inj.mp (htext'.symm.trans htext)] at hread
  constructor
  · intro hsep
    constructor
    · intro r text htext
      obtain ⟨d', hsave⟩ := h.save_ok hsep htext
      have hread := hholds htext hsave
      exact ⟨d', hsave, hread, fun hr hdated => load_of_read hr hdated htext hread⟩
    · intro now hnow habsent
      obtain ⟨text, htext⟩ := Option.isSome_iff_exists.mp (isSome_render?_initial now)
      obtain ⟨d', hsave⟩ := h.save_ok hsep htext
      refine ⟨d', ?_, ?_⟩
      · rw [loadOrSeed_run, habsent, hsave]
        rfl
      · exact load_of_read (Registry.valid_initial now) (Registry.dated_initial hnow) htext
          (hholds htext hsave)
  · intro hsep
    obtain ⟨dir, front, name, w⟩ := h.exists_way
    obtain ⟨piece, hpiece, hpieceName⟩ := h.fileName
    have hparent : document.parent = some ⟨[]⟩ := by
      have hnil := (Path.parent_bytes_eq_nil_iff hpiece hpieceName w.parent).mpr hsep
      rw [w.parent, show dir = ⟨[]⟩ from congrArg Path.mk hnil]
    have hsave := save_of_parent_eq_empty h.calm hparent
    refine ⟨hsave, ?_⟩
    intro now habsent
    rw [loadOrSeed_run, habsent, hsave]
    rfl

/-- A disk with one directory, on which the next step is done as well as all others. -/
def sparseDisk : Disk := { Disk.empty.put [[0x61]] (.directory 0o755) with mishaps := [none] }

theorem sight_sparseDisk (l : Location) :
    sparseDisk.sight l = if l = [] ∨ l = [[0x61]] then .directory else .nothing := by
  have hne : ([[0x61]] : Location) ≠ [] := List.cons_ne_nil _ _
  change (Disk.empty.put [[0x61]] (.directory 0o755)).sight l = _
  by_cases hl : l = [[0x61]]
  · rw [if_pos (.inr hl), hl, sight_put_directory hne]
  · rw [sight_put hne _ hl]
    by_cases hroot : l = []
    · rw [if_pos (.inl hroot), hroot, sight_root]
    · rw [if_neg (not_or.mpr ⟨hroot, hl⟩), sight_eq_nothing_iff]
      exact if_neg hroot

theorem isFree_sparseDisk (l : Location) : sparseDisk.IsFree l := by
  intro k _
  rw [sight_sparseDisk]
  split
  · exact .inl rfl
  · exact .inr rfl

theorem sight_sparseDisk_ne {l : Location} (hroot : l ≠ []) (hl : l ≠ [[0x61]]) :
    sparseDisk.sight l ≠ .directory := by
  rw [sight_sparseDisk, if_neg (not_or.mpr ⟨hroot, hl⟩)]
  exact nofun

theorem isFileName_realJson : Path.IsFileName (Path.ofString "real.json").bytes :=
  ⟨by decide +kernel, by decide +kernel, by decide +kernel, by decide +kernel⟩

/-- A path through the directory that is there and through one that is not. -/
theorem usable_deep : Usable sparseDisk (.ofString "a//b/./real.json") where
  calm := fun mishap hmem => List.mem_singleton.mp hmem
  nulFree := by decide +kernel
  length := by decide +kernel
  draftLength := by decide +kernel
  fileName := ⟨(Path.ofString "real.json").bytes, by decide +kernel, isFileName_realJson⟩
  down := by decide +kernel
  short := by decide +kernel
  draftShort := by decide +kernel
  free := isFree_sparseDisk _
  documentSight := sight_sparseDisk_ne (by decide +kernel) (by decide +kernel)
  draftSight := sight_sparseDisk_ne (by decide +kernel) (by decide +kernel)

/-- A path that is a file name alone. -/
theorem usable_bare : Usable sparseDisk (.ofString "real.json") where
  calm := fun mishap hmem => List.mem_singleton.mp hmem
  nulFree := by decide +kernel
  length := by decide +kernel
  draftLength := by decide +kernel
  fileName := ⟨(Path.ofString "real.json").bytes, by decide +kernel, isFileName_realJson⟩
  down := by decide +kernel
  short := by decide +kernel
  draftShort := by decide +kernel
  free := isFree_sparseDisk _
  documentSight := sight_sparseDisk_ne (by decide +kernel) (by decide +kernel)
  draftSight := sight_sparseDisk_ne (by decide +kernel) (by decide +kernel)

/-- The first registry is saved through a missing directory, and not under a file name alone. -/
theorem saved_of_usable_deep : ∃ r text d' d'', r.render? = some text ∧
    (save (.ofString "a//b/./real.json") r : StateM Disk _) sparseDisk = (.ok (), d') ∧
    (load (.ofString "a//b/./real.json") : StateM Disk _) d' = (.ok r, d') ∧
    (loadOrSeed ⟨⟨2024, 2, 29⟩, 720, 30, 0⟩ (.ofString "real.json") : StateM Disk _) sparseDisk =
      (.error (.io ⟨[]⟩ .notFound), d'') := by
  let now : Timestamp := ⟨⟨2024, 2, 29⟩, 720, 30, 0⟩
  obtain ⟨text, htext⟩ := Option.isSome_iff_exists.mp (isSome_render?_initial now)
  obtain ⟨hsaved, -⟩ := (saved_of_usable usable_deep).1 (by decide +kernel)
  obtain ⟨-, hseeded⟩ := (saved_of_usable usable_bare).2 (by decide +kernel)
  obtain ⟨d', hsave, -, hload⟩ := hsaved _ text htext
  exact ⟨_, text, d', _, htext, hsave,
    hload (Registry.valid_initial now) (Registry.dated_initial (by decide)),
    hseeded now (by decide +kernel)⟩

/-- A usable path under which a valid registry with a written form is not saved. -/
theorem unsaved_bare_name : ∃ r : Registry, Usable sparseDisk (.ofString "real.json") ∧
    r.Valid ∧ r.Dated ∧ r.render?.isSome ∧
    ((save (.ofString "real.json") r : StateM Disk _) sparseDisk).1 =
      .error (.io ⟨[]⟩ .notFound) :=
  ⟨.initial ⟨⟨2024, 2, 29⟩, 720, 30, 0⟩, usable_bare, Registry.valid_initial _,
    Registry.dated_initial (by decide), isSome_render?_initial _, by rfl⟩

end PipelineRegistry
