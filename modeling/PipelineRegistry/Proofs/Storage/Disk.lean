import Mathlib
import PipelineRegistry.Proofs.Chain
import PipelineRegistry.Proofs.Listing
import PipelineRegistry.Proofs.Path

/-! # Finding things on a disk

A path reads from a disk what stands at one location (`sight`), and to find this location it only
asks which directories are on the way.  Therefore a way that can be gone on one disk can be gone on
any other disk that has the same directories. -/

namespace PipelineRegistry

open Chain

/-- What a reader finds at a location. -/
inductive Sight where
  | nothing
  | directory
  | file (content : ByteArray)

namespace Disk

variable {d d' : Disk} {l k l' below : Location} {name : FileName} {names : List FileName}
  {p : Path} {n : Node} {content : ByteArray}

/-! ### Locations -/

/-- What a reader finds at a location of the disk. -/
def sight (d : Disk) (l : Location) : Sight :=
  match d.node? l with
  | none => .nothing
  | some (.directory _) => .directory
  | some (.file f) => .file f.content

theorem node?_put (hl : l ≠ []) (n : Node) (k : Location) :
    (d.put l n).node? k = if k = l then some n else d.node? k := by
  unfold node? put
  by_cases hk : k = []
  · rw [if_pos hk, if_pos hk, if_neg fun h => hl (h.symm.trans hk)]
  · rw [if_neg hk, if_neg hk, Listing.get?_insert]
    change ((if k = l then some (DiskEntry.mk l n) else d.entries.get? k).map DiskEntry.node) = _
    split <;> rfl

theorem node?_remove (l k : Location) :
    (d.remove l).node? k = if k ≠ [] ∧ l <+: k then none else d.node? k := by
  unfold node? remove
  by_cases hk : k = []
  · rw [if_pos hk, if_pos hk, if_neg fun h => h.1 hk]
  · rw [if_neg hk, if_neg hk, Listing.get?]
    by_cases hl : l <+: k
    · have hnone : (d.entries.toList.filter fun e => ¬ l <+: e.location).find?
          (fun e => Keyed.key e = k) = none := by
        rw [List.find?_eq_none]
        intro e he heq
        obtain rfl : Keyed.key e = k := of_decide_eq_true heq
        exact of_decide_eq_true (List.mem_filter.mp he).2 hl
      rw [hnone, if_pos ⟨hk, hl⟩]
      rfl
    · have hsame : ∀ e ∈ d.entries.toList, Keyed.key e = k → ¬ l <+: e.location := by
        rintro e - rfl h
        exact hl h
      rw [List.find?_filter, if_neg fun h => hl h.2]
      congr 1
      apply List.find?_congr
      intro e he
      simp only [decide_eq_true_eq, decide_eq_decide, and_iff_right_iff_imp]
      exact hsame e he

theorem sight_put (hl : l ≠ []) (n : Node) (hk : k ≠ l) : (d.put l n).sight k = d.sight k := by
  rw [sight, node?_put hl, if_neg hk, sight]

theorem sight_eq_directory_iff : d.sight l = .directory ↔ ∃ mode, d.node? l = some (.directory mode) := by
  unfold sight
  rcases d.node? l with _ | _ | mode
  · exact ⟨nofun, nofun⟩
  · exact ⟨nofun, nofun⟩
  · exact ⟨fun _ => ⟨mode, rfl⟩, fun _ => rfl⟩

theorem sight_eq_file_iff :
    d.sight l = .file content ↔ ∃ f, d.node? l = some (.file f) ∧ f.content = content := by
  unfold sight
  rcases d.node? l with _ | f | mode
  · exact ⟨nofun, nofun⟩
  · constructor
    · rintro ⟨⟩
      exact ⟨f, rfl, rfl⟩
    · rintro ⟨f', hf, rfl⟩
      rw [Node.file.inj (Option.some_inj.mp hf)]
  · exact ⟨nofun, nofun⟩

theorem sight_eq_nothing_iff : d.sight l = .nothing ↔ d.node? l = none := by
  unfold sight
  rcases d.node? l with _ | _ | mode
  · exact ⟨fun _ => rfl, fun _ => rfl⟩
  · exact ⟨nofun, nofun⟩
  · exact ⟨nofun, nofun⟩

theorem not_directory_of_file {f : File} (h : d.node? l = some (.file f)) : d.sight l ≠ .directory := by
  rw [sight_eq_file_iff.mpr ⟨f, h, rfl⟩]
  exact nofun

theorem not_directory_of_none (h : d.node? l = none) : d.sight l ≠ .directory := by
  rw [sight_eq_nothing_iff.mpr h]
  exact nofun

theorem sight_root (d : Disk) : d.sight [] = .directory := by
  unfold sight node?
  rw [if_pos rfl]

/-! ### Ways -/

/-- The location to which a name leads from a directory. -/
def child? (l : Location) (name : FileName) : Option Location :=
  if name = Path.currentName then some l
  else if name = Path.parentName then some l.dropLast
  else if Path.maxNameLength < name.length then none
  else some (l ++ [name])

theorem descend_eq_ok_iff :
    d.descend l name = .ok below ↔ d.sight l = .directory ∧ child? l name = some below := by
  unfold descend sight child?
  rcases d.node? l with _ | f | mode
  · exact ⟨nofun, nofun⟩
  · exact ⟨nofun, nofun⟩
  · simp only [true_and]
    split_ifs <;> simp

theorem child?_of_ne (hcurrent : name ≠ Path.currentName) (hparent : name ≠ Path.parentName)
    (h : child? l name = some below) : below = l ++ [name] := by
  rw [child?, if_neg hcurrent, if_neg hparent] at h
  split at h
  · cases h
  · exact (Option.some_inj.mp h).symm

/-- All locations down to `l` are directories. -/
def IsOpen (d : Disk) (l : Location) : Prop := ∀ k, k <+: l → d.sight k = .directory

theorem isOpen_nil (d : Disk) : d.IsOpen [] := by
  intro k hk
  rw [List.prefix_nil.mp hk]
  exact d.sight_root

theorem IsOpen.of_prefix (hl : d.IsOpen l) (h : k <+: l) : d.IsOpen k :=
  fun _ hj => hl _ (hj.trans h)

theorem isOpen_of_dropLast (hl : d.IsOpen l.dropLast) (hdir : d.sight l = .directory) : d.IsOpen l := by
  intro k hk
  rcases List.eq_nil_or_concat' l with rfl | ⟨init, last, rfl⟩
  · rw [List.prefix_nil.mp hk]
    exact hdir
  · rw [List.dropLast_concat] at hl
    rcases List.prefix_concat_iff.mp hk with rfl | hinit
    · exact hdir
    · exact hl k hinit

/-- Whoever goes down, up or nowhere from an open location stands below open locations again. -/
theorem IsOpen.child? (hl : d.IsOpen l) (h : Disk.child? l name = some below) :
    d.IsOpen below.dropLast := by
  unfold Disk.child? at h
  split_ifs at h with hcurrent hparent
  · cases h
    exact hl.of_prefix (List.dropLast_prefix _)
  · cases h
    exact hl.of_prefix ((List.dropLast_prefix _).trans (List.dropLast_prefix _))
  · cases h
    rw [List.dropLast_concat]
    exact hl

/-- The location to which names lead from `l`. -/
def walkFrom (d : Disk) (l : Location) (names : List FileName) : Except IoCause Location :=
  names.foldlM d.descend l

theorem walkFrom_cons_eq_ok_iff : d.walkFrom l (name :: names) = .ok l' ↔
    ∃ below, d.descend l name = .ok below ∧ d.walkFrom below names = .ok l' := by
  rw [walkFrom, List.foldlM_cons, bind_eq_ok]
  rfl

theorem walkFrom_append_eq_ok_iff {before behind : List FileName} :
    d.walkFrom l (before ++ behind) = .ok l' ↔
      ∃ k, d.walkFrom l before = .ok k ∧ d.walkFrom k behind = .ok l' := by
  rw [walkFrom, List.foldlM_append, bind_eq_ok]
  rfl

theorem walkFrom_nil_eq_ok_iff : d.walkFrom l [] = .ok l' ↔ l = l' := pure_eq_ok

theorem walkFrom_singleton_eq_ok_iff : d.walkFrom l [name] = .ok l' ↔ d.descend l name = .ok l' := by
  simp only [walkFrom_cons_eq_ok_iff, walkFrom_nil_eq_ok_iff, exists_eq_right]

/-- Who gets to a directory starts at one. -/
theorem sight_of_walkFrom (h : d.walkFrom l names = .ok l') (hl' : d.sight l' = .directory) :
    d.sight l = .directory := by
  cases names with
  | nil => rwa [walkFrom_nil_eq_ok_iff.mp h]
  | cons name names =>
      obtain ⟨below, hdescend, -⟩ := walkFrom_cons_eq_ok_iff.mp h
      exact (descend_eq_ok_iff.mp hdescend).1

/-- A way over open directories is the same on a disk that has them too. -/
theorem walkFrom_mono (hsame : ∀ k, d.IsOpen k → d'.sight k = .directory)
    (hl : d.IsOpen l.dropLast) (h : d.walkFrom l names = .ok l') :
    d'.walkFrom l names = .ok l' ∧ d.IsOpen l'.dropLast := by
  induction names generalizing l with
  | nil =>
      obtain rfl := walkFrom_nil_eq_ok_iff.mp h
      exact ⟨walkFrom_nil_eq_ok_iff.mpr rfl, hl⟩
  | cons name names ih =>
      obtain ⟨below, hdescend, hwalk⟩ := walkFrom_cons_eq_ok_iff.mp h
      obtain ⟨hdir, hchild⟩ := descend_eq_ok_iff.mp hdescend
      have hopen := isOpen_of_dropLast hl hdir
      obtain ⟨hwalk', hl'⟩ := ih (hopen.child? hchild) hwalk
      have hdescend' := descend_eq_ok_iff.mpr ⟨hsame l hopen, hchild⟩
      exact ⟨walkFrom_cons_eq_ok_iff.mpr ⟨below, hdescend', hwalk'⟩, hl'⟩

/-- The same for a way from the root. -/
theorem walk_mono (hsame : ∀ k, d.IsOpen k → d'.sight k = .directory)
    (h : d.walkFrom [] names = .ok l) : d'.walkFrom [] names = .ok l ∧ d.IsOpen l.dropLast := by
  have hroot : d.IsOpen ([] : Location).dropLast := d.isOpen_nil
  exact walkFrom_mono hsame hroot h

/-- Names without `..` lead downwards. -/
theorem eq_append_of_walkFrom (hnames : Path.parentName ∉ names) (h : d.walkFrom l names = .ok l') :
    l' = l ++ names.filter (· ≠ Path.currentName) := by
  induction names generalizing l with
  | nil =>
      rw [List.filter_nil, List.append_nil]
      exact (walkFrom_nil_eq_ok_iff.mp h).symm
  | cons name names ih =>
      rw [List.mem_cons, not_or] at hnames
      obtain ⟨below, hdescend, hwalk⟩ := walkFrom_cons_eq_ok_iff.mp h
      obtain ⟨-, hchild⟩ := descend_eq_ok_iff.mp hdescend
      have hl' := ih hnames.2 hwalk
      by_cases hname : name = Path.currentName
      · have hbelow : below = l := by
          rw [child?, if_pos hname] at hchild
          exact (Option.some_inj.mp hchild).symm
        rw [List.filter_cons_of_neg (by simpa using hname), hl', hbelow]
      · have hbelow := child?_of_ne hname (Ne.symm hnames.1) hchild
        rw [List.filter_cons_of_pos (by simpa using hname), hl', hbelow, List.append_assoc,
          List.singleton_append]

/-- A way without `..` can be gone on any disk that has the directories down to its end. -/
theorem walkFrom_of_prefixes (hnames : Path.parentName ∉ names)
    (h : d'.walkFrom l names = .ok l')
    (hsame : ∀ k, k <+: l' → d'.sight k = .directory → d.sight k = .directory) :
    d.walkFrom l names = .ok l' := by
  induction names generalizing l with
  | nil => exact h
  | cons name names ih =>
      have hl' := eq_append_of_walkFrom hnames h
      obtain ⟨below, hdescend, hwalk⟩ := walkFrom_cons_eq_ok_iff.mp h
      obtain ⟨hdir, hchild⟩ := descend_eq_ok_iff.mp hdescend
      have hdir' := hsame l ⟨_, hl'.symm⟩ hdir
      have hrest := ih (fun hmem => hnames (List.mem_cons_of_mem _ hmem)) hwalk
      exact walkFrom_cons_eq_ok_iff.mpr ⟨below, descend_eq_ok_iff.mpr ⟨hdir', hchild⟩, hrest⟩

/-! ### Paths -/

theorem locate_eq_ok_iff :
    d.locate p = .ok l ↔ p.check = .ok () ∧ d.walkFrom [] p.route = .ok l := by
  rw [locate, bind_eq_ok]
  constructor
  · rintro ⟨⟨⟩, hcheck, hwalk⟩
    exact ⟨hcheck, hwalk⟩
  · rintro ⟨hcheck, hwalk⟩
    exact ⟨(), hcheck, hwalk⟩

theorem lookUp_eq_ok_iff : d.lookUp p = .ok n ↔ ∃ l, d.locate p = .ok l ∧ d.node? l = some n := by
  rw [lookUp, bind_eq_ok]
  constructor
  · rintro ⟨l, hl, h⟩
    split at h
    · rename_i n' hn'
      obtain rfl := pure_eq_ok.mp h
      exact ⟨l, hl, hn'⟩
    · exact (throw_eq_ok.mp h).elim
  · rintro ⟨l, hl, hn⟩
    refine ⟨l, hl, ?_⟩
    rw [hn]
    rfl

theorem read_eq_ok_iff :
    d.read p = .ok content ↔ ∃ l, d.locate p = .ok l ∧ d.sight l = .file content := by
  simp only [read, bind_eq_ok, lookUp_eq_ok_iff, sight_eq_file_iff]
  constructor
  · rintro ⟨_ | mode, ⟨l, hl, hn⟩, h⟩
    · exact ⟨l, hl, _, hn, pure_eq_ok.mp h⟩
    · exact (throw_eq_ok.mp h).elim
  · rintro ⟨l, hl, f, hn, rfl⟩
    exact ⟨.file f, ⟨l, hl, hn⟩, rfl⟩

theorem isPresent_iff : d.isPresent p = true ↔ ∃ l, d.locate p = .ok l ∧ d.sight l ≠ .nothing := by
  have hok : d.isPresent p = true ↔ ∃ n, d.lookUp p = .ok n := by
    unfold isPresent
    cases d.lookUp p with
    | error cause => exact ⟨nofun, nofun⟩
    | ok n => exact ⟨fun _ => ⟨n, rfl⟩, fun _ => rfl⟩
  simp only [hok, lookUp_eq_ok_iff, ne_eq, sight_eq_nothing_iff]
  constructor
  · rintro ⟨n, l, hl, hn⟩
    refine ⟨l, hl, ?_⟩
    rw [hn]
    exact nofun
  · rintro ⟨l, hl, hne⟩
    obtain ⟨n, hn⟩ := Option.ne_none_iff_exists'.mp hne
    exact ⟨n, l, hl, hn⟩

theorem isPresent_of_read {content : ByteArray} (h : d.read p = .ok content) :
    d.isPresent p = true := by
  obtain ⟨l, hl, hsight⟩ := read_eq_ok_iff.mp h
  refine isPresent_iff.mpr ⟨l, hl, ?_⟩
  rw [hsight]
  exact nofun

/-- Where something is at a path, its parent is there, unless that is the empty path. -/
theorem isPresent_parent {dir : Path} {last : FileName} (hp : d.isPresent p = true)
    (hlast : p.last? = some last) (hdir : p.parent = some dir) (hne : dir.bytes ≠ []) :
    d.isPresent dir = true := by
  obtain ⟨l, hl, -⟩ := isPresent_iff.mp hp
  obtain ⟨hcheck, hwalk⟩ := locate_eq_ok_iff.mp hl
  obtain ⟨between, behind, hnames, -⟩ := Path.exists_names_eq hlast hdir
  rw [Path.route, hnames, List.append_assoc, List.append_assoc, walkFrom_append_eq_ok_iff] at hwalk
  obtain ⟨k, hk, hrest⟩ := hwalk
  -- the way goes on from the parent, which therefore is a directory
  have hdirectory : d.sight k = .directory := by
    cases between with
    | nil =>
        obtain ⟨below, hdescend, -⟩ := walkFrom_cons_eq_ok_iff.mp hrest
        exact (descend_eq_ok_iff.mp hdescend).1
    | cons name between =>
        obtain ⟨below, hdescend, -⟩ := walkFrom_cons_eq_ok_iff.mp hrest
        exact (descend_eq_ok_iff.mp hdescend).1
  have hslash : d.walkFrom k dir.slash = .ok k := by
    unfold Path.slash
    split
    · rw [walkFrom_singleton_eq_ok_iff, descend_eq_ok_iff]
      exact ⟨hdirectory, if_pos rfl⟩
    · exact walkFrom_nil_eq_ok_iff.mpr rfl
  refine isPresent_iff.mpr ⟨k, locate_eq_ok_iff.mpr ⟨?_, ?_⟩, ?_⟩
  · exact Path.check_of_prefix (Path.parent_prefix hlast hdir) hne hcheck
  · rw [Path.route, walkFrom_append_eq_ok_iff]
    exact ⟨k, hk, hslash⟩
  · rw [hdirectory]
    rintro ⟨⟩

/-- What is put at a path gets the file name of the path. -/
theorem locateFile_eq_ok {dots slash : IoCause} (h : d.locateFile dots slash p = .ok l) :
    ∃ dir name, p.fileName = some name ∧ d.IsOpen dir ∧ l = dir ++ [name] ∧ d.locate p = .ok l := by
  rw [locateFile, bind_eq_ok] at h
  obtain ⟨⟨⟩, hcheck, h⟩ := h
  obtain ⟨dir, hdir, h⟩ := bind_eq_ok.mp h
  obtain ⟨k, hwalk, hdot⟩ := walkFrom_append_eq_ok_iff.mp hdir
  split at h
  · exact (throw_eq_ok.mp h).elim
  · rename_i name hname
    obtain ⟨hname', h⟩ := check_eq_ok.mp h
    obtain ⟨hslash, hdescend⟩ := check_eq_ok.mp h
    rw [not_or] at hname'
    obtain ⟨hdirectory, hchild⟩ := descend_eq_ok_iff.mp hdescend
    -- the `.` behind the directory leads nowhere else
    obtain rfl : k = dir := by
      obtain ⟨-, hcurrent⟩ := descend_eq_ok_iff.mp (walkFrom_singleton_eq_ok_iff.mp hdot)
      rw [child?, if_pos rfl] at hcurrent
      exact Option.some_inj.mp hcurrent
    have hopen := (walk_mono (fun j hj => hj j List.prefix_rfl) hwalk).2
    have hroute : p.route = p.names.dropLast ++ [name] := by
      rw [Path.route, Path.slash, if_neg hslash, List.append_nil, List.dropLast_append_getLast? name hname]
    refine ⟨k, name, Path.fileName_of_getLast?_names hname hname'.1 hname'.2,
      isOpen_of_dropLast hopen hdirectory, child?_of_ne hname'.1 hname'.2 hchild, ?_⟩
    rw [locate_eq_ok_iff, hroute, walkFrom_append_eq_ok_iff]
    exact ⟨hcheck, k, hwalk, walkFrom_singleton_eq_ok_iff.mpr hdescend⟩

/-- Everything stands in a directory that stands in a directory, and so on up to the root. -/
def IsTree (d : Disk) : Prop := ∀ l, d.sight l ≠ .nothing → d.IsOpen l.dropLast

/-- Where a path climbs by `..`, it climbs from a directory that is there. -/
def ClimbsFromDirectories (d : Disk) (p : Path) : Prop :=
  ∀ before behind, p.names = before ++ Path.parentName :: behind →
    ∃ l, d.walkFrom [] before = .ok l ∧ d.sight l = .directory

end Disk
end PipelineRegistry
