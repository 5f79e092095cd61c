import Mathlib
import PipelineRegistry.CommandLine.Run
import PipelineRegistry.Proofs.CommandLine.Tree
import PipelineRegistry.Proofs.Registry.Scan
import PipelineRegistry.Proofs.Storage.Validity

/-! # The totals of the tree

The line at the end of the tree counts groups, projects and pointers as the registry does, projects by the
index of owners.  What it counts is what stands above it: a heading for each group, a row of a table for
each project, and an entry in the last cell of a row for each pointer.

Where no text has a line feed or a colon in it, this can be counted in the lines themselves, without
knowing what they show: headings begin with a hash sign, lines of rows with a bar, and an entry has one
colon. -/

namespace PipelineRegistry

open Calendar

namespace CommandLine

/-! ### Counting in lines -/

/-- How many lines begin with a hash sign, with a bar, and with the sign that begins the rule below a
header, and how many colons there are in lines that begin with a bar. -/
def counts (lines : List (List Char)) : Nat × Nat × Nat × Nat :=
  (lines.countP (·.head? = some '#'), lines.countP (·.head? = some '│'),
    lines.countP (·.head? = some '├'), (lines.filter (·.head? = some '│')).flatten.count ':')

/-- The totals that are counted in lines.  Each header has a rule below it and is no row. -/
def tally (lines : List (List Char)) : String :=
  let (headings, bars, headers, colons) := counts lines
  totalsText headings (bars - headers) colons

/-- The text is written in one line, without a colon. -/
def IsPlain (s : String) : Prop := '\n' ∉ s.toList ∧ ':' ∉ s.toList

instance (s : String) : Decidable (IsPlain s) :=
  inferInstanceAs (Decidable ('\n' ∉ s.toList ∧ ':' ∉ s.toList))

/-- The texts of a registry that its tree shows. -/
def shownTexts (r : Registry) : List String := r.groups.toList.flatMap fun g =>
  g.name :: g.tag.toList ++ g.description.toList ++ g.projects.toList.flatMap fun p =>
    p.name :: p.tag.toList ++ p.pointers.toList.map Pointer.name

theorem counts_append (lines lines' : List (List Char)) :
    counts (lines ++ lines') = counts lines + counts lines' := by
  simp [counts, List.countP_append]

theorem counts_cons (line : List Char) (lines : List (List Char)) :
    counts (line :: lines) = counts [line] + counts lines := counts_append [line] lines

theorem counts_empty : counts [[]] = 0 := rfl

/-- A line that is neither a heading nor in a table. -/
theorem counts_other {line : List Char} {c : Char} (h : line.head? = some c)
    (hc : c ∉ ['#', '│', '├']) : counts [line] = 0 := by
  simp only [List.mem_cons, List.not_mem_nil, or_false, not_or] at hc
  simp [counts, h, hc]

theorem counts_heading {line : List Char} (h : line.head? = some '#') :
    counts [line] = (1, 0, 0, 0) := by
  simp [counts, h]

theorem counts_bar {line : List Char} (h : line.head? = some '│') :
    counts [line] = (0, 1, 0, line.count ':') := by
  simp [counts, h]

theorem counts_header {line : List Char} (h : line.head? = some '├') :
    counts [line] = (0, 0, 1, 0) := by
  simp [counts, h]

namespace Table

theorem Barred.head?_eq {texts : List (List Char)} {line : List Char} (h : Barred texts line) :
    line.head? = some '│' := by
  cases h <;> rfl

theorem Barred.count_colon {texts : List (List Char)} {line : List Char} (h : Barred texts line) :
    line.count ':' = (texts.map (·.count ':')).sum := by
  induction h with
  | last => rfl
  | column blanks _ ih =>
      rw [List.map_cons, List.sum_cons, ← ih]
      simp [List.count_replicate]

/-- A row without line feeds is one line. -/
theorem RowDrawing.counts_eq {row : List String} {lines : List (List Char)} (h : RowDrawing row lines)
    (hrow : ∀ cell ∈ row, '\n' ∉ cell.toList) :
    counts lines = (0, 1, 0, (row.map fun cell => cell.toList.count ':').sum) := by
  obtain ⟨cell, hcell, hlength⟩ := h.tallest
  rw [List.splitOn_eq_singleton (hrow cell hcell), List.length_singleton] at hlength
  obtain ⟨line, rfl⟩ := List.length_eq_one_iff.mp hlength.symm
  have hline := h.line 0 line rfl
  have hcells : (row.map fun cell => ((cell.toList.splitOn '\n')[0]?).getD []) =
      row.map String.toList := by
    refine List.map_congr_left ?_
    intro cell hcell
    rw [List.splitOn_eq_singleton (hrow cell hcell)]
    rfl
  rw [hcells] at hline
  rw [counts_bar hline.head?_eq, hline.count_colon, List.map_map]
  rfl

theorem Ruled.head?_eq {left crossing right : Char} {line : List Char}
    (h : Ruled left crossing right line) : line.head? = some left := by
  obtain ⟨middle, rfl, -⟩ := h
  rfl

end Table

/-! ### Counting in plain blocks -/

/-- The row has no line feed, and one colon for each entry. -/
structure TreeRow.IsPlain (row : TreeRow) : Prop where
  cells : ∀ cell ∈ row.cells, CommandLine.IsPlain cell
  entries : ∀ entry ∈ row.entries, '\n' ∉ entry.toList ∧ entry.toList.count ':' = 1

/-- The block has no line feed, only the heading begins with a hash sign, and there is one colon for each
entry. -/
structure TreeBlock.IsPlain (block : TreeBlock) : Prop where
  heading : '\n' ∉ block.heading.toList ∧ block.heading.toList.head? = some '#'
  remarks : ∀ remark ∈ block.remarks, '\n' ∉ remark.toList ∧ remark.toList.head? = some ' '
  rows : ∀ row ∈ block.rows, row.IsPlain

theorem count_intercalate {c : Char} {sep : List Char} (hsep : c ∉ sep) (texts : List (List Char)) :
    (sep.intercalate texts).count c = (texts.map (·.count c)).sum := by
  induction texts with
  | nil => rfl
  | cons text texts ih =>
      cases texts with
      | nil => simp
      | cons text' texts =>
          rw [List.intercalate_cons_cons, List.count_append, List.count_append, ih,
            List.count_eq_zero_of_not_mem hsep, Nat.add_zero]
          exact List.sum_cons.symm

theorem not_mem_intercalate {c : Char} {sep : List Char} (hsep : c ∉ sep) {texts : List (List Char)}
    (htexts : ∀ text ∈ texts, c ∉ text) : c ∉ sep.intercalate texts := by
  rw [← List.count_eq_zero, count_intercalate hsep, List.sum_eq_zero_iff]
  intro n hn
  obtain ⟨text, htext, rfl⟩ := List.mem_map.mp hn
  exact List.count_eq_zero_of_not_mem (htexts text htext)

namespace TreeRow.IsPlain

variable {row : TreeRow}

theorem not_mem (h : row.IsPlain) : ∀ cell ∈ row.printed, '\n' ∉ cell.toList := by
  rw [TreeRow.printed, List.forall_mem_append, List.forall_mem_singleton]
  refine ⟨fun cell hcell => (h.cells cell hcell).1, ?_⟩
  split
  · decide
  · rw [String.toList_intercalate]
    refine not_mem_intercalate (by decide) ?_
    rw [List.forall_mem_map]
    exact fun entry hentry => (h.entries entry hentry).1

theorem count_colon (h : row.IsPlain) :
    (row.printed.map fun cell => cell.toList.count ':').sum = row.entries.length := by
  have hcells : (row.cells.map fun cell => cell.toList.count ':').sum = 0 := by
    rw [List.sum_eq_zero_iff, List.forall_mem_map]
    exact fun cell hcell => List.count_eq_zero_of_not_mem (h.cells cell hcell).2
  rw [TreeRow.printed, List.map_append, List.sum_append, hcells, Nat.zero_add, List.map_singleton,
    List.sum_singleton]
  split
  · rename_i hnone
    rw [hnone]
    rfl
  · have hones : row.entries.map (fun entry => entry.toList.count ':') =
        row.entries.map fun _ => 1 :=
      List.map_congr_left fun entry hentry => (h.entries entry hentry).2
    rw [String.toList_intercalate, count_intercalate (by decide), List.map_map]
    exact (congrArg List.sum hones).trans (by simp)

end TreeRow.IsPlain

theorem counts_rows {rows : List TreeRow} {drawn : List (List (List Char))}
    (hdrawn : (rows.map TreeRow.printed).Forall₂ Table.RowDrawing drawn)
    (hrows : ∀ row ∈ rows, row.IsPlain) :
    counts drawn.flatten = (0, rows.length, 0, (rows.flatMap TreeRow.entries).length) := by
  rw [List.forall₂_map_left_iff] at hdrawn
  induction hdrawn with
  | nil => rfl
  | cons hrow _ ih =>
      rw [List.forall_mem_cons] at hrows
      rw [List.flatten_cons, counts_append, ih hrows.2, hrow.counts_eq hrows.1.not_mem,
        hrows.1.count_colon, List.flatMap_cons, List.length_append, List.length_cons]
      simp [Nat.add_comm]

theorem counts_table {block : TreeBlock} {body : List (List Char)} (h : block.table.Drawing body)
    (hrows : ∀ row ∈ block.rows, row.IsPlain) :
    counts body = (0, block.rows.length + 1, 1, (block.rows.flatMap TreeRow.entries).length) := by
  have hplain : ∀ name ∈ ["project", "id", "tag", "pipelines"], '\n' ∉ name.toList := by decide
  cases h with
  | @intro top middle bottom header rows htop hheader hmiddle hdrawn hbottom =>
      have hnames : counts header = (0, 1, 0, 0) := hheader.counts_eq hplain
      have htop : counts [top] = 0 := counts_other htop.head?_eq (by decide)
      have hmiddle : counts [middle] = (0, 0, 1, 0) := counts_header hmiddle.head?_eq
      have hbottom : counts [bottom] = 0 := counts_other hbottom.head?_eq (by decide)
      rw [counts_append, counts_append, counts_cons top, counts_cons middle, htop, hnames, hmiddle,
        hbottom, counts_rows hdrawn hrows]
      simp [Nat.add_comm]

theorem counts_remarks {remarks : List String} {printed : List (List Char)}
    (hprinted : remarks.Forall₂ (fun remark line => Styled false remark.toList line) printed)
    (hremarks : ∀ remark ∈ remarks, '\n' ∉ remark.toList ∧ remark.toList.head? = some ' ') :
    counts (printed.flatMap (·.splitOn '\n')) = 0 := by
  induction hprinted with
  | nil => rfl
  | cons hline _ ih =>
      rw [List.forall_mem_cons] at hremarks
      obtain ⟨⟨hbreak, hblank⟩, hrest⟩ := hremarks
      rw [List.flatMap_cons, counts_append, ih hrest, hline.eq, List.splitOn_eq_singleton hbreak,
        counts_other hblank (by decide), add_zero]

/-- In the lines of a plain block its rows are counted, with one more bar if there is a header. -/
theorem TreeBlock.IsPlain.counts_eq {block : TreeBlock} {lines : List (List Char)}
    (hblock : block.IsPlain) (h : block.Drawing false lines) : ∃ headers, counts lines =
      (1, block.rows.length + headers, headers, (block.rows.flatMap TreeRow.entries).length) := by
  cases h with
  | @intro heading remarks body hheading hremarks hnone hsome =>
      obtain ⟨hbreak, hhead⟩ := hblock.heading
      have habove : counts ([] :: heading.splitOn '\n' ++ remarks.flatMap (·.splitOn '\n')) =
          (1, 0, 0, 0) := by
        rw [counts_append, counts_cons, counts_empty, hheading.eq, List.splitOn_eq_singleton hbreak,
          counts_heading hhead, counts_remarks hremarks hblock.remarks, zero_add, add_zero]
      by_cases hrows : block.rows = []
      · refine ⟨0, ?_⟩
        rw [counts_append, habove, hnone hrows, hrows]
        rfl
      · refine ⟨1, ?_⟩
        rw [counts_append, habove, counts_table (hsome hrows) hblock.rows]
        simp

theorem counts_blocks {blocks : List TreeBlock} {parts : List (List (List Char))}
    (hdrawn : blocks.Forall₂ (TreeBlock.Drawing false) parts)
    (hblocks : ∀ block ∈ blocks, block.IsPlain) : ∃ headers, counts parts.flatten =
      (blocks.length, (blocks.flatMap TreeBlock.rows).length + headers, headers,
        ((blocks.flatMap TreeBlock.rows).flatMap TreeRow.entries).length) := by
  induction hdrawn with
  | nil => exact ⟨0, rfl⟩
  | cons hblock _ ih =>
      rw [List.forall_mem_cons] at hblocks
      obtain ⟨headers, hcounts⟩ := hblocks.1.counts_eq hblock
      obtain ⟨headers', hcounts'⟩ := ih hblocks.2
      refine ⟨headers + headers', ?_⟩
      rw [List.flatten_cons, counts_append, hcounts, hcounts', List.flatMap_cons,
        List.flatMap_append, List.length_append, List.length_append, List.length_cons]
      refine Prod.ext (Nat.add_comm _ _) (Prod.ext ?_ rfl)
      exact Nat.add_add_add_comm _ _ _ _

/-- In a plain tree the totals are the numbers that are counted in the lines above them. -/
theorem Printed.exists_tally {document : Path} {blocks : List TreeBlock} {lines : List (List Char)}
    (h : Printed false document blocks lines) (hdocument : IsPlain document.display)
    (hblocks : ∀ block ∈ blocks, block.IsPlain) :
    ∃ above, lines = above ++ [(tally above).toList, []] := by
  cases h with
  | @intro title parts htitle hparts =>
      obtain ⟨headers, hcounts⟩ := counts_blocks hparts hblocks
      have hbreak : '\n' ∉ title := by
        rw [htitle.eq, String.toList_append, List.mem_append, not_or]
        exact ⟨by decide, hdocument.1⟩
      have hhead : title.head? = some 'R' := by
        rw [htitle.eq, String.toList_append]
        rfl
      have hrule : counts [List.replicate 60 '─'] = 0 := by decide
      refine ⟨_, congrArg (fun text : String => _ ++ [text.toList, []]) ?_⟩
      rw [tally, counts_append, counts_cons [], counts_empty, counts_cons (List.replicate 60 '─'),
        hrule, List.splitOn_eq_singleton hbreak, counts_other hhead (by decide), hcounts]
      simp [TreeBlock.totals]

theorem isPlain_toString (n : UInt64) : IsPlain (toString n) :=
  ⟨not_mem_toString rfl n.toNat, not_mem_toString rfl n.toNat⟩

theorem isPlain_rowOf {p : Project} (hname : IsPlain p.name) (htag : ∀ tag ∈ p.tag, IsPlain tag)
    (hpointers : ∀ q ∈ p.pointers.toList, IsPlain q.name) : (rowOf p).IsPlain := by
  constructor
  case cells =>
    have htag : IsPlain (p.tag.getD "-") := by
      cases h : p.tag with
      | none => decide
      | some tag => exact htag tag h
    simpa [rowOf] using ⟨hname, isPlain_toString p.id, htag⟩
  case entries =>
    intro entry hentry
    obtain ⟨q, hq, rfl⟩ := List.mem_map.mp hentry
    have hid := isPlain_toString q.id
    have hname := hpointers q hq
    have htext : (s!"{q.id}:{q.name}").toList = (toString q.id).toList ++ ':' :: q.name.toList := by
      rw [String.toList_append, String.toList_append, List.append_assoc]
      rfl
    rw [htext]
    constructor
    · simpa using ⟨hid.1, hname.1⟩
    · rw [List.count_append, List.count_cons_self, List.count_eq_zero_of_not_mem hid.2,
        List.count_eq_zero_of_not_mem hname.2]

theorem isPlain_blockOf {g : Group} (hname : IsPlain g.name) (htag : ∀ tag ∈ g.tag, IsPlain tag)
    (hdescription : ∀ d ∈ g.description, IsPlain d)
    (hprojects : ∀ p ∈ g.projects.toList, (rowOf p).IsPlain) : (blockOf g).IsPlain := by
  constructor
  case heading =>
    have htag : '\n' ∉ (g.tag.elim "" fun tag => s!" [{tag}]").toList := by
      cases h : g.tag with
      | none => decide
      | some tag =>
          simp only [Option.elim_some, String.toList_append, List.mem_append, not_or]
          exact ⟨⟨by decide, (htag tag h).1⟩, by decide⟩
    simp only [blockOf, String.toList_append, List.mem_append, not_or]
    exact ⟨⟨⟨⟨⟨by decide, (isPlain_toString g.id).1⟩, by decide⟩, hname.1⟩, htag⟩, rfl⟩
  case remarks =>
    intro remark hremark
    obtain ⟨d, hd, rfl⟩ : ∃ d ∈ g.description, remark = "  " ++ d := by
      cases h : g.description with
      | none => simp [blockOf, h] at hremark
      | some d => exact ⟨d, rfl, by simpa [blockOf, h] using hremark⟩
    rw [String.toList_append, List.mem_append, not_or]
    exact ⟨⟨by decide, (hdescription d hd).1⟩, rfl⟩
  case rows =>
    intro row hrow
    obtain ⟨p, hp, rfl⟩ := List.mem_map.mp hrow
    exact hprojects p hp

/-- A registry whose texts are plain has plain blocks. -/
theorem isPlain_blocksOf {r : Registry} (hr : ∀ s ∈ shownTexts r, IsPlain s) :
    ∀ block ∈ blocksOf r, block.IsPlain := by
  intro block hblock
  obtain ⟨g, hg, rfl⟩ := List.mem_map.mp hblock
  have hmem : ∀ s ∈ g.name :: g.tag.toList ++ g.description.toList ++
      g.projects.toList.flatMap (fun p => p.name :: p.tag.toList ++ p.pointers.toList.map Pointer.name),
      IsPlain s := fun s hs => hr s (List.mem_flatMap.mpr ⟨g, hg, hs⟩)
  simp only [List.cons_append, List.append_assoc, List.forall_mem_cons, List.forall_mem_append,
    Option.mem_toList] at hmem
  obtain ⟨hname, htag, hdescription, hprojects⟩ := hmem
  refine isPlain_blockOf hname htag hdescription ?_
  intro p hp
  have hmem : ∀ s ∈ p.name :: p.tag.toList ++ p.pointers.toList.map Pointer.name, IsPlain s :=
    fun s hs => hprojects s (List.mem_flatMap.mpr ⟨p, hp, hs⟩)
  simp only [List.cons_append, List.forall_mem_cons, List.forall_mem_append, Option.mem_toList,
    List.forall_mem_map] at hmem
  exact isPlain_rowOf hmem.1 hmem.2.1 hmem.2.2

/-! ### The totals of a registry -/

/-- The blocks of a registry are as many as it says. -/
theorem totals_blocksOf {r : Registry} (hr : r.Valid) : TreeBlock.totals (blocksOf r) =
    totalsText r.groupCount r.projectCount r.pointerCount := by
  have hrows : (blocksOf r).flatMap TreeBlock.rows = r.projects.map rowOf := by
    rw [blocksOf, List.flatMap_map, Registry.projects, List.map_flatMap]
    rfl
  have hentries : ((r.projects.map rowOf).flatMap TreeRow.entries).length = r.pointers.length := by
    simp [Registry.pointers, List.length_flatMap, rowOf, Function.comp_def]
  rw [TreeBlock.totals, hrows, hentries, List.length_map, ← hr.projectCount_eq,
    ← Registry.pointerCount_eq, blocksOf, List.length_map]
  rfl

end CommandLine

open CommandLine

/-- A session that removes a group, whose project goes to the secured group, then a project that leaves
a gap, and creates two more. -/
def reshuffledSession : Except RegistryError Handle × Disk :=
  let now : Timestamp := ⟨⟨2024, 2, 29⟩, 720, 30, 0⟩
  let operations : List Operation := [.createGroup ⟨"team", none, none⟩,
    .createProject ⟨1, "build", none, none⟩, .createProject ⟨0, "deploy", none, none⟩,
    .createPointer ⟨1, "nightly", "main", .ofString "Easefile", .ofString "main.pipe", none, none, now⟩,
    .deleteGroup 1 false, .deleteProject 0 2 true, .createGroup ⟨"ops", none, none⟩,
    .createProject ⟨1, "build", none, none⟩]
  (session (.ofString "home/registry.json") now (operations.map fun operation =>
    ⟨now, .change operation⟩) : StateM Disk _) .empty

end PipelineRegistry
