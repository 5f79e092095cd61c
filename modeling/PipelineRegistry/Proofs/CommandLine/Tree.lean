import Mathlib
import PipelineRegistry.CommandLine.Tree
import PipelineRegistry.Proofs.CommandLine.Table

/-! # What the tree shows

`Printed` says which lines a tree consists of.  A title stands above, then comes a block for each group: its
heading, its description if it has one, and the drawing of a table with a row for each project, in whose
last cell the pointers stand.  The last line counts headings, rows and pointers.

Names and descriptions may contain line feeds.  A heading then takes several lines, and so does a row of a
table; therefore the lines of the text are told from what stands between its line feeds, and each part of
the tree has those that it takes. -/

namespace PipelineRegistry.CommandLine

/-! ### Styles -/

/-- The sequences that begin and end styles. -/
def styleSigns : List (List Char) :=
  ["\x1b[0m", "\x1b[1m", "\x1b[2m", "\x1b[32m", "\x1b[33m"].map String.toList

/-- The second text is the first as it is printed: with colours, sequences that begin and end styles may
stand anywhere in it. -/
inductive Styled (colours : Bool) : List Char → List Char → Prop
  | nil : Styled colours [] []
  | char {s t : List Char} (c : Char) : Styled colours s t → Styled colours (c :: s) (c :: t)
  | sign {sign s t : List Char} : colours = true → sign ∈ styleSigns → Styled colours s t →
      Styled colours s (sign ++ t)

namespace Styled

variable {colours : Bool} {s s' t t' : List Char}

theorem refl (s : List Char) : Styled colours s s := by
  induction s with
  | nil => exact .nil
  | cons c s ih => exact .char c ih

theorem append (h : Styled colours s t) (h' : Styled colours s' t') :
    Styled colours (s ++ s') (t ++ t') := by
  induction h with
  | nil => exact h'
  | char c _ ih => exact .char c ih
  | sign hcolours hsign _ ih =>
      rw [List.append_assoc]
      exact .sign hcolours hsign ih

/-- Without colours a text is printed as it is. -/
theorem eq (h : Styled false s t) : t = s := by
  induction h with
  | nil => rfl
  | char c _ ih => rw [ih]
  | sign hcolours => cases hcolours

theorem opening_mem (style : Style) : style.opening.toList ∈ styleSigns := by
  cases style <;> decide

theorem resumed (style : Style) (hcolours : colours = true) (s : List Char) :
    Styled colours s (style.resumed s) := by
  induction s using Style.resumed.induct with
  | case1 cs ih =>
      -- the sequence is part of the text, and only the opening is put in
      rw [Style.resumed, List.append_assoc]
      change Styled colours _
        ('\x1b' :: '[' :: '0' :: 'm' :: (style.opening.toList ++ style.resumed cs))
      exact .char _ (.char _ (.char _ (.char _ (.sign hcolours (opening_mem style) ih))))
  | case2 c cs hne ih =>
      rw [Style.resumed]
      · exact .char c ih
      · exact hne
  | case3 => exact .nil

theorem apply (style : Style) (s : String) :
    Styled colours s.toList (style.apply colours s).toList := by
  unfold Style.apply
  split
  · rename_i hcolours
    rw [String.toList_append, String.toList_append, String.toList_ofList, List.append_assoc]
    refine .sign hcolours (opening_mem style) ?_
    have hclosing : Styled colours [] (Style.closing.toList ++ []) :=
      .sign hcolours (by decide) .nil
    simpa using (resumed style hcolours s.toList).append hclosing
  · exact refl _

end Styled

/-! ### Blocks, rows and entries -/

/-- The line for numbers of groups, projects and pipelines. -/
def totalsText (groups projects pipelines : Nat) : String :=
  s!"{groups} group(s), {projects} project(s), {pipelines} pipeline(s)"

/-- A row of a table: the cells for a project, and the entries that share the last cell. -/
structure TreeRow where
  cells : List String
  entries : List String

/-- The cells as they are printed. -/
def TreeRow.printed (row : TreeRow) : List String :=
  row.cells ++ [if row.entries = [] then "-" else ", ".intercalate row.entries]

/-- The block for a group: its heading, the lines below, and the rows of its table. -/
structure TreeBlock where
  heading : String
  remarks : List String
  rows : List TreeRow

namespace TreeBlock

/-- The table of a block. -/
def table (block : TreeBlock) : Table :=
  ⟨["project", "id", "tag", "pipelines"], block.rows.map TreeRow.printed⟩

/-- The lines that show a block.  Without rows there is no table. -/
inductive Drawing (colours : Bool) (block : TreeBlock) : List (List Char) → Prop
  | intro {heading : List Char} {remarks body : List (List Char)} :
      Styled colours block.heading.toList heading →
      block.remarks.Forall₂ (fun remark printed => Styled colours remark.toList printed) remarks →
      (block.rows = [] → body = ["  (no projects)".toList]) →
      (block.rows ≠ [] → block.table.Drawing body) →
      Drawing colours block
        ([] :: heading.splitOn '\n' ++ remarks.flatMap (·.splitOn '\n') ++ body)

/-- The line that counts the headings, rows and entries of some blocks. -/
def totals (blocks : List TreeBlock) : String :=
  let rows := blocks.flatMap TreeBlock.rows
  totalsText blocks.length rows.length (rows.flatMap TreeRow.entries).length

end TreeBlock

/-- The lines of a text that shows blocks between a title and their totals, and ends with a line feed. -/
inductive Printed (colours : Bool) (document : Path) (blocks : List TreeBlock) :
    List (List Char) → Prop
  | intro {title : List Char} {parts : List (List (List Char))} :
      Styled colours s!"Registry: {document.display}".toList title →
      blocks.Forall₂ (TreeBlock.Drawing colours) parts →
      Printed colours document blocks ([] :: title.splitOn '\n' ++
        List.replicate 60 '─' :: parts.flatten ++ [(TreeBlock.totals blocks).toList, []])

/-- The row that shows a project. -/
def rowOf (p : Project) : TreeRow where
  cells := [p.name, toString p.id, p.tag.getD "-"]
  entries := p.pointers.toList.map fun q => s!"{q.id}:{q.name}"

/-- The block that shows a group. -/
def blockOf (g : Group) : TreeBlock where
  heading := s!"#{g.id} {g.name}" ++ g.tag.elim "" fun tag => s!" [{tag}]"
  remarks := g.description.elim [] fun d => ["  " ++ d]
  rows := g.projects.toList.map rowOf

/-- The blocks that show a registry. -/
def blocksOf (r : Registry) : List TreeBlock := r.groups.toList.map blockOf

/-! ### What is printed -/

/-- What is written line by line is read line by line. -/
theorem splitOn_unlines (lines : List String) : (unlines lines).toList.splitOn '\n' =
    lines.flatMap (fun line => line.toList.splitOn '\n') ++ [[]] := by
  induction lines with
  | nil => rfl
  | cons line lines ih =>
      have htext : (unlines (line :: lines)).toList =
          line.toList ++ '\n' :: (unlines lines).toList := by
        simp [unlines]
      rw [htext, List.splitOn_append_cons_self, ih, List.flatMap_cons, List.append_assoc]

theorem projectRow_eq (p : Project) : projectRow p = (rowOf p).printed := by
  unfold projectRow pointersCell TreeRow.printed rowOf
  cases hpointers : p.pointers.toList with
  | nil => rfl
  | cons q qs => rfl

theorem projectTable_eq (g : Group) : projectTable g.projects.toList = (blockOf g).table := by
  have hrows : projectRow = TreeRow.printed ∘ rowOf := funext projectRow_eq
  rw [projectTable, TreeBlock.table, blockOf, List.map_map, hrows]

theorem splitOn_projectTable (g : Group) :
    ((projectTable g.projects.toList).render).toList.splitOn '\n' = (blockOf g).table.lines ∧
      (blockOf g).table.Drawing (blockOf g).table.lines := by
  rw [projectTable_eq]
  have hne : (blockOf g).table.header ≠ [] := List.cons_ne_nil _ _
  have hrows : ∀ row ∈ (blockOf g).table.rows, row.length = (blockOf g).table.header.length := by
    intro row hrow
    obtain ⟨treeRow, htreeRow, rfl⟩ := List.mem_map.mp hrow
    obtain ⟨p, -, rfl⟩ := List.mem_map.mp htreeRow
    rfl
  exact ⟨Table.splitOn_render hne hrows, Table.drawing_lines hne hrows⟩

/-- The heading of a group is printed with its number and its name in styles. -/
theorem styled_heading (colours : Bool) (g : Group) : Styled colours (blockOf g).heading.toList
    (Style.dimmed.apply colours s!"#{g.id}" ++ " " ++ Style.bold.apply colours g.name ++
      g.tag.elim "" fun tag => s!" [{tag}]").toList := by
  have hheading : (blockOf g).heading = s!"#{g.id}" ++ " " ++ g.name ++
      g.tag.elim "" fun tag => s!" [{tag}]" := by
    simp only [blockOf, String.append_assoc]
    rfl
  rw [hheading]
  generalize s!"#{g.id}" = number
  simp only [String.toList_append]
  exact (((Styled.apply _ _).append (.refl _)).append (.apply _ _)).append (.refl _)

theorem styled_remarks (colours : Bool) (g : Group) :
    (blockOf g).remarks.Forall₂ (fun remark printed => Styled colours remark.toList printed)
      (g.description.elim [] fun d => [("  " ++ Style.dimmed.apply colours d).toList]) := by
  unfold blockOf
  cases g.description with
  | none => exact .nil
  | some d =>
      refine .cons ?_ .nil
      rw [String.toList_append, String.toList_append]
      exact (Styled.refl _).append (.apply _ _)

/-- The lines for a group are a drawing of its block. -/
theorem drawing_groupLines (colours : Bool) (g : Group) : (blockOf g).Drawing colours
    ((groupLines colours g).flatMap fun line => line.toList.splitOn '\n') := by
  obtain ⟨hrender, hdrawing⟩ := splitOn_projectTable g
  have hremarks : (g.description.elim [] fun d => ["  " ++ Style.dimmed.apply colours d]).flatMap
      (fun line => line.toList.splitOn '\n') =
      (g.description.elim [] fun d => [("  " ++ Style.dimmed.apply colours d).toList]).flatMap
        (·.splitOn '\n') := by
    cases g.description <;> rfl
  have hrows : (blockOf g).rows = [] ↔ g.projects.toList = [] := List.map_eq_nil_iff
  unfold groupLines
  rw [List.flatMap_append, List.flatMap_append, List.flatMap_cons, List.flatMap_cons,
    List.flatMap_nil, List.append_nil, hremarks]
  refine .intro (styled_heading colours g) (styled_remarks colours g) ?_ ?_
  · intro hnone
    rw [hrows.mp hnone]
    rfl
  · intro hsome
    obtain ⟨p, ps, hps⟩ := List.exists_cons_of_ne_nil (fun h => hsome (hrows.mpr h))
    rw [hps] at hrender ⊢
    simp only [List.flatMap_cons, List.flatMap_nil, List.append_nil, hrender]
    exact hdrawing

theorem not_mem_toString {c : Char} (hc : c.isDigit = false) (n : Nat) : c ∉ (toString n).toList := by
  rw [Nat.toString_eq_ofList_toDigits, String.toList_ofList]
  intro hmem
  rw [Nat.isDigit_of_mem_toDigits (by decide) (by decide) hmem] at hc
  cases hc

theorem splitOn_totalsText (groups projects pipelines : Nat) :
    (totalsText groups projects pipelines).toList.splitOn '\n' =
      [(totalsText groups projects pipelines).toList] := by
  refine List.splitOn_eq_singleton ?_
  have hnumber : ∀ n : Nat, '\n' ∉ (toString n).toList := not_mem_toString rfl
  simp only [totalsText, String.toList_append, List.mem_append, not_or]
  refine ⟨⟨⟨⟨⟨hnumber _, ?_⟩, hnumber _⟩, ?_⟩, hnumber _⟩, ?_⟩ <;> decide

/-- The tree of a registry shows it, if it counts what there is. -/
theorem printed_treeLines (colours : Bool) (document : Path) {r : Registry}
    (htotals : TreeBlock.totals (blocksOf r) =
      totalsText r.groupCount r.projectCount r.pointerCount) :
    Printed colours document (blocksOf r)
      ((unlines (treeLines colours document r)).toList.splitOn '\n') := by
  have hblocks : (blocksOf r).Forall₂ (TreeBlock.Drawing colours) (r.groups.toList.map fun g =>
      (groupLines colours g).flatMap fun line => line.toList.splitOn '\n') := by
    rw [blocksOf, List.forall₂_map_left_iff, List.forall₂_map_right_iff, List.forall₂_same]
    exact fun g _ => drawing_groupLines colours g
  have htitle : Styled colours s!"Registry: {document.display}".toList _ := .apply Style.bold _
  have hrule : (String.ofList (List.replicate ruleLength '─')).toList.splitOn '\n' =
      [List.replicate 60 '─'] := by decide +kernel
  have htotalsLine := splitOn_totalsText r.groupCount r.projectCount r.pointerCount
  have hlines : (unlines (treeLines colours document r)).toList.splitOn '\n' =
      [] :: (Style.bold.apply colours s!"Registry: {document.display}").toList.splitOn '\n' ++
        List.replicate 60 '─' :: (r.groups.toList.map fun g =>
          (groupLines colours g).flatMap fun line => line.toList.splitOn '\n').flatten ++
        [(TreeBlock.totals (blocksOf r)).toList, []] := by
    rw [splitOn_unlines, treeLines, htotals]
    unfold totalsText at htotalsLine ⊢
    simp only [List.flatMap_append, List.flatMap_cons, List.flatMap_nil, hrule, htotalsLine,
      List.flatMap_assoc, ← List.flatMap_def, String.toList_empty, List.splitOn_nil]
    simp only [List.cons_append, List.append_assoc, List.nil_append]
  rw [hlines]
  exact .intro htitle hblocks

end PipelineRegistry.CommandLine
