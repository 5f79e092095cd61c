import Mathlib
import PipelineRegistry.CommandLine.Table
import PipelineRegistry.Proofs.Chain

/-! # What a drawn table shows

`Table.Drawing` says which lines are a drawing of a table, without saying how they are made.  A line of a
row shows a text in each column, between bars; rules stand above and below the header and at the end.
Read column by column, the lines of a row give the lines of its cells again.

No line of a drawing contains a line feed, so that the lines can be told apart when it is printed. -/

namespace PipelineRegistry.CommandLine
open Text

/-! ### Lines of a text -/

/-- No piece contains what the text was split at. -/
theorem not_mem_of_mem_splitOn {sep : Char} {cs piece : List Char} (h : piece ∈ cs.splitOn sep) :
    sep ∉ piece := by
  induction cs generalizing piece with
  | nil =>
      rw [List.splitOn_nil, List.mem_singleton] at h
      exact h ▸ List.not_mem_nil
  | cons c cs ih =>
      rw [List.splitOn_cons_eq_if_modifyHead] at h
      split at h
      · rcases List.mem_cons.mp h with rfl | h
        · exact List.not_mem_nil
        · exact ih h
      · rename_i hc
        obtain ⟨first, others, hsplit⟩ := List.exists_cons_of_ne_nil (List.splitOn_ne_nil sep cs)
        rw [hsplit] at h ih
        rcases List.mem_cons.mp h with rfl | h
        · rw [List.mem_cons, not_or]
          exact ⟨fun heq => hc (beq_iff_eq.mpr heq.symm), ih List.mem_cons_self⟩
        · exact ih (List.mem_cons_of_mem _ h)

namespace Table

/-! ### Drawings -/

/-- The line shows these texts, one in each column: a bar and a blank stand in front of each, blanks
behind it, and a bar at the end. -/
inductive Barred : List (List Char) → List Char → Prop
  | last : Barred [] ['│']
  | column {text line : List Char} {texts : List (List Char)} (blanks : Nat) : Barred texts line →
      Barred (text :: texts) ('│' :: ' ' :: text ++ List.replicate (blanks + 1) ' ' ++ line)

/-- The lines show the row: in each column the lines of the cell from the top on, and nothing below them.
There are as many lines as the tallest cell has. -/
structure RowDrawing (row : List String) (lines : List (List Char)) : Prop where
  line : ∀ (i : Nat) (line : List Char), lines[i]? = some line →
    Barred (row.map fun cell => ((cell.toList.splitOn '\n')[i]?).getD []) line
  complete : ∀ cell ∈ row, (cell.toList.splitOn '\n').length ≤ lines.length
  tallest : ∃ cell ∈ row, (cell.toList.splitOn '\n').length = lines.length

/-- The line is a rule between two corners. -/
def Ruled (left crossing right : Char) (line : List Char) : Prop :=
  ∃ middle, line = left :: middle ++ [right] ∧ ∀ c ∈ middle, c = '─' ∨ c = crossing

/-- The lines show the table: its header between two rules, its rows, and a rule at the end. -/
inductive Drawing (t : Table) : List (List Char) → Prop
  | intro {top middle bottom : List Char} {header : List (List Char)}
      {rows : List (List (List Char))} :
      Ruled '╭' '┬' '╮' top → RowDrawing t.header header → Ruled '├' '┼' '┤' middle →
      t.rows.Forall₂ RowDrawing rows → Ruled '╰' '┴' '╯' bottom →
      Drawing t (top :: header ++ middle :: rows.flatten ++ [bottom])

variable {t : Table} {row : List String} {ws : List Nat} {lines : List (List Char)}

/-! ### Lines can be told apart -/

theorem Barred.not_mem {texts : List (List Char)} {line : List Char} (h : Barred texts line)
    (htexts : ∀ text ∈ texts, '\n' ∉ text) : '\n' ∉ line := by
  induction h with
  | last => decide
  | column blanks _ ih =>
      rw [List.forall_mem_cons] at htexts
      simp only [List.cons_append, List.mem_cons, List.mem_append, List.mem_replicate]
      rintro (hbar | hblank | (htext | ⟨-, hblank⟩) | hline)
      · exact absurd hbar (by decide)
      · exact absurd hblank (by decide)
      · exact htexts.1 htext
      · exact absurd hblank (by decide)
      · exact ih htexts.2 hline

theorem RowDrawing.not_mem (h : RowDrawing row lines) : ∀ line ∈ lines, '\n' ∉ line := by
  intro line hline
  obtain ⟨i, hi⟩ := List.mem_iff_getElem?.mp hline
  refine (h.line i line hi).not_mem ?_
  intro text htext
  obtain ⟨cell, -, rfl⟩ := List.mem_map.mp htext
  cases hpiece : (cell.toList.splitOn '\n')[i]? with
  | none => exact List.not_mem_nil
  | some piece => exact not_mem_of_mem_splitOn (List.mem_of_getElem? hpiece)

theorem Ruled.not_mem {left crossing right : Char} {line : List Char}
    (h : Ruled left crossing right line) (hchars : '\n' ∉ ['─', left, crossing, right]) :
    '\n' ∉ line := by
  obtain ⟨middle, rfl, hmiddle⟩ := h
  simp only [List.mem_cons, List.not_mem_nil, or_false, not_or] at hchars
  obtain ⟨hrule, hleft, hcrossing, hright⟩ := hchars
  simp only [List.cons_append, List.mem_cons, List.mem_append, List.not_mem_nil, or_false]
  rintro (h | h | h)
  · exact hleft h
  · rcases hmiddle _ h with heq | heq
    · exact hrule heq
    · exact hcrossing heq
  · exact hright h

theorem Drawing.not_mem (h : Drawing t lines) : ∀ line ∈ lines, '\n' ∉ line := by
  cases h with
  | intro htop hheader hmiddle hrows hbottom =>
      intro line hline
      simp only [List.cons_append, List.append_assoc, List.mem_cons, List.mem_append,
        List.not_mem_nil, or_false] at hline
      rcases hline with rfl | hline | rfl | hline | rfl
      · exact htop.not_mem (by decide)
      · exact hheader.not_mem line hline
      · exact hmiddle.not_mem (by decide)
      · obtain ⟨drawn, hdrawn, hline⟩ := List.mem_flatten.mp hline
        obtain ⟨row, -, hrow⟩ := Chain.exists_of_forall₂ hrows hdrawn
        exact hrow.not_mem line hline
      · exact hbottom.not_mem (by decide)

/-! ### What is drawn -/

theorem padLine_eq (w : Nat) (line : List Char) :
    padLine w line = ' ' :: line ++ List.replicate (w - width line + 1) ' ' := by
  rw [padLine, List.replicate_succ', List.append_assoc]

theorem rowLine_cons_cons (w w' : Nat) (ws : List Nat) (text text' : List Char)
    (texts : List (List Char)) : rowLine (w :: w' :: ws) (text :: text' :: texts) =
      '│' :: padLine w text ++ rowLine (w' :: ws) (text' :: texts) := by
  simp [rowLine, List.intercalate_cons_cons]

/-- A line of a row has a column for each text. -/
theorem barred_rowLine {texts : List (List Char)} (hlength : ws.length = texts.length)
    (hne : texts ≠ []) : Barred texts (rowLine ws texts) := by
  induction texts generalizing ws with
  | nil => exact absurd rfl hne
  | cons text texts ih =>
      obtain ⟨w, ws, rfl⟩ := List.exists_cons_of_length_eq_add_one hlength
      rw [List.length_cons, List.length_cons, Nat.add_right_cancel_iff] at hlength
      cases texts with
      | nil =>
          obtain rfl := List.length_eq_zero_iff.mp hlength
          have hline : rowLine [w] [text] =
              '│' :: ' ' :: text ++ List.replicate (w - width text + 1) ' ' ++ ['│'] := by
            simp [rowLine, padLine_eq]
          rw [hline]
          exact .column _ .last
      | cons text' texts =>
          obtain ⟨w', ws, rfl⟩ := List.exists_cons_of_length_eq_add_one hlength
          rw [rowLine_cons_cons, padLine_eq]
          exact .column _ (ih hlength (List.cons_ne_nil _ _))

/-- The greatest number of a list is reached from 0. -/
theorem foldl_max_spec {ns : List Nat} (hne : ns ≠ []) :
    ns.foldl max 0 ∈ ns ∧ ∀ n ∈ ns, n ≤ ns.foldl max 0 := by
  obtain ⟨n, hn⟩ := Option.isSome_iff_exists.mp (List.isSome_max?_of_ne_nil hne)
  have hmax : ns.foldl max 0 = n := by
    rw [List.foldl_max, hn, Option.getD_some, Nat.zero_max]
  rw [hmax]
  exact List.max?_eq_some_iff.mp hn

/-- The lines of a row show it. -/
theorem rowDrawing_rowLines (hlength : ws.length = row.length) (hne : row ≠ []) :
    RowDrawing row (rowLines ws row) := by
  have hheights : (row.map cellLines).map List.length ≠ [] := by simpa using hne
  obtain ⟨htallest, hcomplete⟩ := foldl_max_spec hheights
  have hcount : (rowLines ws row).length = ((row.map cellLines).map List.length).foldl max 0 := by
    rw [rowLines, List.length_map, List.length_range]
  rw [← hcount] at htallest hcomplete
  constructor
  case line =>
    intro i line hline
    rw [rowLines, List.getElem?_map, Option.map_eq_some_iff] at hline
    obtain ⟨i', hi, rfl⟩ := hline
    obtain ⟨hlt, rfl⟩ := List.getElem?_eq_some_iff.mp hi
    rw [List.getElem_range, List.map_map]
    exact barred_rowLine (by simpa using hlength) (by simpa using hne)
  case complete =>
    intro cell hcell
    exact hcomplete _ (List.mem_map_of_mem (List.mem_map_of_mem hcell))
  case tallest =>
    rw [List.map_map] at htallest
    exact List.mem_map.mp htallest

theorem ruled_rule (left crossing right : Char) (ws : List Nat) :
    Ruled left crossing right (rule left crossing right ws) := by
  refine ⟨_, rfl, ?_⟩
  induction ws with
  | nil => exact fun c hc => absurd hc List.not_mem_nil
  | cons w ws ih =>
      have hdashes : ∀ c ∈ List.replicate (w + 2) '─', c = '─' ∨ c = crossing :=
        fun c hc => .inl (List.eq_of_mem_replicate hc)
      cases ws with
      | nil => simp
      | cons w' ws =>
          rw [List.map_cons, List.map_cons, List.intercalate_cons_cons, List.append_assoc,
            List.forall_mem_append, List.forall_mem_append, List.forall_mem_singleton]
          exact ⟨hdashes, .inr rfl, ih⟩

theorem length_widths (hrows : ∀ row ∈ t.rows, row.length = t.header.length) :
    t.widths.length = t.header.length := by
  have hfold : ∀ (rows : List (List Nat)) (ws : List Nat), (∀ row ∈ rows, row.length = ws.length) →
      (rows.foldl (List.zipWith max) ws).length = ws.length := by
    intro rows
    induction rows with
    | nil => exact fun ws _ => rfl
    | cons row rows ih =>
        intro ws hall
        rw [List.forall_mem_cons] at hall
        have hlength : (List.zipWith max ws row).length = ws.length := by
          rw [List.length_zipWith, hall.1, Nat.min_self]
        rw [List.foldl_cons, ih _ (by rw [hlength]; exact hall.2), hlength]
  rw [widths, hfold _ _ (by simpa using hrows), List.length_map]

/-- The lines of a table show it. -/
theorem drawing_lines (hne : t.header ≠ [])
    (hrows : ∀ row ∈ t.rows, row.length = t.header.length) : Drawing t t.lines := by
  have hwidths := length_widths hrows
  have hshown : t.rows.Forall₂ RowDrawing (t.rows.map (rowLines t.widths)) := by
    rw [List.forall₂_map_right_iff, List.forall₂_same]
    intro row hrow
    have hlength := hrows row hrow
    refine rowDrawing_rowLines (hwidths.trans hlength.symm) ?_
    rintro rfl
    exact hne (List.length_eq_zero_iff.mp hlength.symm)
  rw [lines, List.flatMap_def]
  exact .intro (ruled_rule _ _ _ _) (rowDrawing_rowLines hwidths hne) (ruled_rule _ _ _ _) hshown
    (ruled_rule _ _ _ _)

/-- The drawing of a table consists of its lines. -/
theorem splitOn_render (hne : t.header ≠ [])
    (hrows : ∀ row ∈ t.rows, row.length = t.header.length) :
    t.render.toList.splitOn '\n' = t.lines := by
  rw [render, String.toList_ofList]
  exact List.splitOn_intercalate '\n' (drawing_lines hne hrows).not_mem (List.cons_ne_nil _ _)

end Table
end PipelineRegistry.CommandLine
