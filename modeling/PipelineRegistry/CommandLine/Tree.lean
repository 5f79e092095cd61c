import PipelineRegistry.CommandLine.Style
import PipelineRegistry.CommandLine.Table
import PipelineRegistry.Registry.Basic

/-! # The report on a registry

For each group the report shows a table of its projects with their pipeline pointers, and at its end
it counts what the registry holds. -/

namespace PipelineRegistry.CommandLine

/-- What stands in a cell for something absent. -/
def absentCell : String := "-"

/-- The pointers of a project in one cell. -/
def pointersCell (p : Project) : String :=
  match p.pointers.toList with
  | [] => absentCell
  | pointers => ", ".intercalate (pointers.map fun q => s!"{q.id}:{q.name}")

/-- The row for a project. -/
def projectRow (p : Project) : List String :=
  [p.name, toString p.id, p.tag.getD absentCell, pointersCell p]

/-- The table of projects. -/
def projectTable (projects : List Project) : Table :=
  ⟨["project", "id", "tag", "pipelines"], projects.map projectRow⟩

/-- The lines for a group. -/
def groupLines (colours : Bool) (g : Group) : List String :=
  let tag := g.tag.elim "" fun tag => s!" [{tag}]"
  ["", Style.dimmed.apply colours s!"#{g.id}" ++ " " ++ Style.bold.apply colours g.name ++ tag] ++
  g.description.elim [] (fun d => ["  " ++ Style.dimmed.apply colours d]) ++
  match g.projects.toList with
  | [] => ["  (no projects)"]
  | projects => [(projectTable projects).render]

/-- The number of signs in the rule below the title. -/
def ruleLength : Nat := 60

/-- The lines of the report on the registry stored at `document`. -/
def treeLines (colours : Bool) (document : Path) (r : Registry) : List String :=
  ["", Style.bold.apply colours s!"Registry: {document.display}",
   String.ofList (List.replicate ruleLength '─')] ++
  r.groups.toList.flatMap (groupLines colours) ++
  [s!"{r.groupCount} group(s), {r.projectCount} project(s), {r.pointerCount} pipeline(s)"]

/-- Writes lines, each with a line feed at its end. -/
def unlines (lines : List String) : String := String.join (lines.map (· ++ "\n"))

end PipelineRegistry.CommandLine
