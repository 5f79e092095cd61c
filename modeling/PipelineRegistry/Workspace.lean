import PipelineRegistry.Path

/-! # Where the registry lives

Below a home directory the document is `.easeci/workspace/projects-structure.json`.  While it is
being replaced, the new text stands in a sibling file whose name has `.tmp` at the end. -/

namespace PipelineRegistry.Workspace

/-- The directory of the tool below `home`. -/
def root (home : Path) : Path := home.join (.ofString ".easeci")

/-- The directory that holds the document. -/
def directory (home : Path) : Path := (root home).join (.ofString "workspace")

/-- The document of the registry. -/
def document (home : Path) : Path := (directory home).join (.ofString "projects-structure.json")

/-- The bytes of `.tmp`. -/
def draftSuffix : List UInt8 := (Path.ofString ".tmp").bytes

/-- The sibling of `document` in which its next text is prepared. -/
def draft (document : Path) : Path :=
  document.withFileName (document.fileName.getD [] ++ draftSuffix)

end PipelineRegistry.Workspace
