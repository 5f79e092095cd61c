import PipelineRegistry.Registry.Error

/-! # File systems

What the registry needs of a file system: to ask whether a path exists, to read a file, and to
perform steps that change something.  Steps are values, so that what a save does can be written down
as a list and looked at apart from its performance. -/

namespace PipelineRegistry

/-- A change of the file system that is done as a whole or refused. -/
inductive Step where
  /-- Creates a directory and those above it as far as they are missing. -/
  | createDirectories (path : Path)
  /-- Sets the permissions of a file or directory. -/
  | setMode (path : Path) (mode : Nat)
  /-- Gives a file new content, creating it if it is missing. -/
  | write (path : Path) (content : ByteArray)
  /-- Puts a file in the place of another. -/
  | rename (source target : Path)

/-- The path that is named when a step is refused. -/
def Step.subject : Step → Path
  | createDirectories path | setMode path _ | write path _ => path
  | rename _ target => target

/-- A monad whose actions can use a file system. -/
class FileSystem (m : Type → Type) where
  /-- Whether something is at a path. -/
  isPresent : Path → m Bool
  /-- The content of a file. -/
  read : Path → m (Except IoCause ByteArray)
  /-- Performs a step. -/
  perform : Step → m (Except IoCause Unit)

end PipelineRegistry
