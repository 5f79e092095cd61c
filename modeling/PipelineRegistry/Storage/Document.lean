import PipelineRegistry.Registry.Loading
import PipelineRegistry.Storage.FileSystem
import PipelineRegistry.Workspace

/-! # Loading and saving a registry

A registry is stored as one document.  It is replaced by writing the new text to a sibling file and
renaming that file, so that the document holds either its former text or the new one, whatever
happens in between. -/

namespace PipelineRegistry.Storage
open Calendar

variable {m : Type → Type} [Monad m] [FileSystem m]

/-- The permissions of the directory of a document. -/
def directoryMode : Nat := 0o700

/-- The permissions of a document. -/
def documentMode : Nat := 0o600

/-- The steps that make the directory of a document. -/
def directorySteps (directory : Path) : List Step :=
  [.createDirectories directory, .setMode directory directoryMode]

/-- The steps that replace a document. -/
def replaceSteps (document : Path) (text : String) : List Step :=
  let draft := Workspace.draft document
  [.write draft text.toUTF8, .setMode draft documentMode, .rename draft document]

/-- Performs steps until one is refused. -/
def performAll : List Step → m (Except RegistryError Unit)
  | [] => pure (.ok ())
  | step :: steps => do
    match ← FileSystem.perform step with
    | .error cause => pure (.error (.io step.subject cause))
    | .ok () => performAll steps

/-- Makes the directory of a document if it is missing. -/
def prepareDirectory (document : Path) : m (Except RegistryError Unit) :=
  match document.parent with
  | none => pure (.ok ())
  | some directory => do
    if ← FileSystem.isPresent directory then pure (.ok ())
    else performAll (directorySteps directory)

/-- Saves a registry. -/
def save (document : Path) (r : Registry) : m (Except RegistryError Unit) := do
  match ← prepareDirectory document with
  | .error e => pure (.error e)
  | .ok () =>
    match r.render? with
    | none => pure (.error .unwritable)
    | some text => performAll (replaceSteps document text)

/-- The registry that the content of a document stands for. -/
def interpret (document : Path) (content : ByteArray) : Except RegistryError Registry :=
  match String.fromUTF8? content with
  | none => .error (.io document .notUtf8)
  | some text => (Registry.parse text).mapError (.storageCorruption document)

/-- Loads a registry. -/
def load (document : Path) : m (Except RegistryError Registry) := do
  match ← FileSystem.read document with
  | .error cause => pure (.error (.io document cause))
  | .ok content => pure (interpret document content)

/-- Loads a registry, or saves the first registry where there is none. -/
def loadOrSeed (now : Timestamp) (document : Path) : m (Except RegistryError Registry) := do
  if ← FileSystem.isPresent document then load document
  else
    let r := Registry.initial now
    return (← save document r).map fun () => r

end PipelineRegistry.Storage
