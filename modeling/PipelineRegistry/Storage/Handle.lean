import PipelineRegistry.Registry.Operation
import PipelineRegistry.Storage.Document

/-! # Handles

A handle gives access to the registry stored at a path.  It remembers the registry once it has been
read, and reads it again only after it has been told to forget it.

A change is made on a copy.  The copy is saved if it differs from the registry by more than the order
of its listings and the spelling of its paths, and it is remembered if nothing failed; otherwise
everything stays as it was. -/

namespace PipelineRegistry
open Calendar

/-- A path, and the registry that was read from it. -/
structure Handle where
  document : Path
  memory : Option Registry
deriving DecidableEq

namespace Handle

variable {m : Type → Type} [Monad m] [FileSystem m]

/-- A handle that has read nothing. -/
def fresh (document : Path) : Handle := ⟨document, none⟩

/-- Gives the registry, reading it if it is not remembered. -/
def registry (h : Handle) (now : Timestamp) : m (Except RegistryError Registry × Handle) :=
  match h.memory with
  | some r => pure (.ok r, h)
  | none => do
    match ← Storage.loadOrSeed now h.document with
    | .ok r => pure (.ok r, { h with memory := some r })
    | .error e => pure (.error e, h)

/-- Saves `working` in the place of `current` if they differ by more than order and spelling. -/
def commit (h : Handle) (current working : Registry) : m (Except RegistryError Unit) :=
  if working.agrees current then pure (.ok ()) else Storage.save h.document working

/-- Changes the registry. -/
def exclusively {α : Type} (h : Handle) (now : Timestamp)
    (change : Registry → Except RegistryError (α × Registry)) :
    m (Except RegistryError α × Handle) := do
  match ← h.registry now with
  | (.error e, h) => pure (.error e, h)
  | (.ok current, h) =>
    match change current with
    | .error e => pure (.error e, h)
    | .ok (a, working) =>
      match ← h.commit current working with
      | .error e => pure (.error e, h)
      | .ok () => pure (.ok a, { h with memory := some working })

/-- Performs an operation on the registry. -/
def perform (h : Handle) (now : Timestamp) (operation : Operation) :
    m (Except RegistryError Outcome × Handle) :=
  h.exclusively now fun r => operation.perform now r

/-- The handle without its memory. -/
def forget (h : Handle) : Handle := { h with memory := none }

/-- Forgets the registry and reads it again. -/
def reset (h : Handle) (now : Timestamp) : m (Except RegistryError Unit × Handle) := do
  let (result, h) ← h.forget.registry now
  pure (result.map fun _ => (), h)

/-- Opens the registry stored at a path; it is read at once. -/
def openAt (document : Path) (now : Timestamp) : m (Except RegistryError Handle) := do
  let (result, h) ← (Handle.fresh document).registry now
  pure (result.map fun _ => h)

/-- Opens the registry below a home directory. -/
def openHome (home : Path) (now : Timestamp) : m (Except RegistryError Handle) :=
  openAt (Workspace.document home) now

end Handle
end PipelineRegistry
