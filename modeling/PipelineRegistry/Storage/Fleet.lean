import PipelineRegistry.Storage.Session

/-! # Several handles of one document

Handles of the same document have memories of their own, and none knows of the others.  They are told
apart by names.  A name under which no handle has been opened, or whose handle has been closed, stands
for a handle that has read nothing. -/

namespace PipelineRegistry
open Calendar

/-- A document, and what the handle with each name remembers of it. -/
structure Fleet (ι : Type) where
  document : Path
  memory : ι → Option Registry

/-- What is done with the handle of one name. -/
inductive Event (ι : Type) where
  | opened (name : ι) (now : Timestamp)
  | closed (name : ι)
  | called (name : ι) (call : Call)

/-- The name of the handle with which something is done. -/
def Event.name {ι : Type} : Event ι → ι
  | opened name _ => name
  | closed name => name
  | called name _ => name

namespace Handle

variable {m : Type → Type} [Monad m] [FileSystem m]

/-- Serves a call; gives whether it succeeds, and the handle as it is afterwards. -/
def respond (h : Handle) (call : Call) : m (Except RegistryError Unit × Handle) :=
  match call.request with
  | .change operation => Prod.map (·.map fun _ => ()) id <$> h.perform call.now operation
  | .read => Prod.map (·.map fun _ => ()) id <$> h.registry call.now
  | .reset => h.reset call.now

end Handle

namespace Fleet

variable {ι : Type} [DecidableEq ι] {m : Type → Type} [Monad m] [FileSystem m]

/-- Handles that have read nothing. -/
def idle (document : Path) : Fleet ι := ⟨document, fun _ => none⟩

/-- The handle with a name. -/
def handle (f : Fleet ι) (name : ι) : Handle := ⟨f.document, f.memory name⟩

/-- Lets the handle with a name remember something else. -/
def remember (f : Fleet ι) (name : ι) (memory : Option Registry) : Fleet ι :=
  { f with memory := fun other => if other = name then memory else f.memory other }

/-- Does something with one of the handles; gives whether it succeeds.  A handle that cannot be
opened has read nothing. -/
def serve (f : Fleet ι) : Event ι → m (Except RegistryError Unit × Fleet ι)
  | .opened name now => do
    match ← Handle.openAt f.document now with
    | .ok h => pure (.ok (), f.remember name h.memory)
    | .error e => pure (.error e, f.remember name none)
  | .closed name => pure (.ok (), f.remember name none)
  | .called name call => do
    let (answer, h) ← (f.handle name).respond call
    pure (answer, f.remember name h.memory)

/-- Does one thing after the other; gives all answers. -/
def serveAll (f : Fleet ι) : List (Event ι) → m (List (Except RegistryError Unit) × Fleet ι)
  | [] => pure ([], f)
  | event :: events => do
    let (answer, f) ← f.serve event
    let (answers, f) ← f.serveAll events
    pure (answer :: answers, f)

end Fleet
end PipelineRegistry
