import PipelineRegistry.Storage.Handle

/-! # Sessions

A session opens a handle and serves calls one after the other.  Each call comes at a time of its own
and asks for a change, for a look at the registry, or for the registry to be read anew.  Whether a
call succeeds or fails, the session goes on. -/

namespace PipelineRegistry
open Calendar

/-- What is asked of an open handle. -/
inductive Request where
  | change (operation : Operation)
  | read
  | reset
deriving DecidableEq, Repr

/-- A request and the time at which it is made. -/
structure Call where
  now : Timestamp
  request : Request
deriving DecidableEq, Repr

namespace Handle

variable {m : Type → Type} [Monad m] [FileSystem m]

/-- Serves a call and gives the handle as it is afterwards. -/
def serve (h : Handle) (call : Call) : m Handle :=
  match call.request with
  | .change operation => Prod.snd <$> h.perform call.now operation
  | .read => Prod.snd <$> h.registry call.now
  | .reset => Prod.snd <$> h.reset call.now

/-- Serves calls one after the other. -/
def serveAll (h : Handle) : List Call → m Handle
  | [] => pure h
  | call :: calls => do (← h.serve call).serveAll calls

end Handle

/-- Opens the registry stored at a path and serves calls; gives the handle as it is at the end. -/
def session {m : Type → Type} [Monad m] [FileSystem m] (document : Path) (now : Timestamp)
    (calls : List Call) : m (Except RegistryError Handle) := do
  match ← Handle.openAt document now with
  | .error e => pure (.error e)
  | .ok h => return .ok (← h.serveAll calls)

end PipelineRegistry
