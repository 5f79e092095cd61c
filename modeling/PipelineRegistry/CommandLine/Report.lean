import PipelineRegistry.Registry.Error

/-! # Reports

What a run of the tool leaves behind: an exit code and the texts on the two output streams.  A failure
is reported by what was tried and by the causes of the failure, the nearest first.  A single cause
is indented; several are numbered; further lines of a cause are indented to where its text
begins. -/

namespace PipelineRegistry.CommandLine

/-- The outcome of a run. -/
structure Report where
  code : Nat
  out : String
  err : String
deriving DecidableEq, Repr

/-- The causes of a failure, the nearest first. -/
def causes (e : RegistryError) : List String := e.message :: e.source?.toList

/-- A text whose lines after the first are indented. -/
def indented (places : Nat) (s : String) : String :=
  s.replace "\n" ("\n" ++ String.ofList (List.replicate places ' '))

/-- The lines for the causes of a failure. -/
def causeLines : List String → List String
  | [cause] => ["    " ++ indented 4 cause]
  | causes => causes.zipIdx.map fun numbered => s!"    {numbered.2}: " ++ indented 7 numbered.1

/-- The text about a failure while `context` was tried. -/
def failureText (context : String) (causes : List String) : String :=
  "Error: " ++ context ++
    (if causes = [] then "" else "\n\nCaused by:\n" ++ "\n".intercalate (causeLines causes)) ++ "\n"

namespace Report

/-- The report of a success. -/
def success (out : String) : Report := ⟨0, out, ""⟩

/-- The report of a failure. -/
def failure (context : String) (causes : List String) : Report :=
  ⟨1, "", failureText context causes⟩

end Report
end PipelineRegistry.CommandLine
