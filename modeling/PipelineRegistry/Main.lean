import PipelineRegistry.CommandLine.Run
import Std.Time.DateTime.Timestamp

/-! # The program

Gives a run the file system, clock, arguments and environment of the process, and prints its report.
Paths that are not UTF-8 cannot be handed to the system and are refused. -/

namespace PipelineRegistry.Program
open CommandLine

/-- The cause with a number of the system. -/
def causeOfCode (code : UInt32) (details : String) : IoCause :=
  match code.toNat with
  | 2 => .notFound
  | 16 => .busy
  | 20 => .notDirectory
  | 21 => .isDirectory
  | 36 => .nameTooLong
  | n => .other s!"{details} (os error {n})"

/-- The cause behind an exception. -/
def causeOf : IO.Error → IoCause
  | .alreadyExists _ code details | .invalidArgument _ code details
  | .permissionDenied _ code details | .resourceExhausted _ code details
  | .inappropriateType _ code details | .noSuchThing _ code details
  | .interrupted _ code details | .noFileOrDirectory _ code details
  | .otherError code details | .resourceBusy code details | .resourceVanished code details
  | .unsupportedOperation code details | .hardwareFault code details
  | .unsatisfiedConstraints code details | .illegalOperation code details
  | .protocolError code details | .timeExpired code details => causeOfCode code details
  | .unexpectedEof => .other "unexpected end of file"
  | .userError message => .other message

/-- Runs an action on the text of a path. -/
def withText {α : Type} (p : Path) (action : String → IO α) : IO (Except IoCause α) := do
  match p.text? with
  | none => return .error (.other "path contains invalid UTF-8 characters")
  | some s =>
    match ← (action s).toBaseIO with
    | .ok a => return .ok a
    | .error e => return .error (causeOf e)

/-- The rights in one octal digit of permissions. -/
def rightsOf (digit : Nat) : IO.AccessRight :=
  ⟨digit.testBit 2, digit.testBit 1, digit.testBit 0⟩

/-- Whether a directory is at a path. -/
def isDirectory (p : Path) : IO Bool := do
  match ← withText p fun s => do (← IO.FS.realPath s).isDir with
  | .ok b => return b
  | .error _ => return false

/-- Creates a directory and, as far as they are missing, up to `levels` of those above it. -/
def createDirectories : Nat → Path → IO (Except IoCause Unit)
  | 0, p => withText p fun s => IO.FS.createDir s
  | levels + 1, p => do
    if p.isEmpty then return .ok ()
    let create := withText p fun s => IO.FS.createDir s
    let settle (cause : IoCause) : IO (Except IoCause Unit) := do
      if ← isDirectory p then return .ok () else return .error cause
    match ← create, p.parent with
    | .ok (), _ => return .ok ()
    | .error .notFound, some above =>
      match ← createDirectories levels above with
      | .error cause => return .error cause
      | .ok () =>
        match ← create with
        | .ok () => return .ok ()
        | .error cause => settle cause
    | .error cause, _ => settle cause

/-- Performs a step on the file system of the process. -/
def performStep : Step → IO (Except IoCause Unit)
  | .createDirectories p => createDirectories p.bytes.length p
  | .setMode p mode => withText p fun s =>
    IO.setAccessRights s ⟨rightsOf (mode / 64), rightsOf (mode / 8), rightsOf mode⟩
  | .write p content => withText p fun s => IO.FS.writeBinFile s content
  | .rename source target => do
    match target.text? with
    | none => return .error (.other "path contains invalid UTF-8 characters")
    | some t => withText source fun s => IO.FS.rename s t

instance : FileSystem IO where
  isPresent p := do
    match ← withText p fun s => do (← IO.FS.realPath s).pathExists with
    | .ok b => return b && !p.isEmpty
    | .error _ => return false
  read p := withText p fun s => IO.FS.readBinFile s
  perform := performStep

/-- The path in a variable of the environment. -/
def pathVariable (name : String) : BaseIO (Option Path) :=
  return (← IO.getEnv name).map .ofString

/-- The environment of the process. -/
def environment : IO Environment := do
  let isTerminal ← (← IO.getStdout).isTty
  let colours := wantsColours (← IO.getEnv "CLICOLOR_FORCE") (← IO.getEnv "NO_COLOR")
    (← IO.getEnv "CLICOLOR") isTerminal
  return ⟨← pathVariable "EASECI_HOME", (← pathVariable "HOME").filter (!·.isEmpty), colours⟩

/-- The time of the clock. -/
def currentTime : IO Calendar.Timestamp := do
  let now ← Std.Time.Timestamp.now
  let nanoseconds := now.toNanosecondsSinceUnixEpoch.val
  return .ofEpoch (nanoseconds / 1000000000) (nanoseconds % 1000000000).toNat

end PipelineRegistry.Program

open PipelineRegistry in
/-- Runs the tool. -/
def main (args : List String) : IO UInt32 := do
  let report : CommandLine.Report ←
    CommandLine.run (← Program.environment) (← Program.currentTime) args
  IO.print report.out
  IO.eprint report.err
  return report.code.toUInt32
