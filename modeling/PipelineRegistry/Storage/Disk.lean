import PipelineRegistry.Storage.FileSystem

/-! # Disks in memory

A disk is a value: files and directories at locations below a root, which is also the current
directory.  There are no links, so a location determines what is there and `..` leads to the
location above.

Each file has a serial number of its own, given when it is created; renaming keeps it.  A disk may
also hold mishaps for the coming steps, which make a step fail that would have succeeded. -/

namespace PipelineRegistry

/-- A name of a file or directory, as bytes. -/
abbrev FileName := List UInt8

/-- The names that lead from the root to a file or directory. -/
abbrev Location := List FileName

/-- A file. -/
structure File where
  serial : Nat
  mode : Nat
  content : ByteArray

/-- What can be at a location. -/
inductive Node where
  | file (f : File)
  | directory (mode : Nat)

/-- A file or directory at its location. -/
structure DiskEntry where
  location : Location
  node : Node

instance : Keyed DiskEntry Location := ⟨DiskEntry.location⟩

/-- What can befall a step. -/
inductive Mishap where
  /-- Nothing is done. -/
  | refused (cause : IoCause)
  /-- Of a write only the first `length` bytes are done, of new directories only those on the first
  `length` names, and of other steps nothing. -/
  | torn (length : Nat) (cause : IoCause)
deriving DecidableEq

/-- The content of a disk, the serial number of the next file, and what befalls the coming steps. -/
structure Disk where
  entries : Listing DiskEntry
  nextSerial : Nat
  mishaps : List (Option Mishap)

namespace Path

/-- The longest name of a file or directory, in bytes. -/
def maxNameLength : Nat := 255

/-- The longest path, in bytes. -/
def maxLength : Nat := 4095

/-- The names in a path, `.` and `..` among them. -/
def names (p : Path) : List FileName := (pieces p.bytes).filter (· ≠ [])

/-- The name of the directory itself. -/
def currentName : FileName := [dot]

/-- The name of the directory above. -/
def parentName : FileName := [dot, dot]

/-- Whether a path ends in a separator, so that only a directory can be meant. -/
def endsInSeparator (p : Path) : Bool := p.bytes.getLast? = some separator

/-- Whether no file system takes the path. -/
def check (p : Path) : Except IoCause Unit :=
  if 0 ∈ p.bytes then .error .nulInPath
  else if p.bytes = [] then .error .notFound
  else if maxLength < p.bytes.length then .error .nameTooLong
  else .ok ()

end Path

namespace Disk

/-- A disk without files. -/
def empty : Disk := ⟨.empty, 0, []⟩

/-- The permissions of a new directory. -/
def directoryMode : Nat := 0o755

/-- The permissions of a new file. -/
def fileMode : Nat := 0o644

/-! ### Locations -/

/-- What is at a location; the root is always there. -/
def node? (d : Disk) (l : Location) : Option Node :=
  if l = [] then some (.directory directoryMode) else (d.entries.get? l).map DiskEntry.node

/-- Puts something at a location. -/
def put (d : Disk) (l : Location) (n : Node) : Disk := { d with entries := d.entries.insert ⟨l, n⟩ }

/-- Takes a location and all that is below it away. -/
def remove (d : Disk) (l : Location) : Disk :=
  { d with entries := ⟨d.entries.toList.filter fun e => ¬ l <+: e.location⟩ }

/-- One step down from the directory at `l`. -/
def descend (d : Disk) (l : Location) (name : FileName) : Except IoCause Location :=
  match d.node? l with
  | none => .error .notFound
  | some (.file _) => .error .notDirectory
  | some (.directory _) =>
    if name = Path.currentName then .ok l
    else if name = Path.parentName then .ok l.dropLast
    else if Path.maxNameLength < name.length then .error .nameTooLong
    else .ok (l ++ [name])

/-- The location to which names lead from the root. -/
def walk (d : Disk) (names : List FileName) : Except IoCause Location := names.foldlM d.descend []

/-- The location of a path, whether or not something is there. -/
def locate (d : Disk) (p : Path) : Except IoCause Location := do
  p.check
  d.walk (p.names ++ if p.endsInSeparator then [Path.currentName] else [])

/-- What is at a path. -/
def lookUp (d : Disk) (p : Path) : Except IoCause Node := do
  match d.node? (← d.locate p) with
  | some n => return n
  | none => throw .notFound

/-- The location of a path at which a file can be put.  `dots` is said where the path does not end in
a name, and `slash` where it ends in a separator. -/
def locateFile (d : Disk) (dots slash : IoCause) (p : Path) : Except IoCause Location := do
  p.check
  let names := p.names
  let directory ← d.walk (names.dropLast ++ [Path.currentName])
  match names.getLast? with
  | none => throw dots
  | some name =>
    if name = Path.currentName ∨ name = Path.parentName then throw dots
    if p.endsInSeparator then throw slash
    d.descend directory name

/-! ### Steps -/

/-- Creates the directories to which names lead from `l`. -/
def makeDirectories (d : Disk) (l : Location) : List FileName → Except IoCause Unit × Disk
  | [] => match d.node? l with
    | some (.file _) => (.error (.other "File exists (os error 17)"), d)
    | _ => (.ok (), d)
  | name :: names =>
    match d.descend l name with
    | .error cause => (.error cause, d)
    | .ok below =>
      if (d.node? below).isSome then d.makeDirectories below names
      else (d.put below (.directory directoryMode)).makeDirectories below names

/-- Gives the file at a location new content. -/
def writeAt (d : Disk) (l : Location) (content : ByteArray) : Except IoCause Unit × Disk :=
  match d.node? l with
  | some (.directory _) => (.error .isDirectory, d)
  | some (.file f) => (.ok (), d.put l (.file { f with content }))
  | none =>
    (.ok (), { d.put l (.file ⟨d.nextSerial, fileMode, content⟩) with nextSerial := d.nextSerial + 1 })

/-- Sets the permissions at a location. -/
def setModeAt (d : Disk) (l : Location) (mode : Nat) : Except IoCause Unit × Disk :=
  match d.node? l with
  | none => (.error .notFound, d)
  | some (.directory _) => (.ok (), if l = [] then d else d.put l (.directory mode))
  | some (.file f) => (.ok (), d.put l (.file { f with mode }))

/-- Puts the file at one location in the place of what is at another. -/
def renameAt (d : Disk) (source target : Location) : Except IoCause Unit × Disk :=
  match d.node? source, d.node? target with
  | none, _ => (.error .notFound, d)
  | some (.directory _), _ | _, some (.directory _) => (.error .isDirectory, d)
  | some (.file f), _ =>
    (.ok (), if source = target then d else (d.remove source).put target (.file f))

/-- Performs a step. -/
def apply (d : Disk) : Step → Except IoCause Unit × Disk
  | .createDirectories p =>
    if p.bytes = [] then (.ok (), d)
    else match p.check with
      | .error cause => (.error cause, d)
      | .ok () => d.makeDirectories [] p.names
  | .setMode p mode =>
    match d.locate p with
    | .error cause => (.error cause, d)
    | .ok l => d.setModeAt l mode
  | .write p content =>
    match d.locateFile .isDirectory .isDirectory p with
    | .error cause => (.error cause, d)
    | .ok l => d.writeAt l content
  | .rename source target =>
    match d.locate source, d.locateFile .busy .notDirectory target with
    | .error cause, _ | _, .error cause => (.error cause, d)
    | .ok s, .ok t => d.renameAt s t

/-- A step as it is done when `mishap` befalls it. -/
def applyTorn (d : Disk) (mishap : Mishap) (step : Step) : Except IoCause Unit × Disk :=
  match mishap, step with
  | .refused cause, _ => (.error cause, d)
  | .torn length cause, .write p content => (.error cause, (d.apply (.write p (content.extract 0 length))).2)
  | .torn length cause, .createDirectories p =>
    (.error cause, if p.check.isOk then (d.makeDirectories [] (p.names.take length)).2 else d)
  | .torn _ cause, _ => (.error cause, d)

/-- Performs a step, or lets the next mishap befall it. -/
def perform (d : Disk) (step : Step) : Except IoCause Unit × Disk :=
  match d.mishaps with
  | [] => d.apply step
  | none :: rest => { d with mishaps := rest }.apply step
  | some mishap :: rest => { d with mishaps := rest }.applyTorn mishap step

/-! ### Questions -/

/-- The content of a file. -/
def read (d : Disk) (p : Path) : Except IoCause ByteArray := do
  match ← d.lookUp p with
  | .file f => return f.content
  | .directory _ => throw .isDirectory

/-- Whether something is at a path. -/
def isPresent (d : Disk) (p : Path) : Bool := (d.lookUp p).isOk

/-- The serial number of the file at a path. -/
def serial? (d : Disk) (p : Path) : Option Nat :=
  match d.lookUp p with
  | .ok (.file f) => some f.serial
  | _ => none

instance : FileSystem (StateM Disk) where
  isPresent p := fun d => (d.isPresent p, d)
  read p := fun d => (d.read p, d)
  perform step := fun d => d.perform step

end Disk
end PipelineRegistry
