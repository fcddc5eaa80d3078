import BuildPlan.Host.Basic
import BuildPlan.Host.Place
import BuildPlan.Text.Cut

/-!
# Working directories

A working directory as a value: files and directories by the place where they are, most of them
below it. A directory is also what leads to another or to a file, what is above the working
directory, and what every machine has. Nothing else is known to be outside of the working directory,
except for devices.

A path goes through directories only; a part `.` stays, and a part `..` goes back. A path may not be
too long, nor any name in it.
-/

set_option autoImplicit false
set_option relaxedAutoImplicit false

namespace BuildPlan

/-- Files, each with its place, and directories. -/
structure Workdir where
  files : List (Place × String)
  directories : List Place

/-- What is found under a path. -/
inductive Workdir.Found where
  | file (content : String)
  | directory
  | device (device : Device)
  deriving DecidableEq

/-! ### Devices -/

namespace Device

/-- What is read from a device. -/
def source : Device → Except SystemFault Source
  | .input => .ok .input
  | .terminal => .error .noDevice
  | .null | .full | .output | .errors => .ok (.text "")

/-- Why a text cannot be written to a device, if it cannot. -/
def writeFault? (content : String) : Device → Option SystemFault
  | .full => if content = "" then none else some .noSpace
  | .terminal => some .noDevice
  | .null | .input | .output | .errors => none

end Device

/-- Why no file can be made at a place, if none can. The system shows its own state as files in some
directories, where no others can be. -/
def Place.creationFault? (place : Place) : Option SystemFault :=
  match place.origin, place.names with
  | .root, "proc" :: _ => some .noSuchFile
  | .root, "dev" :: "fd" :: _ => some .noSuchFile
  | .root, "sys" :: _ => some .permissionDenied
  | _, _ => none

/-! ### Paths -/

namespace Workdir

/-- The character between the parts of a path. -/
def separator : Char := '/'

/-- How many bytes a path may have. -/
def pathLimit : Nat := 4095

/-- How many bytes a name in a path may have. -/
def nameLimit : Nat := 255

/-- The parts of a path. -/
def parts (path : String) : List String :=
  let pieces := Text.pieces separator path.toList
  (pieces.1 :: pieces.2).map .ofList

/-- Whether a part of a path stays in its directory. -/
def stays (part : String) : Bool :=
  part = "" || part = "."

/-- The place that a part of a path leads to. -/
def step (place : Place) (part : String) : Place :=
  if stays part then place else if part = ".." then place.parent else place.child part

/-- The places that the parts of a path lead through, without the last one. -/
def places (place : Place) : List String → List Place
  | [] => []
  | part :: rest => place :: places (step place part) rest

/-- The place from which a path goes that is used in a directory. -/
def origin (directory : Place) (path : String) : Place :=
  if path.toList.head? = some separator then .root else directory

/-- The working directory with a file more, and with all directories that its path goes through. -/
def provide (workdir : Workdir) (path content : String) : Workdir where
  files := ((parts path).foldl step (origin .start path), content) :: workdir.files
  directories := places (origin .start path) (parts path) ++ workdir.directories

/-- The working directory into which some files are put, one after the other. -/
def ofList (files : List (String × String)) : Workdir :=
  files.foldl (fun workdir file ↦ workdir.provide file.1 file.2) { files := [], directories := [] }

/-- What is at a place. -/
def at? (workdir : Workdir) (place : Place) : Option Found :=
  match place.device? with
  | some device => some (.device device)
  | none =>
    match workdir.files.lookup place with
    | some content => some (.file content)
    | none =>
      if place.isStandardDirectory || workdir.files.any (place.leadsTo ·.1) ||
          workdir.directories.any (place.leadsTo ·) then some .directory
      else none

/-- Goes along the parts of a path from a place on. The last part need not lead to anything: then
the result is the place it would be at. -/
def walk (workdir : Workdir) (place : Place) : List String → Except SystemFault Place
  | [] => .ok place
  | part :: rest =>
    match workdir.at? place with
    | none => .error .noSuchFile
    | some (.file _) | some (.device _) => .error .notDirectory
    | some .directory =>
      if nameLimit < part.utf8ByteSize then .error .nameTooLong
      else workdir.walk (step place part) rest

/-- The place that a path leads to from a directory. -/
def resolveFrom (workdir : Workdir) (directory : Place) (path : String) :
    Except SystemFault Place :=
  if path = "" then .error .noSuchFile
  else if pathLimit < path.utf8ByteSize then .error .nameTooLong
  else workdir.walk (origin directory path) (parts path)

/-- The place that a path leads to. -/
def resolve (workdir : Workdir) (path : String) : Except SystemFault Place :=
  workdir.resolveFrom .start path

/-- What a path leads to. -/
def locate (workdir : Workdir) (path : String) : Except SystemFault (Option Found) :=
  (workdir.resolve path).map workdir.at?

/-! ### Reading and writing -/

/-- What is read under a path. -/
def source (workdir : Workdir) (path : String) : Except SystemFault Source :=
  match workdir.locate path with
  | .ok (some (.file content)) => .ok (.text content)
  | .ok (some (.device device)) => device.source
  | .ok (some .directory) => .error .isDirectory
  | .ok none => .error .noSuchFile
  | .error fault => .error fault

/-- The content of a file. -/
def content? (workdir : Workdir) (path : String) : Option String :=
  match workdir.source path with
  | .ok (.text content) => some content
  | _ => none

/-- A path without the separators at its end. -/
def withoutSeparatorsAtEnd (path : String) : String :=
  .ofList (path.toList.reverse.dropWhile (· = separator)).reverse

/-- Whether a path has a separator at its end, so that it can lead to a directory only. -/
def namesDirectory (path : String) : Bool :=
  path.toList.getLast? = some separator

/-- The parts of a path up to the directory of what it names. -/
def partsOfDirectory (path : String) : List String :=
  (parts (withoutSeparatorsAtEnd path)).dropLast ++ ["."]

/-- Why a text cannot be written to a file, if it cannot. A path with a separator at its end names a
directory, whatever there is. -/
def writeFault? (workdir : Workdir) (path content : String) : Option SystemFault :=
  if namesDirectory path && path.utf8ByteSize ≤ pathLimit then
    match workdir.walk (origin .start path) (partsOfDirectory path) with
    | .ok _ => some .isDirectory
    | .error fault => some fault
  else
    match workdir.resolve path with
    | .error fault => some fault
    | .ok place =>
      match workdir.at? place with
      | some (.file _) => none
      | some (.device device) => device.writeFault? content
      | some .directory => some .isDirectory
      | none => place.creationFault?

/-- Whether there is anything under a path. -/
def exists? (workdir : Workdir) (path : String) : Bool :=
  match workdir.locate path with
  | .ok (some _) => true
  | _ => false

/-- The working directory after a file was written. -/
def write (workdir : Workdir) (path content : String) : Workdir :=
  match workdir.resolve path with
  | .ok place => { workdir with files := (place, content) :: workdir.files }
  | .error _ => workdir

/-! ### Running programs -/

/-- The directory that a path leads to, in which a program can be run. -/
def enter (workdir : Workdir) (path : String) : Except SystemFault Place :=
  match workdir.resolve path with
  | .error fault => .error fault
  | .ok place =>
    match workdir.at? place with
    | some .directory => .ok place
    | some (.file _) | some (.device _) => .error .notDirectory
    | none => .error .noSuchFile

/-- Why a file cannot be run as a program. No file is marked as a program. -/
def runFault (workdir : Workdir) (directory : Place) (path : String) : SystemFault :=
  match workdir.resolveFrom directory path with
  | .error fault => fault
  | .ok place => if (workdir.at? place).isSome then .permissionDenied else .noSuchFile

/-- The path of a program in a directory that is searched. Where no directory is named, or one with
a path that is too long, it is the directory in which the search is made. -/
def programPath (searched program : String) : String :=
  if searched = "" || pathLimit < searched.utf8ByteSize then program
  else searched ++ .singleton separator ++ program

/-- Whether other directories are searched if a program cannot be run in one of them. -/
def passedOver : SystemFault → Bool
  | .noSuchFile | .notDirectory | .permissionDenied => true
  | _ => false

/-- Why a program cannot be run that is looked for in some directories, where the earlier ones gave
a cause. The last cause counts, but a program that may not be run was found. A directory with a path
that is too long does not count as the last one. -/
def searchFault (workdir : Workdir) (directory : Place) (program : String) :
    SystemFault → List String → SystemFault
  | earlier, [] => earlier
  | earlier, searched :: rest =>
    if rest.isEmpty && pathLimit < searched.utf8ByteSize then earlier
    else
      let fault := workdir.runFault directory (programPath searched program)
      if !passedOver fault then fault
      else
        workdir.searchFault directory program
          (if earlier = .permissionDenied then earlier else fault) rest

end Workdir

end BuildPlan
