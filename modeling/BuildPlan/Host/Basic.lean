import BuildPlan.Calendar
import BuildPlan.Environment

/-!
# The host of a run

What a run of the program can ask the machine it runs on: environment variables, the time, files,
other programs, and the standard input. A host is a plain value, so a run is a function of it.
-/

set_option autoImplicit false
set_option relaxedAutoImplicit false

namespace BuildPlan

/-- Why the operating system refuses something. -/
inductive SystemFault where
  /-- There is nothing under a name. -/
  | noSuchFile
  /-- A part of a path other than the last one names a file. -/
  | notDirectory
  /-- A file is needed where there is a directory. -/
  | isDirectory
  /-- A path or a name in it is too long. -/
  | nameTooLong
  /-- A file may not be used in this way. -/
  | permissionDenied
  /-- Nothing more can be written. -/
  | noSpace
  /-- There is nothing behind a device. -/
  | noDevice
  /-- Any other cause, in words. -/
  | other (reason : String)
  deriving DecidableEq

/-- The words for a cause. -/
def SystemFault.message : SystemFault → String
  | .noSuchFile => "No such file or directory (os error 2)"
  | .notDirectory => "Not a directory (os error 20)"
  | .isDirectory => "Is a directory (os error 21)"
  | .nameTooLong => "File name too long (os error 36)"
  | .permissionDenied => "Permission denied (os error 13)"
  | .noSpace => "No space left on device (os error 28)"
  | .noDevice => "No such device or address (os error 6)"
  | .other reason => reason

/-- What a program leaves behind. -/
structure ProgramResult where
  /-- The exit status; zero tells success. -/
  status : Nat
  /-- What was written to the standard output. -/
  output : String
  /-- What was written to the standard error. -/
  errors : String
  deriving DecidableEq

/-- What is read under a path. -/
inductive Source where
  /-- A text. -/
  | text (content : String)
  /-- What is left of the standard input. -/
  | input
  deriving DecidableEq

/-- A machine on which the program runs. -/
structure Host where
  /-- The environment variables. -/
  environment : Environment
  /-- The time of the run. -/
  now : Instant
  /-- Whether there is anything under a path. -/
  exists? : String → Bool
  /-- What is read under a path. -/
  source : String → Except SystemFault Source
  /-- Why a text cannot be written to a file, if it cannot. -/
  writeFault? : (path content : String) → Option SystemFault
  /-- The result of a program with arguments, run in a directory or where this program runs. -/
  run : (directory : Option String) → (program : String) → (arguments : List String) →
    Except SystemFault ProgramResult
  /-- What is left of the standard input. -/
  input : String

namespace Host

/-- The host after its standard input was read. -/
def drained (host : Host) : Host :=
  { host with input := "" }

/-- The first of some environment variables that is set and not empty. -/
def firstVariable? (host : Host) (names : List String) : Option String :=
  (names.filterMap host.environment).find? (· ≠ "")

end Host

end BuildPlan
