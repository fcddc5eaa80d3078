/-!
# Places

Where files and directories are: a place is an origin and the names on the way from it. Most of the
machine is not known, but every machine has a root, some directories near it, and some devices.
-/

set_option autoImplicit false
set_option relaxedAutoImplicit false

namespace BuildPlan

/-- A directory from which others are named. -/
inductive Origin where
  /-- The root of all directories. -/
  | root
  /-- The directory some levels above the working directory, which is itself at level zero. -/
  | above (levels : Nat)
  deriving DecidableEq

/-- A place where a file or a directory may be. -/
structure Place where
  origin : Origin
  /-- The names on the way from the origin. -/
  names : List String
  deriving DecidableEq

/-- A file that holds nothing but does something when it is read or written. -/
inductive Device where
  /-- It is always empty, and forgets what is written. -/
  | null
  /-- It takes nothing. -/
  | full
  /-- The terminal of the run; there is none. -/
  | terminal
  /-- The standard input. -/
  | input
  /-- The standard output. -/
  | output
  /-- The standard error. -/
  | errors
  deriving DecidableEq

namespace Place

/-- The working directory. -/
def start : Place := { origin := .above 0, names := [] }

/-- The root of all directories. -/
def root : Place := { origin := .root, names := [] }

/-- The place of a name in a directory. -/
def child (place : Place) (name : String) : Place :=
  { place with names := place.names ++ [name] }

/-- How many levels a working directory is below the root at most. -/
def maxDepth : Nat := 8

/-- The place one level up. The root is its own parent. -/
def parent (place : Place) : Place :=
  match place.origin, place.names with
  | .root, [] => root
  | .above levels, [] =>
    if levels + 1 < maxDepth then { origin := .above (levels + 1), names := [] } else root
  | origin, names => { origin, names := names.dropLast }

/-- Whether a place is another one or lies on the way to it. -/
def leadsTo (place other : Place) : Bool :=
  place.origin = other.origin && place.names.isPrefixOf other.names

/-- The directories below the root that every machine has. -/
def standardDirectories : List (List String) :=
  [["bin"], ["boot"], ["dev"], ["dev", "fd"], ["dev", "shm"], ["etc"], ["home"], ["lib"],
    ["media"], ["mnt"], ["opt"], ["proc"], ["proc", "self"], ["proc", "self", "fd"], ["root"],
    ["run"], ["sbin"], ["srv"], ["sys"], ["tmp"], ["usr"], ["usr", "bin"], ["usr", "lib"],
    ["usr", "local"], ["usr", "share"], ["var"], ["var", "tmp"]]

/-- Whether there is a directory at a place on every machine. -/
def isStandardDirectory (place : Place) : Bool :=
  place.names.isEmpty || place.origin = .root && standardDirectories.contains place.names

/-- The devices and the places below the root where they are found. -/
def devices : List (List String × Device) :=
  [(["dev", "null"], .null), (["dev", "zero"], .null), (["dev", "full"], .full),
    (["dev", "tty"], .terminal), (["dev", "stdin"], .input), (["dev", "fd", "0"], .input),
    (["proc", "self", "fd", "0"], .input), (["dev", "stdout"], .output),
    (["dev", "fd", "1"], .output), (["proc", "self", "fd", "1"], .output),
    (["dev", "stderr"], .errors), (["dev", "fd", "2"], .errors),
    (["proc", "self", "fd", "2"], .errors)]

/-- The device at a place. -/
def device? (place : Place) : Option Device :=
  if place.origin = .root then devices.lookup place.names else none

end Place

end BuildPlan
