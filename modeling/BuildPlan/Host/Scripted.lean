import BuildPlan.Host.Workdir

/-!
# Scripted programs

Programs whose results are fixed beforehand, for each list of arguments. Any other arguments make
them fail without a word. The programs are in a directory of their own. Where programs are looked
for in other directories, only files are found there, none of which is a program.
-/

set_option autoImplicit false
set_option relaxedAutoImplicit false

namespace BuildPlan

/-- The results of a program by its arguments. -/
abbrev Script := List (List String × ProgramResult)

/-- How many exit statuses there are. -/
def statusCount : Nat := 256

/-- The status that the system keeps of the number that a program exits with. -/
def statusOf (code : Int) : Nat := (code % statusCount).toNat

/-- The status of a program that does not know its arguments. -/
def unknownStatus : Nat := 127

/-- The result of a scripted program. -/
def Script.run (script : Script) (arguments : List String) : ProgramResult :=
  (script.lookup arguments).getD { status := unknownStatus, output := "", errors := "" }

/-- A working directory with what else a run can see. -/
structure Stage where
  workdir : Workdir
  /-- The scripted programs by their names. -/
  programs : Dictionary Script
  /-- The directories in which programs are looked for, if that is not the one of the scripts. -/
  searched : Option (List String)
  environment : Environment
  now : Instant
  /-- The standard input. -/
  input : String

namespace Stage

/-- The character between the directories in which programs are looked for. -/
def searchSeparator : Char := ':'

/-- The directories of a search path. -/
def searchedOf (path : String) : List String :=
  let pieces := Text.pieces searchSeparator path.toList
  (pieces.1 :: pieces.2).map .ofList

/-- Whether a text can be given to a program: the zero character ends every argument. -/
def isArgument (text : String) : Bool :=
  !text.toList.contains '\x00'

/-- The result of a program that is run in a directory. -/
def runIn (stage : Stage) (directory : Place) (program : String) (arguments : List String) :
    Except SystemFault ProgramResult :=
  if !arguments.all isArgument then .error (.other "nul byte found in provided data")
  else
    match stage.searched, stage.programs.get? program with
    | none, some script => .ok (script.run arguments)
    | none, none => .error .noSuchFile
    | some searched, _ =>
      .error (stage.workdir.searchFault directory program .noSuchFile searched)

/-- The host that a run on a stage sees. -/
def host (stage : Stage) : Host where
  environment := stage.environment
  now := stage.now
  exists? := stage.workdir.exists?
  source := stage.workdir.source
  writeFault? := stage.workdir.writeFault?
  run := fun directory program arguments ↦
    match directory with
    | none => stage.runIn .start program arguments
    | some path =>
      match stage.workdir.enter path with
      | .error fault => .error fault
      | .ok place => stage.runIn place program arguments
  input := stage.input

end Stage

end BuildPlan
