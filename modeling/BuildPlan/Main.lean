import BuildPlan.CommandLine.Run

/-!
# The program

The outer layer: it gathers what a run may read, lets `CommandLine.run` answer, and carries the
answer out. Everything that is decided is decided there.

The machine is seen through files alone. The environment and the time come from the `/proc` file
system, and no other program is run, so the user and the state of the repository are taken from
environment variables.
-/

set_option autoImplicit false
set_option relaxedAutoImplicit false

namespace BuildPlan.CommandLine

/-! ### What the system tells -/

/-- The environment of a block where each entry ends with a zero character. -/
def environmentOfBlock (block : String) : Environment :=
  let pieces := Text.pieces '\x00' block.toList
  .ofBlock ((pieces.1 :: pieces.2).map .ofList)

/-- The words of a text. -/
def wordsOf (text : String) : List String :=
  let pieces := Text.pieces ' ' (text.toList.map fun c ↦ if c = '\n' then ' ' else c)
  ((pieces.1 :: pieces.2).map String.ofList).filter (· ≠ "")

/-- The number after a word. -/
def numberAfter (word : String) : List String → Nat
  | first :: second :: rest =>
    if first = word then second.toNat?.getD 0 else numberAfter word (second :: rest)
  | _ => 0

/-- The time from when the system was started and for how long it has been up, in seconds. -/
def instantOf (statistics uptime : String) : Instant :=
  let whole := ((Text.cutAt? '.' uptime.toList).map fun cut ↦ String.ofList cut.1).getD "0"
  { seconds := numberAfter "btime" (wordsOf statistics) + whole.toNat?.getD 0, leap := false }

/-- The number by which the system tells that a directory stands where a file is needed. -/
def directoryCode : UInt32 := 21

/-- Why a file could not be used. A call that opens a file tells numbers below zero. -/
def faultOf : IO.Error → SystemFault
  | .noFileOrDirectory _ _ _ => .noSuchFile
  | .inappropriateType _ code _ =>
    if code = directoryCode ∨ code = -directoryCode then .isDirectory else .notDirectory
  | .invalidArgument _ _ _ => .nameTooLong
  | error => .other (toString error)

/-! ### Reading and writing -/

/-- The text of a file, or why it cannot be read. -/
def readText (path : String) : IO (Except SystemFault String) := do
  try return .ok (← IO.FS.readFile path)
  catch error => return .error (faultOf error)

/-- The text of a file, empty if it cannot be read. -/
def readTextOrEmpty (path : String) : IO String := do
  return (← readText path).toOption.getD ""

/-- The path under which the system shows the standard input. -/
def inputPath : String := "/dev/stdin"

/-- What is read under a path. The standard input is not read yet. -/
def readSource (path : String) : IO (Except SystemFault Source) := do
  if path = inputPath then return .ok .input else return (← readText path).map .text

/-- Whether a run reads the standard input, given what it reads under paths. -/
def needsInput (invocation : Invocation)
    (files : List (String × Except SystemFault Source)) : Bool :=
  invocation.readsInput || files.any fun file ↦ file.1 = inputPath

/-- The host that a run sees: the files are read beforehand. -/
def hostOf (environment : Environment) (now : Instant)
    (files : List (String × Except SystemFault Source)) (input : String) : Host :=
  let source (path : String) := (files.lookup path).getD (.error .noSuchFile)
  { environment
    now
    input
    exists? := fun path ↦
      match source path with
      | .error .noSuchFile => false
      | _ => true
    source
    writeFault? := fun _ _ ↦ none
    run := fun _ _ _ ↦ .error .noSuchFile }

/-- Gathers what a command line may read. -/
def gatherHost (environment : Environment) (arguments : List String) : IO Host := do
  let now := instantOf (← readTextOrEmpty "/proc/stat") (← readTextOrEmpty "/proc/uptime")
  match Invocation.read environment arguments with
  | .error _ => return hostOf environment now [] ""
  | .ok invocation =>
    let files ← invocation.filesToRead.mapM fun path ↦ do return (path, ← readSource path)
    let input ← if needsInput invocation files then (← IO.getStdin).readToEnd else pure ""
    return hostOf environment now files input

/-- Writes the file of an outcome; if that fails, so does the run. -/
def writeFileOf (outcome : Outcome) : IO Outcome := do
  match outcome.file with
  | none => return outcome
  | some (path, content) =>
    try
      IO.FS.writeFile path content
      return outcome
    catch error => return .failWriting path (faultOf error)

/-- Answers a command line and carries the answer out, giving the exit status. -/
def serve (arguments : List String) : IO UInt32 := do
  let environment := environmentOfBlock (← readTextOrEmpty "/proc/self/environ")
  let host ← gatherHost environment arguments
  let outcome ← writeFileOf (run host arguments)
  IO.print outcome.output
  IO.eprint outcome.errors
  return outcome.status.toUInt32

end BuildPlan.CommandLine

/-- The program. -/
def main (arguments : List String) : IO UInt32 :=
  BuildPlan.CommandLine.serve arguments
