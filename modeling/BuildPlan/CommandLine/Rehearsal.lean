import BuildPlan.CommandLine.Run
import BuildPlan.Host.Scripted

/-!
# Rehearsals

What a run leaves behind if it takes place on a stage: the file it writes is found in the working
directory afterwards, and what it writes to a standard stream under a path of its own shows there.
-/

set_option autoImplicit false
set_option relaxedAutoImplicit false

namespace BuildPlan.CommandLine

/-- What is seen of a run, and the working directory after it. -/
def Outcome.leave (outcome : Outcome) (workdir : Workdir) : Outcome × Workdir :=
  match outcome.file with
  | none => (outcome, workdir)
  | some (path, content) =>
    match workdir.locate path with
    | .ok (some (.device .output)) =>
      ({ outcome with output := outcome.output ++ content }, workdir)
    | .ok (some (.device .errors)) =>
      ({ outcome with errors := outcome.errors ++ content }, workdir)
    | .ok (some (.device _)) => (outcome, workdir)
    | _ => (outcome, workdir.write path content)

/-- Runs a command line on a stage. -/
def rehearse (stage : Stage) (arguments : List String) : Outcome × Workdir :=
  (run stage.host arguments).leave stage.workdir

end BuildPlan.CommandLine
