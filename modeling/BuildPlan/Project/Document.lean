import BuildPlan.Kdl.Reader
import BuildPlan.Project.Basic

/-!
# Project files

The text of a project file is a document whose nodes declare the project.
-/

set_option autoImplicit false
set_option relaxedAutoImplicit false

namespace BuildPlan.Project

/-- The project that the text of a project file declares. -/
def ofText (text : String) : Except ConfigError Project :=
  match Kdl.Node.listOfText? text with
  | some nodes => ofNodes nodes
  | none => .error .malformedDocument

end BuildPlan.Project
