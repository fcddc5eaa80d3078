import BuildPlan.Calendar
import BuildPlan.Environment
import BuildPlan.Error

/-!
# The surroundings of a build

What a build can know of the world it runs in: the environment variables, the time, the user, and
the state of the repository. Each is a plain value; how it was found out does not matter here.
-/

set_option autoImplicit false
set_option relaxedAutoImplicit false

namespace BuildPlan

/-- The attributes of a user. Only the name of the account is always known. -/
structure Identity where
  username : String
  uid : Option String
  gid : Option String
  /-- The name of the person. -/
  name : Option String
  homeDirectory : Option String
  deriving DecidableEq

/-- The state of a repository: each fact, or why it is not known. -/
structure Repository where
  /-- The full hash of the commit that is checked out. -/
  commit : Except CollaboratorError String
  /-- The name of the branch that is checked out. -/
  branch : Except CollaboratorError String

/-- What a build knows of the world it runs in. -/
structure Surroundings where
  /-- The environment variables. -/
  environment : Environment
  /-- The time of the build. -/
  now : Instant
  /-- The user that runs the build. -/
  identity : Except CollaboratorError Identity
  /-- The repository, if version control is used at all. -/
  repository : Option Repository

namespace Repository

/-- A fact that is not known if it is empty. -/
def known (what fact : String) : Except CollaboratorError String :=
  if fact = "" then .error (.notFound what) else .ok fact

/-- A repository of which both facts are given. -/
def fixed (commit branch : String) : Repository where
  commit := known "commit hash" commit
  branch := known "branch name" branch

end Repository

end BuildPlan
