import BuildPlan.Extension.Registry
import BuildPlan.Extension.Surroundings
import BuildPlan.Store.Path

/-!
# The built-in extensions

Four contexts are always known: `env` for environment variables, `date` for the time of the build,
`user` for the user that runs it, and `git` for the state of the repository. An explicit fallback
stands in for every value that is not known, with one exception: without version control the `git`
context fails whatever the fallback, so that a strict build can tell the mistake in its setup.
-/

set_option autoImplicit false
set_option relaxedAutoImplicit false

namespace BuildPlan.Extension

/-- The context of environment variables. -/
def environmentContext : String := "env"

/-- The context of the time of the build. -/
def dateContext : String := "date"

/-- The context of the user. -/
def userContext : String := "user"

/-- The context of the repository. -/
def repositoryContext : String := "git"

/-- What is missing when version control is not used. -/
def versionControl : String := "version-control"

/-- Environment variables. A variable that is set to the empty text counts as set only if there is
no fallback. -/
def environment (known : Environment) : Extension := fun _ path fallback ↦
  match known path with
  | none => orFallback fallback (.notSet path)
  | some value => .ok (if value = "" then fallback.getD value else value)

/-- The time of the build as a timestamp, as a date, or in seconds since the start of 1970. -/
def date (now : Instant) : Extension := fun _ path fallback ↦
  if path = "time" then .ok now.text
  else if path = "dateOnly" then .ok now.date.text
  else if path = "unix" then .ok (toString now.seconds)
  else orFallback fallback (.unknownPath dateContext path)

/-- The known attributes of a user. -/
def attributes (identity : Identity) : Store :=
  let optional := [("uid", identity.uid), ("gid", identity.gid), ("name", identity.name),
    ("homeDir", identity.homeDirectory)]
  .ofList (("username", .leaf identity.username) ::
    optional.filterMap fun known ↦ known.2.map fun text ↦ (known.1, .leaf text))

/-- The attributes of the user that runs the build. -/
def user (identity : Except CollaboratorError Identity) : Extension := fun _ path fallback ↦
  match identity with
  | .error cause => orFallback fallback (.collaborator cause)
  | .ok identity =>
    match (attributes identity).lookupText path with
    | some text => .ok text
    | none => orFallback fallback (.unknownPath userContext path)

/-- The number of characters of a short commit hash. -/
def shortHashLength : Nat := 7

/-- The first characters of a commit hash. -/
def shortHash (hash : String) : String :=
  .ofList (hash.toList.take shortHashLength)

/-- The name of a branch without slashes, so that it can be a part of a file name. -/
def cleanBranch (branch : String) : String :=
  .ofList (branch.toList.map fun c ↦ if c = '/' then '-' else c)

/-- The fact about a repository that a path names, if it names one. -/
def fact? (repository : Repository) (path : String) : Option (Except CollaboratorError String) :=
  if path = "commit.full" then some repository.commit
  else if path = "commit.short" then some (repository.commit.map shortHash)
  else if path = "branch" ∨ path = "branch.clean" then some (repository.branch.map cleanBranch)
  else if path = "branch.raw" then some repository.branch
  else none

/-- The state of the repository. -/
def revision (repository : Option Repository) : Extension := fun _ path fallback ↦
  match repository with
  | none => .error (.missingCollaborator versionControl)
  | some repository =>
    match fact? repository path with
    | some (.ok text) => .ok text
    | some (.error cause) => orFallback fallback (.collaborator cause)
    | none => orFallback fallback (.unknownPath repositoryContext path)

/-- The built-in extensions over some surroundings. -/
def builtin (surroundings : Surroundings) : Registry :=
  .ofList [(environmentContext, environment surroundings.environment),
    (dateContext, date surroundings.now), (userContext, user surroundings.identity),
    (repositoryContext, revision surroundings.repository)]

/-- The context of build arguments. -/
def argumentContext : String := "arg"

/-- Build arguments. -/
def arguments (values : Dictionary String) : Extension := fun _ path fallback ↦
  match values.get? path with
  | some value => .ok value
  | none => orFallback fallback (.notSet ("build argument " ++ quoted path))

end BuildPlan.Extension
