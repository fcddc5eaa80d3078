import BuildPlan.Extension.Surroundings
import BuildPlan.Host.Basic
import BuildPlan.Text.Blank
import BuildPlan.Text.Cut

/-!
# Surveying the host

How the facts about the surroundings of a build are found out on a host. The user comes from the
environment and from the programs `id` and `getent`, the state of the repository from the program
`git`. Where `git` has no answer, or does not tell a branch because a commit is checked out
directly, the variables that build services set are asked.
-/

set_option autoImplicit false
set_option relaxedAutoImplicit false

namespace BuildPlan.Host

/-! ### The user -/

/-- The variables that name the account of the user. -/
def accountVariables : List String := ["USER", "LOGNAME", "USERNAME"]

/-- The variable that names the home directory of the user. -/
def homeVariable : String := "HOME"

/-- The trimmed answer of a program, if it succeeds and says anything. -/
def ask? (host : Host) (program : String) (arguments : List String) : Option String :=
  match host.run none program arguments with
  | .ok result =>
    let answer := Text.trim result.output
    if result.status = 0 ∧ answer ≠ "" then some answer else none
  | .error _ => none

/-- A part of a text between separators, counted from zero. -/
def field? (separator : Char) (index : Nat) (text : String) : Option String :=
  let pieces := Text.pieces separator text.toList
  ((pieces.1 :: pieces.2)[index]?).map .ofList

/-- The field of an account entry that describes the person. -/
def descriptionField : Nat := 4

/-- The name of the person in an account entry: the first part of the description. -/
def personName? (entry : String) : Option String :=
  (((field? ':' descriptionField entry).bind (field? ',' 0)).map Text.trim).filter (· ≠ "")

/-- The user that runs the program. -/
def identity (host : Host) : Except CollaboratorError Identity :=
  match host.firstVariable? accountVariables <|> host.ask? "id" ["-un"] with
  | none => .error (.notFound "current user")
  | some username =>
    .ok {
      username
      uid := host.ask? "id" ["-u"]
      gid := host.ask? "id" ["-g"]
      name := (host.ask? "getent" ["passwd", username]).bind personName?
      homeDirectory := host.firstVariable? [homeVariable] }

/-! ### The repository -/

/-- The variables in which build services tell the commit. -/
def commitVariables : List String :=
  ["BRIX_COMMIT_SHA", "GIT_COMMIT", "GITHUB_SHA", "CI_COMMIT_SHA"]

/-- The variables in which build services tell the branch. -/
def branchVariables : List String :=
  ["BRIX_BRANCH", "GIT_BRANCH", "GITHUB_HEAD_REF", "GITHUB_REF_NAME", "CI_COMMIT_BRANCH"]

/-- What is told as the branch if a commit is checked out directly. -/
def detachedHead : String := "HEAD"

/-- The trimmed answer of `git` in a directory. -/
def askGit (host : Host) (directory : String) (arguments : List String) :
    Except CollaboratorError String :=
  match host.run (some directory) "git" arguments with
  | .error fault => .error (.system fault.message)
  | .ok result =>
    if result.status = 0 then .ok (Text.trim result.output)
    else .error (.commandFailed (" ".intercalate ("git" :: arguments)) (Text.trim result.errors))

/-- An answer that counts only if it tells something; otherwise the first of some variables, or the
failure. -/
def answerOrVariable (host : Host) (names : List String) (what : String)
    (tells : String → Bool) (answer : Except CollaboratorError String) :
    Except CollaboratorError String :=
  let failure := match answer with
    | .ok _ => .notFound what
    | .error cause => cause
  match answer.toOption.filter tells <|> host.firstVariable? names with
  | some text => .ok text
  | none => .error failure

/-- The state of the repository in a directory. -/
def repository (host : Host) (directory : String) : Repository where
  commit := host.answerOrVariable commitVariables "commit hash" (· ≠ "")
    (host.askGit directory ["rev-parse", "HEAD"])
  branch := host.answerOrVariable branchVariables "branch name (detached HEAD)"
    (fun branch ↦ branch ≠ "" && branch ≠ detachedHead)
    (host.askGit directory ["rev-parse", "--abbrev-ref", "HEAD"])

/-- The surroundings of a build on a host, with the repository in a directory if there is one. -/
def surroundings (host : Host) (directory : Option String) : Surroundings where
  environment := host.environment
  now := host.now
  identity := host.identity
  repository := directory.map host.repository

end BuildPlan.Host
