/-!
# Failures

Why an answer could not be given, by cause. The wording of each cause is in one function beside its
type, so nothing else depends on the words.
-/

set_option autoImplicit false
set_option relaxedAutoImplicit false

namespace BuildPlan

/-- A text between backquotes. -/
def backquoted (text : String) : String :=
  "`" ++ text ++ "`"

/-- A text between single quotes. -/
def quoted (text : String) : String :=
  "'" ++ text ++ "'"

/-- Why a fact about the surroundings of a build is not known. -/
inductive CollaboratorError where
  /-- The thing asked for does not exist. -/
  | notFound (what : String)
  /-- The question makes no sense. -/
  | invalidInput (what : String)
  /-- A program that was asked gave up. -/
  | commandFailed (command reason : String)
  /-- The operating system refused something. -/
  | system (reason : String)
  deriving DecidableEq

/-- The words for a cause. -/
def CollaboratorError.message : CollaboratorError → String
  | .notFound what => "not found: " ++ what
  | .invalidInput what => "invalid input: " ++ what
  | .commandFailed command reason =>
    "command " ++ backquoted command ++ " failed: " ++ reason
  | .system reason => "IO error: " ++ reason

/-- Why an extension could not resolve a token. -/
inductive ExtensionError where
  /-- The context has no attribute of this name. -/
  | unknownPath (context path : String)
  /-- The thing asked for has no value. -/
  | notSet (name : String)
  /-- Nothing is configured that could answer. -/
  | missingCollaborator (collaborator : String)
  /-- What is configured failed to answer. -/
  | collaborator (cause : CollaboratorError)
  /-- Any other cause, in words. -/
  | failed (reason : String)
  deriving DecidableEq

/-- The words for a cause. -/
def ExtensionError.message : ExtensionError → String
  | .unknownPath context path => "unknown " ++ context ++ " attribute " ++ backquoted path
  | .notSet name => name ++ " is not set"
  | .missingCollaborator what => "no " ++ what ++ " collaborator configured"
  | .collaborator cause => cause.message
  | .failed reason => reason

/-- Why a configuration could not be loaded or used. -/
inductive ConfigError where
  /-- The project file is no well-formed document. -/
  | malformedDocument
  /-- Something that must be given is not. -/
  | missingField (field : String)
  /-- Something that is given cannot be used. -/
  | invalidValue (field reason : String)
  /-- Something is defined twice. -/
  | duplicate (definition : String)
  /-- A token asks for facts that nothing is configured to answer. -/
  | missingCollaborator (token collaborator : String)
  /-- The operating system refused something. -/
  | system (reason : String)
  deriving DecidableEq

/-- The words for a document that cannot be read. -/
def ConfigError.documentMessage : String := "Failed to parse KDL document"

/-- The words for a cause. -/
def ConfigError.message : ConfigError → String
  | .malformedDocument => "KDL parse error: " ++ documentMessage
  | .missingField field => "missing required field: " ++ field
  | .invalidValue field reason => "invalid value for " ++ field ++ ": " ++ reason
  | .duplicate definition => "duplicate definition: " ++ definition
  | .missingCollaborator token what =>
    "token " ++ backquoted token ++ " needs a " ++ what ++
      " collaborator but none is configured"
  | .system reason => "IO error: " ++ reason

end BuildPlan
