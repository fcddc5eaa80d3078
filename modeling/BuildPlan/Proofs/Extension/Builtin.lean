import BuildPlan.Extension.Builtin
import BuildPlan.Proofs.Dictionary

/-!
# Fallbacks and missing collaborators of extensions

An extension settles a path if a fallback stands in for its failures under that path and for nothing
else (`Extension.Settles`). The build arguments settle every path, and so do the built-in
extensions with two exceptions: a variable that is set to the empty text, and the repository where
version control is not used (`Extension.settles_of_get?_builtin`). Only that last one misses a
collaborator (`Extension.misses_builtin_iff`).
-/

set_option autoImplicit false
set_option relaxedAutoImplicit false

namespace BuildPlan.Extension

/-- The text that an answer comes to with a fallback. -/
def settled (fallback : String) : Except ExtensionError String → String
  | .ok text => text
  | .error _ => fallback

/-- A fallback stands in for the failures of an extension under a path, and for nothing else. -/
def Settles (extension : Extension) (path : String) : Prop :=
  ∀ raw raw' fallback,
    extension raw path (some fallback) = .ok (settled fallback (extension raw' path none))

/-- An extension fails for a token since nothing is configured that could answer. -/
def Misses (extension : Extension) (raw path : String) (fallback : Option String) : Prop :=
  ∃ what, extension raw path fallback = .error (.missingCollaborator what)

theorem orFallback_eq_error {fallback : Option String} {error found : ExtensionError}
    (h : orFallback fallback error = .error found) : error = found := by
  cases fallback with
  | none => exact Except.error.inj h
  | some text => cases h

/-! ### Build arguments -/

theorem settles_arguments (values : Dictionary String) (path : String) :
    (arguments values).Settles path := by
  intro raw raw' fallback
  unfold arguments
  cases values.get? path <;> rfl

theorem not_misses_arguments (values : Dictionary String) (raw path : String)
    (fallback : Option String) : ¬ (arguments values).Misses raw path fallback := by
  rintro ⟨what, h⟩
  unfold arguments at h
  split at h
  · cases h
  · cases orFallback_eq_error h

/-! ### Variables -/

/-- Every variable is settled but one that is set to the empty text. -/
theorem settles_environment {known : Environment} {path : String} (h : known path ≠ some "") :
    (environment known).Settles path := by
  intro raw raw' fallback
  unfold environment
  cases hknown : known path with
  | none => rfl
  | some value =>
    have hvalue : value ≠ "" := fun hempty ↦ h (hknown.trans (congrArg some hempty))
    simp only [if_neg hvalue, settled]

/-- A variable that is set to the empty text gives way to a fallback, and is the empty text
without. -/
theorem environment_of_empty {known : Environment} {path : String} (h : known path = some "")
    (raw : String) (fallback : Option String) :
    environment known raw path fallback = .ok (fallback.getD "") := by
  unfold environment
  rw [h]
  exact congrArg _ (if_pos rfl)

theorem not_misses_environment (known : Environment) (raw path : String)
    (fallback : Option String) : ¬ (environment known).Misses raw path fallback := by
  rintro ⟨what, h⟩
  unfold environment at h
  split at h
  · cases orFallback_eq_error h
  · cases h

/-! ### Time -/

theorem settles_date (now : Instant) (path : String) : (date now).Settles path := by
  intro raw raw' fallback
  unfold date
  split_ifs <;> rfl

theorem not_misses_date (now : Instant) (raw path : String) (fallback : Option String) :
    ¬ (date now).Misses raw path fallback := by
  rintro ⟨what, h⟩
  unfold date at h
  split_ifs at h
  cases orFallback_eq_error h

/-! ### Users -/

theorem settles_user (identity : Except CollaboratorError Identity) (path : String) :
    (user identity).Settles path := by
  intro raw raw' fallback
  unfold user
  cases identity with
  | error cause => rfl
  | ok identity =>
    dsimp only
    cases (attributes identity).lookupText path <;> rfl

theorem not_misses_user (identity : Except CollaboratorError Identity) (raw path : String)
    (fallback : Option String) : ¬ (user identity).Misses raw path fallback := by
  rintro ⟨what, h⟩
  unfold user at h
  split at h
  · cases orFallback_eq_error h
  · split at h
    · cases h
    · cases orFallback_eq_error h

/-! ### Repositories -/

theorem settles_revision (repository : Repository) (path : String) :
    (revision (some repository)).Settles path := by
  intro raw raw' fallback
  unfold revision
  dsimp only
  cases fact? repository path with
  | none => rfl
  | some fact => cases fact <;> rfl

theorem misses_revision_iff {repository : Option Repository} {raw path : String}
    {fallback : Option String} :
    (revision repository).Misses raw path fallback ↔ repository = none := by
  constructor
  · rintro ⟨what, h⟩
    unfold revision at h
    split at h
    · rfl
    · split at h
      · cases h
      · cases orFallback_eq_error h
      · cases orFallback_eq_error h
  · rintro rfl
    exact ⟨versionControl, rfl⟩

/-! ### The built-in registry -/

/-- The built-in extension of each context. -/
theorem get?_builtin (surroundings : Surroundings) (context : String) :
    (builtin surroundings).get? context =
      if context = repositoryContext then some (revision surroundings.repository)
      else if context = userContext then some (user surroundings.identity)
      else if context = dateContext then some (date surroundings.now)
      else if context = environmentContext then some (environment surroundings.environment)
      else none := by
  simp only [builtin, Dictionary.ofList, List.foldl_cons, List.foldl_nil, Dictionary.get?_insert]
  rfl

variable {surroundings : Surroundings} {context : String} {extension : Extension}

/-- A built-in extension settles a path unless it is the repository where version control is not
used, or the path is a variable that is set to the empty text. -/
theorem settles_of_get?_builtin (h : (builtin surroundings).get? context = some extension)
    {path : String} (hrepository : context = repositoryContext → surroundings.repository ≠ none)
    (hvariable : context = environmentContext → surroundings.environment path ≠ some "") :
    extension.Settles path := by
  rw [get?_builtin] at h
  split_ifs at h with hgit huser hdate henv
  · obtain rfl := Option.some.inj h
    obtain ⟨repository, hsome⟩ := Option.ne_none_iff_exists'.1 (hrepository hgit)
    rw [hsome]
    exact settles_revision repository path
  · obtain rfl := Option.some.inj h
    exact settles_user _ path
  · obtain rfl := Option.some.inj h
    exact settles_date _ path
  · obtain rfl := Option.some.inj h
    exact settles_environment (hvariable henv)

/-- Of the built-in extensions only the repository misses a collaborator, and only where version
control is not used. -/
theorem misses_builtin_iff (h : (builtin surroundings).get? context = some extension)
    {raw path : String} {fallback : Option String} :
    extension.Misses raw path fallback ↔
      context = repositoryContext ∧ surroundings.repository = none := by
  rw [get?_builtin] at h
  split_ifs at h with hgit huser hdate henv
  · obtain rfl := Option.some.inj h
    rw [misses_revision_iff, and_iff_right hgit]
  · obtain rfl := Option.some.inj h
    exact iff_of_false (not_misses_user _ _ _ _) fun hmisses ↦ hgit hmisses.1
  · obtain rfl := Option.some.inj h
    exact iff_of_false (not_misses_date _ _ _ _) fun hmisses ↦ hgit hmisses.1
  · obtain rfl := Option.some.inj h
    exact iff_of_false (not_misses_environment _ _ _ _) fun hmisses ↦ hgit hmisses.1

end BuildPlan.Extension
