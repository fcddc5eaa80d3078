import BuildPlan.CommandLine.Run
import BuildPlan.Proofs.Project.Warnings
import BuildPlan.Proofs.Resolver.Fallback

/-!
# Checking a project and planning it

A project is approved if every gate has an answer (`Project.exists_validate_iff`), and planned if
moreover no token of a step that runs stops the rendering (`Project.exists_plan_iff`,
`Step.broken_iff`). In a session only tokens of the repository can do that, in a strict build that
does not use version control (`CommandLine.halts_iff_of_start`).

So a plan is made only of what is approved, and `CommandLine.validation_agrees_iff` says which
projects are approved without having a plan (`Session.Overlooks`).
-/

set_option autoImplicit false
set_option relaxedAutoImplicit false

namespace BuildPlan

namespace Resolver

variable {resolver : Resolver}

/-- A token lacks a collaborator if its context has an extension that does. -/
theorem exists_resolve_eq_missing_iff {token : Token} :
    (∃ what, resolver.resolve token = .failed (.missingCollaborator what)) ↔
      ∃ context extension, token.context = some context ∧
        resolver.extension? context = some extension ∧
          extension.Misses token.raw token.path token.fallback := by
  constructor
  · rintro ⟨what, hwhat⟩
    cases hcontext : token.context with
    | none =>
      rw [resolve, hcontext] at hwhat
      dsimp only at hwhat
      cases hlookup : resolver.store.lookupText token.path <;> rw [hlookup] at hwhat <;> cases hwhat
    | some context =>
      cases hextension : resolver.extension? context with
      | none =>
        rw [resolve_of_store hcontext hextension] at hwhat
        cases hlookup : lookupToken resolver.store context token <;> rw [hlookup] at hwhat
        · cases hfallback : token.fallback <;> rw [hfallback] at hwhat <;> cases hwhat
        · cases hwhat
      | some extension =>
        rw [resolve_of_extension hcontext hextension] at hwhat
        refine ⟨context, extension, rfl, hextension, what, ?_⟩
        cases hanswer : extension token.raw token.path token.fallback with
        | ok text =>
          rw [hanswer] at hwhat
          cases hwhat
        | error error =>
          rw [hanswer] at hwhat
          exact congrArg _ (Resolution.failed.inj hwhat)
  · rintro ⟨context, extension, hcontext, hextension, what, hwhat⟩
    refine ⟨what, ?_⟩
    rw [resolve_of_extension hcontext hextension, hwhat]
    rfl

end Resolver

namespace CommandLine

/-! ### Sessions -/

variable {options : Options} {host rest : Host} {session : Session}

/-- A resolver over some values is the resolver of the session that is opened with it. -/
theorem make_of_open {project : Project} {settings : Settings} {store : Store}
    {registered : Registry} {failure : ConfigError → Failure}
    (h : StateT.run (do
      match Resolver.make settings store registered
        ((← get).surroundings options.repository) with
      | .error error => throw (failure error)
      | .ok resolver => return { project, resolver } : Attempt Session) host =
        .ok (session, rest)) :
    Resolver.make settings store registered (host.surroundings options.repository) =
      .ok session.resolver := by
  rw [StateT.run_bind] at h
  obtain ⟨_, hget, hopen⟩ := Except.bind_eq_ok_iff.1 h
  obtain rfl := Except.ok.inj hget
  dsimp only at hopen
  cases hmake : Resolver.make settings store registered (host.surroundings options.repository) with
  | error error =>
    rw [hmake] at hopen
    cases hopen
  | ok resolver =>
    rw [hmake] at hopen
    obtain ⟨rfl, -⟩ := Prod.mk.inj (Except.ok.inj hopen)
    rfl

/-- What the resolver of a session is made of, apart from its settings and values. -/
theorem make_of_start (h : (Session.start options).run host = .ok (session, rest)) :
    ∃ settings store after, Resolver.make settings store
      (.ofList [(Extension.argumentContext, Extension.arguments (.ofList options.arguments))])
      (Host.surroundings after options.repository) = .ok session.resolver := by
  unfold Session.start at h
  rw [StateT.run_bind] at h
  obtain ⟨⟨project, afterProject⟩, -, hlayered⟩ := Except.bind_eq_ok_iff.1 h
  cases hvalues : options.values with
  | none =>
    simp only [hvalues] at hlayered
    exact ⟨_, _, _, make_of_open hlayered⟩
  | some path =>
    simp only [hvalues, StateT.run_bind] at hlayered
    obtain ⟨⟨layered, afterValues⟩, -, hopen⟩ := Except.bind_eq_ok_iff.1 hlayered
    exact ⟨_, _, _, make_of_open hopen⟩

/-- A session is opened over a project that can be loaded, if no file with values is given. -/
theorem start_of_make {project : Project} {resolver : Resolver}
    (hproject : (Session.openProject options.config).run host = .ok (project, rest))
    (hvalues : options.values = none)
    (hmake : Resolver.make
      { project.settings with strict := project.settings.strict || options.strict }
      (Session.layerAssignments project.values options.assignments)
      (.ofList [(Extension.argumentContext, Extension.arguments (.ofList options.arguments))])
      (rest.surroundings options.repository) = .ok resolver) :
    (Session.start options).run host = .ok ({ project, resolver }, rest) := by
  unfold Session.start
  rw [StateT.run_bind, Except.bind_eq_ok_iff]
  refine ⟨(project, rest), hproject, ?_⟩
  simp only [hvalues, pure_bind]
  rw [StateT.run_bind, Except.bind_eq_ok_iff]
  refine ⟨(rest, rest), rfl, ?_⟩
  dsimp only
  rw [hmake]
  rfl

/-- In a session a token stops the rendering if it is one of the repository, in a strict build that
does not use version control. -/
theorem halts_iff_of_start (h : (Session.start options).run host = .ok (session, rest))
    {token : Token} : session.resolver.Halts token ↔ session.resolver.strict = true ∧
      options.repository = none ∧ token.context = some Extension.repositoryContext := by
  obtain ⟨settings, store, after, hmake⟩ := make_of_start h
  obtain ⟨-, hregistered, hbuiltin, -⟩ := Resolver.parts_of_make hmake
  have hget (context : String) : session.resolver.registered.get? context =
      if context = Extension.argumentContext then
        some (Extension.arguments (.ofList options.arguments)) else none := by
    rw [hregistered]
    exact Dictionary.get?_insert .empty _ context _
  unfold Resolver.Halts
  rw [Resolver.exists_resolve_eq_missing_iff]
  refine and_congr_right fun _ ↦ ?_
  constructor
  · rintro ⟨context, extension, hcontext, hextension, hmisses⟩
    -- Build arguments are the only registered extension of a session.
    by_cases hargument : context = Extension.argumentContext
    · have harguments := Resolver.extension?_of_registered ((hget context).trans (if_pos hargument))
      obtain rfl := Option.some.inj (harguments.symm.trans hextension)
      exact absurd hmisses (Extension.not_misses_arguments _ _ _ _)
    · rw [Resolver.extension?_of_not_registered ((hget context).trans (if_neg hargument)),
        hbuiltin] at hextension
      obtain ⟨rfl, hrepository⟩ := (Extension.misses_builtin_iff hextension).1 hmisses
      exact ⟨Option.map_eq_none_iff.1 hrepository, hcontext⟩
  · rintro ⟨hrepository, hcontext⟩
    have hnone : session.resolver.registered.get? Extension.repositoryContext = none := by
      rw [hget, if_neg (by decide)]
    have hextension := Resolver.extension?_of_not_registered hnone
    rw [hbuiltin, Extension.get?_builtin, if_pos rfl] at hextension
    refine ⟨_, _, hcontext, hextension, Extension.misses_revision_iff.2 ?_⟩
    exact Option.map_eq_none_iff.2 hrepository

/-- A command runs in its session, on what opening the session left of the host. -/
theorem run_of_start (h : (Session.start options).run host = .ok (session, rest))
    (command : Command) :
    Invocation.run host { options, command } = .ofAttempt rest (command.run session) := by
  have hbind : (do command.run (← Session.start options) : Attempt Outcome) host =
      command.run session rest := by
    change (Session.start options).run host >>= _ = _
    rw [h]
    rfl
  unfold Invocation.run Outcome.ofAttempt StateT.run'
  dsimp only
  rw [hbind]

/-! ### Checking and planning -/

/-- A run approves of a project: it succeeds, and says so in its last line. -/
def Outcome.Approves (outcome : Outcome) : Prop :=
  outcome.status = success ∧
    ∃ warnings, outcome.output = linesText (warnings ++ ["Configuration is valid"])

/-- The check approves of a project if there are warnings about it at all, be it none. -/
theorem approves_iff_of_start (h : (Session.start options).run host = .ok (session, rest)) :
    (Invocation.run host { options, command := .validate }).Approves ↔
      ∃ warnings, session.project.validate session.resolver = .ok warnings := by
  rw [run_of_start h]
  unfold Command.run Command.runValidate
  cases session.project.validate session.resolver with
  | error error =>
    refine iff_of_false (fun happroves ↦ ?_) nofun
    exact absurd happroves.1 Nat.one_ne_zero
  | ok warnings => exact iff_of_true ⟨rfl, warnings.map _, rfl⟩ ⟨warnings, rfl⟩

/-- A plan is shown if there is one. -/
theorem plan_succeeds_iff_of_start (h : (Session.start options).run host = .ok (session, rest))
    (format : OutputFormat) :
    (Invocation.run host { options, command := .plan format }).status = Outcome.success ↔
      ∃ planned, session.project.plan session.resolver = .ok planned := by
  rw [run_of_start h]
  unfold Command.run Command.runPlan
  cases session.project.plan session.resolver with
  | error error => exact iff_of_false Nat.one_ne_zero nofun
  | ok planned => cases format <;> exact iff_of_true rfl ⟨planned, rfl⟩

/-- Only the planning of a project fails: every gate has an answer, but a step that runs asks for
the repository, in a strict build that does not use version control. -/
structure Session.Overlooks (options : Options) (session : Session) : Prop where
  /-- The build is strict. -/
  strict : session.resolver.strict = true
  /-- Version control is not used. -/
  repository : options.repository = none
  /-- Every gate has an answer. -/
  answered : ∀ step ∈ session.project.steps, ∃ answer, step.GateIs session.resolver answer
  /-- A text of a step that runs has a token of the repository. -/
  asks : ∃ step ∈ session.project.steps, step.GateIs session.resolver true ∧
    ∃ template ∈ step.templates, ∃ token ∈ session.resolver.tokens template,
      token.context = some Extension.repositoryContext

/-- When checking a project and planning it agree. The check approves of a project if every gate has
an answer, so it approves of every project with a plan, and the command that shows the plan succeeds
if there is one. The two agree on a project unless a strict build does not use version control,
every gate has an answer, and a step that runs asks for the repository. -/
theorem validation_agrees_iff (hstart : (Session.start options).run host = .ok (session, rest)) :
    ((Invocation.run host { options, command := .validate }).Approves ↔
      ∀ step ∈ session.project.steps, ∃ answer, step.GateIs session.resolver answer) ∧
    ((∃ planned, session.project.plan session.resolver = .ok planned) →
      (Invocation.run host { options, command := .validate }).Approves) ∧
    (∀ format, (Invocation.run host { options, command := .plan format }).status =
      Outcome.success ↔ ∃ planned, session.project.plan session.resolver = .ok planned) ∧
    (((Invocation.run host { options, command := .validate }).Approves ↔
      ∃ planned, session.project.plan session.resolver = .ok planned) ↔
        ¬ session.Overlooks options) := by
  have happroves := (approves_iff_of_start hstart).trans Project.exists_validate_iff
  have hplans : (∃ planned, session.project.plan session.resolver = .ok planned) →
      ∀ step ∈ session.project.steps, ∃ answer, step.GateIs session.resolver answer := by
    intro hplanned step hstep
    by_contra hnone
    exact Project.exists_plan_iff.1 hplanned step hstep (Step.broken_iff.2 (.inl hnone))
  refine ⟨happroves, fun hplanned ↦ happroves.2 (hplans hplanned),
    plan_succeeds_iff_of_start hstart, ?_⟩
  -- What is left of the comparison are the steps whose gates have answers.
  rw [happroves]
  constructor
  · rintro hagree ⟨hstrict, hrepository, hanswered, step, hstep, hruns, template, htemplate, token,
      htoken, hcontext⟩
    have hhalts := (halts_iff_of_start hstart).2 ⟨hstrict, hrepository, hcontext⟩
    exact Project.exists_plan_iff.1 (hagree.1 hanswered) step hstep
      (Step.broken_iff.2 (.inr ⟨hruns, template, htemplate, token, htoken, hhalts⟩))
  · intro hnoticed
    refine ⟨fun hanswered ↦ Project.exists_plan_iff.2 fun step hstep hbroken ↦ ?_, hplans⟩
    rcases Step.broken_iff.1 hbroken with
      hnone | ⟨hruns, template, htemplate, token, htoken, hhalts⟩
    · exact hnone (hanswered step hstep)
    · obtain ⟨hstrict, hrepository, hcontext⟩ := (halts_iff_of_start hstart).1 hhalts
      exact hnoticed ⟨hstrict, hrepository, hanswered, step, hstep, hruns, template, htemplate,
        token, htoken, hcontext⟩

/-! ### A strict build without version control -/

/-- A host with a project file and nothing else. -/
def projectHost (text : String) : Host where
  environment := fun _ ↦ none
  now := { seconds := 0, leap := false }
  exists? := (· = Session.defaultConfig)
  source := fun path ↦
    if path = Session.defaultConfig then .ok (.text text) else .error .noSuchFile
  writeFault? := fun _ _ ↦ some .permissionDenied
  run := fun _ _ _ ↦ .error .noSuchFile
  input := ""

/-- The options of a strict build that does not use version control. -/
def strictOptions : Options where
  config := none
  values := none
  strict := true
  repository := none
  arguments := []
  assignments := []

/-- The session of such a build over a project with the usual markers. -/
def strictSession (host : Host) (project : Project) : Session where
  project
  resolver :=
    { store := project.values
      registered := .ofList [(Extension.argumentContext, Extension.arguments .empty)]
      builtin := Extension.builtin (host.surroundings none)
      strict := true
      markers := .default }

theorem openProject_projectHost {text : String} {project : Project}
    (h : Project.ofText text = .ok project) :
    (Session.openProject none).run (projectHost text) = .ok (project, projectHost text) := by
  have hload : (Session.openProject none).run (projectHost text) =
      pure (project, projectHost text) := by
    simp [Session.openProject, Session.loadProject, Attempt.readFile, projectHost, h]
  exact hload

theorem start_projectHost {text : String} {project : Project}
    (h : Project.ofText text = .ok project) (hsettings : project.settings = .default) :
    (Session.start strictOptions).run (projectHost text) =
      .ok (strictSession (projectHost text) project, projectHost text) := by
  refine start_of_make (openProject_projectHost h) rfl ?_
  rw [hsettings]
  rfl

/-- A project file with a step that asks for the branch and has other properties too. -/
def askingText (properties : String) : String :=
  "step \"a\" " ++ properties ++ " \x7b run \"$\x7bgit:branch\x7d\" \x7d"

/-- A project with a step that asks for the branch and may have a gate. -/
def askingProject (gate : Option String) : Project :=
  { Project.empty with
    steps := [{ name := "a", gate, commands := ["$\x7bgit:branch\x7d"], environment := .empty }] }

/-- The check and the plan agree on a project whose only step asks for the branch and does not
run. -/
theorem skipped_step_agrees :
    (Session.start strictOptions).run (projectHost (askingText "when=\"'x' == 'y'\"")) =
      .ok (strictSession (projectHost (askingText "when=\"'x' == 'y'\""))
        (askingProject (some "'x' == 'y'")), projectHost (askingText "when=\"'x' == 'y'\"")) ∧
    (Invocation.run (projectHost (askingText "when=\"'x' == 'y'\""))
      { options := strictOptions, command := .validate }).Approves := by
  have htext : Project.ofText (askingText "when=\"'x' == 'y'\"") =
      .ok (askingProject (some "'x' == 'y'")) := by decide +kernel
  have hstart := start_projectHost htext rfl
  have hskipped : (strictSession (projectHost (askingText "when=\"'x' == 'y'\""))
      (askingProject (some "'x' == 'y'"))).resolver.evaluateGate "'x' == 'y'" = .ok false := by
    decide +kernel
  refine ⟨hstart, (validation_agrees_iff hstart).1.2 fun step hstep ↦ ?_⟩
  obtain rfl := List.mem_singleton.1 hstep
  exact ⟨false, .inr ⟨_, rfl, hskipped⟩⟩

/-- The check approves of a project whose only step asks for the branch and runs, but the project
has no plan. -/
theorem approved_without_plan :
    (Session.start strictOptions).run (projectHost (askingText "")) =
      .ok (strictSession (projectHost (askingText "")) (askingProject none),
        projectHost (askingText "")) ∧
    (Invocation.run (projectHost (askingText ""))
      { options := strictOptions, command := .validate }).Approves ∧
    (askingProject none).plan
        (strictSession (projectHost (askingText "")) (askingProject none)).resolver =
      .error (.render "a" (.missingCollaborator "$\x7bgit:branch\x7d" "version-control")) := by
  have htext : Project.ofText (askingText "") = .ok (askingProject none) := by decide +kernel
  have hstart := start_projectHost htext rfl
  refine ⟨hstart, (approves_iff_of_start hstart).2 (Project.exists_validate_iff.2 ?_), ?_⟩
  · intro step hstep
    obtain rfl := List.mem_singleton.1 hstep
    exact ⟨true, .inl ⟨rfl, rfl⟩⟩
  · decide +kernel

end CommandLine

end BuildPlan
