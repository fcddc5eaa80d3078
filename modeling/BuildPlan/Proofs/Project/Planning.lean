import Mathlib.Data.List.Perm.Basic
import BuildPlan.Project.Plan
import BuildPlan.Proofs.Dictionary
import BuildPlan.Proofs.Outcome
import BuildPlan.Proofs.Resolver.Rendering

/-!
# What planning gives

A step is broken if its gate has no answer, or if it runs and one of its texts cannot be rendered
(`Step.Broken`). A step that is not broken is planned in exactly one way (`Step.PlannedAs`), and the
planning of a broken step fails for its gate, else for its first command that cannot be rendered,
else for one of its environment variables (`Step.Fails`).

The environment variables of a step have no order of their own, so planning is also looked at with
any order for each step (`Arranged`). One step is handled first (`Arranged.plannedAs_of_plan`,
`Arranged.fails_of_plan`, `Arranged.plan_sameButVariable`), then a list of steps
(`Arranged.mapM_plan_sameButVariable`). The main result `Project.plan_exact` says what the plan of a
project is, and that the orders matter in nothing but the variable that a failure is about.
-/

set_option autoImplicit false
set_option relaxedAutoImplicit false

namespace BuildPlan

namespace Step

variable (resolver : Resolver) (step : Step)

/-! ### Broken steps -/

/-- The gate of a step has an answer; a step without a gate runs. -/
def GateIs (answer : Bool) : Prop :=
  step.gate = none ∧ answer = true ∨
    ∃ gate, step.gate = some gate ∧ resolver.evaluateGate gate = .ok answer

/-- The gate of a step has no answer. -/
def GateFails (cause : GateError) : Prop :=
  ∃ gate, step.gate = some gate ∧ resolver.evaluateGate gate = .error cause

/-- A step without a plan: its gate has no answer, or it runs and has a text that cannot be
rendered. -/
def Broken : Prop :=
  (∃ cause, step.GateFails resolver cause) ∨
    step.GateIs resolver true ∧
      ∃ template ∈ step.templates, ∃ cause, resolver.interpolate template = .error cause

/-- A step runs and its commands can be rendered, but one of its environment variables cannot. -/
def VariableFails (cause : ConfigError) : Prop :=
  step.GateIs resolver true ∧
    (∀ command ∈ step.commands, ∃ text, resolver.interpolate command = .ok text) ∧
      ∃ entry ∈ step.environment.entries, resolver.interpolate entry.2 = .error cause

/-- How the planning of a step may fail. -/
inductive Fails : PlanError → Prop
  /-- The gate has no answer. -/
  | gate {cause : GateError} (hgate : step.GateFails resolver cause) : Fails (.gate step.name cause)
  /-- The step runs, and this is the first command that cannot be rendered. -/
  | command {before after : List String} {command : String} {cause : ConfigError}
    (henabled : step.GateIs resolver true) (hcommands : step.commands = before ++ command :: after)
    (hbefore : ∀ earlier ∈ before, ∃ text, resolver.interpolate earlier = .ok text)
    (hcause : resolver.interpolate command = .error cause) : Fails (.render step.name cause)
  /-- An environment variable cannot be rendered. -/
  | environment {cause : ConfigError} (hvariable : step.VariableFails resolver cause) :
    Fails (.render step.name cause)

/-- The plan of a step that is not broken. -/
structure PlannedAs (planned : PlannedStep) : Prop where
  /-- The name is kept. -/
  name : planned.name = step.name
  /-- The gate decides whether the step runs. -/
  gate : step.GateIs resolver planned.enabled
  /-- If the step runs, each command is rendered, in order. -/
  commands : planned.enabled = true → List.Forall₂
    (fun command text ↦ resolver.interpolate command = .ok text) step.commands planned.commands
  /-- If the step runs, each environment variable keeps its name and is rendered. -/
  environment : planned.enabled = true → List.Forall₂
    (fun entry result ↦ result.1 = entry.1 ∧ resolver.interpolate entry.2 = .ok result.2)
    step.environment.entries planned.environment.entries
  /-- If the step does not run, it has neither commands nor environment variables. -/
  disabled : planned.enabled = false → planned.commands = [] ∧ planned.environment.entries = []

variable {resolver step}

theorem isEnabled_eq_ok_iff {answer : Bool} :
    step.isEnabled resolver = .ok answer ↔ step.GateIs resolver answer := by
  unfold isEnabled GateIs
  cases step.gate <;> simp [eq_comm]

theorem isEnabled_eq_error_iff {cause : GateError} :
    step.isEnabled resolver = .error cause ↔ step.GateFails resolver cause := by
  unfold isEnabled GateFails
  cases step.gate <;> simp

theorem GateIs.unique {answer other : Bool} (h : step.GateIs resolver answer)
    (h' : step.GateIs resolver other) : answer = other := by
  rw [← isEnabled_eq_ok_iff] at h h'
  exact Except.ok.inj (h.symm.trans h')

theorem GateIs.not_gateFails {answer : Bool} {cause : GateError}
    (h : step.GateIs resolver answer) : ¬ step.GateFails resolver cause := by
  rw [← isEnabled_eq_ok_iff] at h
  rw [← isEnabled_eq_error_iff, h]
  exact fun herror ↦ nomatch herror

/-- A step whose planning may fail is broken. -/
theorem Fails.broken {error : PlanError} (h : step.Fails resolver error) :
    step.Broken resolver := by
  cases h with
  | gate hgate => exact .inl ⟨_, hgate⟩
  | @command before after command cause henabled hcommands _ hcause =>
    have hmem : command ∈ step.templates := by simp [templates, hcommands]
    exact .inr ⟨henabled, command, hmem, cause, hcause⟩
  | @environment cause hvariable =>
    obtain ⟨henabled, -, entry, hmem, hcause⟩ := hvariable
    exact .inr ⟨henabled, entry.2, List.mem_append_right _ (List.mem_map_of_mem hmem), cause,
      hcause⟩

/-- A step with a plan is not broken. -/
theorem PlannedAs.not_broken {planned : PlannedStep} (h : step.PlannedAs resolver planned) :
    ¬ step.Broken resolver := by
  rintro (⟨cause, hgate⟩ | ⟨hruns, template, htemplate, cause, hcause⟩)
  · exact h.gate.not_gateFails hgate
  · have henabled : planned.enabled = true := h.gate.unique hruns
    rcases List.mem_append.1 htemplate with hcommand | hvalue
    · obtain ⟨text, htext⟩ := (h.commands henabled).exists_of_mem hcommand
      cases htext.symm.trans hcause
    · obtain ⟨entry, hentry, rfl⟩ := List.mem_map.1 hvalue
      obtain ⟨result, -, htext⟩ := (h.environment henabled).exists_of_mem hentry
      cases htext.symm.trans hcause

/-- A step has at most one plan. -/
theorem PlannedAs.unique {planned other : PlannedStep} (h : step.PlannedAs resolver planned)
    (h' : step.PlannedAs resolver other) : planned = other := by
  have hname : planned.name = other.name := h.name.trans h'.name.symm
  have henabled : planned.enabled = other.enabled := h.gate.unique h'.gate
  have hrest : planned.commands = other.commands ∧
      planned.environment.entries = other.environment.entries := by
    cases hruns : planned.enabled with
    | false =>
      obtain ⟨hcommands, hentries⟩ := h.disabled hruns
      obtain ⟨hcommands', hentries'⟩ := h'.disabled (henabled ▸ hruns)
      exact ⟨hcommands.trans hcommands'.symm, hentries.trans hentries'.symm⟩
    | true =>
      have hruns' : other.enabled = true := henabled ▸ hruns
      have hcommand : Relator.RightUnique fun command text ↦
          resolver.interpolate command = .ok text := by
        intro command text text' htext htext'
        exact Except.ok.inj (htext.symm.trans htext')
      have hentry : Relator.RightUnique fun (entry result : String × String) ↦
          result.1 = entry.1 ∧ resolver.interpolate entry.2 = .ok result.2 := by
        rintro entry result result' ⟨hkey, htext⟩ ⟨hkey', htext'⟩
        exact Prod.ext (hkey.trans hkey'.symm) (hcommand htext htext')
      exact ⟨hcommand.forall₂ (h.commands hruns) (h'.commands hruns'),
        hentry.forall₂ (h.environment hruns) (h'.environment hruns')⟩
  obtain ⟨name, enabled, commands, environment⟩ := planned
  obtain ⟨name', enabled', commands', environment'⟩ := other
  obtain ⟨rfl, hentries⟩ := hrest
  obtain rfl := Dictionary.eq_of_perm (.of_eq hentries)
  obtain rfl : name = name' := hname
  obtain rfl : enabled = enabled' := henabled
  rfl

end Step

/-! ### Orders of the environment variables -/

/-- Entries with their values rendered one after the other, as a dictionary. -/
def Resolver.interpolateEntries (resolver : Resolver) (entries : List (String × String)) :
    Except ConfigError (Dictionary String) := do
  let results ← entries.mapM fun entry ↦ do
    return (entry.1, ← resolver.interpolate entry.2)
  return .ofList results

/-- A step with an order in which its environment variables are gone through. -/
structure Arranged where
  step : Step
  /-- The environment variables in their order. -/
  order : List (String × String)
  /-- They are the variables of the step. -/
  perm : order.Perm step.environment.entries

/-- A step with its environment variables in the order of their names. -/
def Step.arranged (step : Step) : Arranged where
  step
  order := step.environment.entries
  perm := .refl _

namespace Arranged

/-- The commands and the environment of a step with their placeholders replaced. -/
def rendered (resolver : Resolver) (arranged : Arranged) :
    Except ConfigError (List String × Dictionary String) := do
  let commands ← resolver.interpolateAll arranged.step.commands
  let environment ← resolver.interpolateEntries arranged.order
  return (commands, environment)

/-- The plan of a step, from its environment variables in a given order. -/
def plan (resolver : Resolver) (arranged : Arranged) : Except PlanError PlannedStep :=
  let step := arranged.step
  match step.isEnabled resolver with
  | .error cause => .error (.gate step.name cause)
  | .ok false => .ok { name := step.name, enabled := false, commands := [], environment := .empty }
  | .ok true =>
    match arranged.rendered resolver with
    | .error cause => .error (.render step.name cause)
    | .ok (commands, environment) =>
      .ok { name := step.name, enabled := true, commands, environment }

variable {resolver : Resolver} {arranged other : Arranged}

/-- The plan of a step is made in the order of the names. -/
theorem plan_arranged (step : Step) : step.arranged.plan resolver = step.plan resolver :=
  rfl

/-- Entries are rendered if all their values are. -/
theorem interpolateEntries_eq_ok_iff {entries : List (String × String)}
    {result : Dictionary String} : resolver.interpolateEntries entries = .ok result ↔
      ∃ results, List.Forall₂ (fun entry result ↦
        result.1 = entry.1 ∧ resolver.interpolate entry.2 = .ok result.2) entries results ∧
          .ofList results = result := by
  have hentry (entry result : String × String) :
      (∃ text, resolver.interpolate entry.2 = .ok text ∧ (entry.1, text) = result) ↔
        result.1 = entry.1 ∧ resolver.interpolate entry.2 = .ok result.2 := by
    constructor
    · rintro ⟨text, htext, rfl⟩
      exact ⟨rfl, htext⟩
    · rintro ⟨hname, htext⟩
      exact ⟨result.2, htext, Prod.ext hname.symm rfl⟩
  unfold Resolver.interpolateEntries
  simp only [Except.bind_eq_ok_iff, Except.mapM_eq_ok_iff_forall₂, pure, Except.pure,
    Except.ok.injEq, hentry]

/-- Entries are not rendered if one of their values is not. -/
theorem exists_of_interpolateEntries {entries : List (String × String)} {cause : ConfigError}
    (h : resolver.interpolateEntries entries = .error cause) :
    ∃ entry ∈ entries, resolver.interpolate entry.2 = .error cause := by
  unfold Resolver.interpolateEntries at h
  rcases Except.bind_eq_error_iff.1 h with hresults | ⟨results, -, hnever⟩
  · obtain ⟨before, entry, after, rfl, -, hentry⟩ := Except.mapM_eq_error_iff.1 hresults
    rcases Except.bind_eq_error_iff.1 hentry with hcause | ⟨text, -, hnever⟩
    · exact ⟨entry, List.mem_append_right _ List.mem_cons_self, hcause⟩
    · cases hnever
  · cases hnever

/-- Rendering the environment variables of a step in any order gives each name its text. -/
theorem forall₂_environment {environment : Dictionary String}
    (h : resolver.interpolateEntries arranged.order = .ok environment) :
    List.Forall₂ (fun entry result ↦
      result.1 = entry.1 ∧ resolver.interpolate entry.2 = .ok result.2)
      arranged.step.environment.entries environment.entries := by
  obtain ⟨results, hresults, rfl⟩ := interpolateEntries_eq_ok_iff.1 h
  -- In the order of the names the results are the entries of a dictionary.
  obtain ⟨sorted, hsorted, hperm⟩ := List.perm_comp_forall₂ arranged.perm.symm hresults
  have hnames : arranged.step.environment.entries.map Prod.fst = sorted.map Prod.fst := by
    have hrelated := List.forall₂_map_left_iff.2
      (List.forall₂_map_right_iff.2 (hsorted.imp fun _ _ h ↦ h.1.symm))
    rwa [List.forall₂_eq_eq_eq] at hrelated
  have hpairwise : sorted.Pairwise fun first second ↦ first.1 < second.1 := by
    have h := arranged.step.environment.sorted
    rw [← List.pairwise_map] at h ⊢
    rwa [← hnames]
  have hdictionary : Dictionary.ofList results = ⟨sorted, hpairwise⟩ :=
    Dictionary.ofList_eq_of_perm hperm.symm
  rwa [hdictionary]

/-! ### One step -/

/-- What is planned is the plan of the step, whatever the order. -/
theorem plannedAs_of_plan {planned : PlannedStep} (h : arranged.plan resolver = .ok planned) :
    arranged.step.PlannedAs resolver planned := by
  unfold plan at h
  dsimp only at h
  split at h
  · cases h
  next hdisabled =>
    obtain rfl := Except.ok.inj h
    exact ⟨rfl, Step.isEnabled_eq_ok_iff.1 hdisabled, nofun, nofun, fun _ ↦ ⟨rfl, rfl⟩⟩
  next henabled =>
    split at h
    · cases h
    next commands environment hrendered =>
      obtain rfl := Except.ok.inj h
      obtain ⟨_, hcommands, hrest⟩ := Except.bind_eq_ok_iff.1 hrendered
      obtain ⟨_, henvironment, hpair⟩ := Except.bind_eq_ok_iff.1 hrest
      obtain ⟨rfl, rfl⟩ := Prod.mk.inj (Except.ok.inj hpair)
      exact ⟨rfl, Step.isEnabled_eq_ok_iff.1 henabled,
        fun _ ↦ Except.mapM_eq_ok_iff_forall₂.1 hcommands,
        fun _ ↦ forall₂_environment henvironment, nofun⟩

/-- Where nothing is planned, the step fails in one of its ways. -/
theorem fails_of_plan {error : PlanError} (h : arranged.plan resolver = .error error) :
    arranged.step.Fails resolver error := by
  unfold plan at h
  dsimp only at h
  split at h
  next cause hgate =>
    obtain rfl := Except.error.inj h
    exact .gate (Step.isEnabled_eq_error_iff.1 hgate)
  · cases h
  next henabled =>
    rw [Step.isEnabled_eq_ok_iff] at henabled
    split at h
    next cause hrendered =>
      obtain rfl := Except.error.inj h
      rcases Except.bind_eq_error_iff.1 hrendered with hcommands | ⟨commands, hcommands, hrest⟩
      · obtain ⟨before, command, after, hsplit, hbefore, hcause⟩ :=
          Except.mapM_eq_error_iff.1 hcommands
        exact .command henabled hsplit hbefore hcause
      · rcases Except.bind_eq_error_iff.1 hrest with henvironment | ⟨_, -, hnever⟩
        · obtain ⟨entry, hentry, hcause⟩ := exists_of_interpolateEntries henvironment
          refine .environment ⟨henabled, fun command hcommand ↦ ?_, entry,
            arranged.perm.mem_iff.1 hentry, hcause⟩
          exact (Except.mapM_eq_ok_iff_forall₂.1 hcommands).exists_of_mem hcommand
        · cases hnever
    · cases h

end Arranged

namespace Step

variable {resolver : Resolver} {step : Step}

theorem plannedAs_of_plan {planned : PlannedStep} (h : step.plan resolver = .ok planned) :
    step.PlannedAs resolver planned := by
  rw [← Arranged.plan_arranged] at h
  exact Arranged.plannedAs_of_plan h

theorem fails_of_plan {error : PlanError} (h : step.plan resolver = .error error) :
    step.Fails resolver error := by
  rw [← Arranged.plan_arranged] at h
  exact Arranged.fails_of_plan h

/-- The steps that are planned are those that are not broken. -/
theorem exists_plan_iff :
    (∃ planned, step.plan resolver = .ok planned) ↔ ¬ step.Broken resolver := by
  constructor
  · rintro ⟨planned, hplan⟩
    exact (plannedAs_of_plan hplan).not_broken
  · intro hunbroken
    cases hplan : step.plan resolver with
    | ok planned => exact ⟨planned, rfl⟩
    | error error => exact absurd (fails_of_plan hplan).broken hunbroken

/-! ### Which failure is told -/

theorem GateFails.unique {cause cause' : GateError} (h : step.GateFails resolver cause)
    (h' : step.GateFails resolver cause') : cause = cause' := by
  rw [← isEnabled_eq_error_iff] at h h'
  exact Except.error.inj (h.symm.trans h')

/-- Two failures of a step are the same, or each is about an environment variable. -/
theorem Fails.eq_or_variableFails {error error' : PlanError} (h : step.Fails resolver error)
    (h' : step.Fails resolver error') : error = error' ∨ ∃ cause cause',
      step.VariableFails resolver cause ∧ step.VariableFails resolver cause' ∧
        error = .render step.name cause ∧ error' = .render step.name cause' := by
  have hfirst {before after : List String} {command : String} {cause : ConfigError}
      (hsplit : step.commands = before ++ command :: after)
      (hbefore : ∀ earlier ∈ before, ∃ text, resolver.interpolate earlier = .ok text)
      (hcause : resolver.interpolate command = .error cause) :
      resolver.interpolateAll step.commands = .error cause :=
    Except.mapM_eq_error_iff.2 ⟨before, command, after, hsplit, hbefore, hcause⟩
  cases h with
  | gate hgate =>
    cases h' with
    | gate hgate' => exact .inl (congrArg _ (hgate.unique hgate'))
    | command henabled => exact absurd hgate henabled.not_gateFails
    | environment hvariable => exact absurd hgate hvariable.1.not_gateFails
  | command henabled hsplit hbefore hcause =>
    cases h' with
    | gate hgate => exact absurd hgate henabled.not_gateFails
    | command _ hsplit' hbefore' hcause' =>
      have heq := (hfirst hsplit hbefore hcause).symm.trans (hfirst hsplit' hbefore' hcause')
      exact .inl (congrArg _ (Except.error.inj heq))
    | environment hvariable =>
      obtain ⟨text, htext⟩ := hvariable.2.1 _ (hsplit ▸ List.mem_append_right _ List.mem_cons_self)
      cases htext.symm.trans hcause
  | environment hvariable =>
    cases h' with
    | gate hgate => exact absurd hgate hvariable.1.not_gateFails
    | command _ hsplit' _ hcause' =>
      obtain ⟨text, htext⟩ := hvariable.2.1 _ (hsplit' ▸ List.mem_append_right _ List.mem_cons_self)
      cases htext.symm.trans hcause'
    | environment hvariable' => exact .inr ⟨_, _, hvariable, hvariable', rfl, rfl⟩

end Step

/-- Two outcomes of planning some steps are the same, but for the environment variable that the
failure of a step is about. -/
def SameButVariable {α : Type} (resolver : Resolver) (steps : List Step)
    (first second : Except PlanError α) : Prop :=
  first = second ∨ ∃ step ∈ steps, ∃ cause cause',
    step.VariableFails resolver cause ∧ step.VariableFails resolver cause' ∧
      first = .error (.render step.name cause) ∧ second = .error (.render step.name cause')

namespace Arranged

variable {resolver : Resolver}

/-- The order of its environment variables changes at most the variable that the failure of a step
is about. -/
theorem plan_sameButVariable {arranged other : Arranged} (h : arranged.step = other.step) :
    SameButVariable resolver [arranged.step] (arranged.plan resolver) (other.plan resolver) := by
  cases hplan : arranged.plan resolver with
  | ok planned =>
    have hplanned := plannedAs_of_plan hplan
    cases hother : other.plan resolver with
    | ok planned' =>
      exact .inl (congrArg _ (hplanned.unique (h ▸ plannedAs_of_plan hother)))
    | error error => exact absurd (h ▸ fails_of_plan hother).broken hplanned.not_broken
  | error error =>
    have hfails := fails_of_plan hplan
    cases hother : other.plan resolver with
    | ok planned => exact absurd hfails.broken (h ▸ plannedAs_of_plan hother).not_broken
    | error error' =>
      rcases hfails.eq_or_variableFails (h ▸ fails_of_plan hother) with
        rfl | ⟨cause, cause', hvariable, hvariable', rfl, rfl⟩
      · exact .inl rfl
      · exact .inr ⟨_, List.mem_cons_self, cause, cause', hvariable, hvariable', rfl, rfl⟩

/-- The orders of the environment variables change at most the variable that the failure of the
first broken step is about. -/
theorem mapM_plan_sameButVariable {first second : List Arranged}
    (h : first.map Arranged.step = second.map Arranged.step) :
    SameButVariable resolver (first.map Arranged.step) (first.mapM (plan resolver))
      (second.mapM (plan resolver)) := by
  induction first generalizing second with
  | nil =>
    obtain rfl := List.map_eq_nil_iff.1 h.symm
    exact .inl rfl
  | cons arranged first ih =>
    obtain ⟨other, second, rfl, hstep, hrest⟩ := List.map_eq_cons_iff.1 h.symm
    rw [List.mapM_cons, List.mapM_cons]
    rcases plan_sameButVariable hstep.symm with
      hplan | ⟨step, hmem, cause, cause', hvariable, hvariable', hplan, hplan'⟩
    · rw [hplan]
      cases other.plan resolver with
      | error error => exact .inl rfl
      | ok planned =>
        rcases ih hrest.symm with
          heq | ⟨step, hmem, cause, cause', hvariable, hvariable', hplan, hplan'⟩
        · exact .inl (by rw [heq])
        · refine .inr ⟨step, List.mem_cons_of_mem _ hmem, cause, cause', hvariable, hvariable', ?_⟩
          rw [hplan, hplan']
          exact ⟨rfl, rfl⟩
    · refine .inr ⟨step, ?_, cause, cause', hvariable, hvariable', ?_⟩
      · rw [List.mem_singleton.1 hmem]
        exact List.mem_cons_self
      · rw [hplan, hplan']
        exact ⟨rfl, rfl⟩

end Arranged

namespace Project

/-- Planning is exact and stops at the first failure. If no step of a project is broken, there is
one planned step for each step, in order, as the gate and the texts of the step say. Otherwise the
planning fails at the first broken step in one of the ways in which that step fails, whatever the
steps after it are. The plan goes through the environment variables of each step in the order of
their names, and with any two other orders the outcome is the same but for the environment variable
that the failure of a step is about. -/
theorem plan_exact (project : Project) (resolver : Resolver) :
    ((∀ step ∈ project.steps, ¬ step.Broken resolver) → ∃ planned,
      project.plan resolver = .ok planned ∧
        List.Forall₂ (Step.PlannedAs resolver) project.steps planned) ∧
    ((∃ step ∈ project.steps, step.Broken resolver) → ∃ before step after error,
      project.steps = before ++ step :: after ∧
        (∀ earlier ∈ before, ¬ earlier.Broken resolver) ∧ step.Broken resolver ∧
          step.Fails resolver error ∧
            ∀ later, { project with steps := before ++ step :: later }.plan resolver =
              .error error) ∧
    (project.plan resolver = (project.steps.map Step.arranged).mapM (Arranged.plan resolver)) ∧
    ∀ first second : List Arranged, first.map Arranged.step = project.steps →
      second.map Arranged.step = project.steps →
        SameButVariable resolver project.steps (first.mapM (Arranged.plan resolver))
          (second.mapM (Arranged.plan resolver)) := by
  refine ⟨?unbroken, ?broken, ?arranged, ?orders⟩
  case unbroken =>
    intro hunbroken
    cases hplan : project.plan resolver with
    | ok planned =>
      exact ⟨planned, rfl,
        (Except.mapM_eq_ok_iff_forall₂.1 hplan).imp fun _ _ ↦ Step.plannedAs_of_plan⟩
    | error error =>
      obtain ⟨before, step, after, hsteps, -, hstep⟩ := Except.mapM_eq_error_iff.1 hplan
      have hmem : step ∈ project.steps := hsteps ▸ List.mem_append_right _ List.mem_cons_self
      exact absurd (Step.fails_of_plan hstep).broken (hunbroken step hmem)
  case broken =>
    rintro ⟨broken, hmem, hbroken⟩
    cases hplan : project.plan resolver with
    | ok planned =>
      obtain ⟨found, hfound⟩ := (Except.mapM_eq_ok_iff_forall₂.1 hplan).exists_of_mem hmem
      exact absurd hbroken (Step.exists_plan_iff.1 ⟨found, hfound⟩)
    | error error =>
      obtain ⟨before, step, after, hsteps, hbefore, hstep⟩ := Except.mapM_eq_error_iff.1 hplan
      have hfails := Step.fails_of_plan hstep
      refine ⟨before, step, after, error, hsteps,
        fun earlier hearlier ↦ Step.exists_plan_iff.1 (hbefore earlier hearlier), hfails.broken,
        hfails, fun later ↦ ?_⟩
      exact Except.mapM_eq_error_iff.2 ⟨before, step, later, rfl, hbefore, hstep⟩
  case arranged =>
    rw [List.mapM_map]
    rfl
  case orders =>
    intro first second hfirst hsecond
    rw [← hfirst]
    exact Arranged.mapM_plan_sameButVariable (hfirst.trans hsecond.symm)

/-- A strict resolver without version control. -/
def strictResolver : Resolver :=
  { Resolver.ofStore .empty with strict := true }

/-- A step that does not run and would be broken if it did, and a broken step behind it. -/
def skippedAndBroken : Project :=
  { empty with
    steps :=
      [{ name := "skipped", gate := some "'x' == 'y'", commands := ["$\x7bgit:branch\x7d"]
         environment := .empty },
        { name := "broken", gate := none, commands := ["make"]
          environment := .ofList [("TAG", "$\x7bgit:branch\x7d")] }] }

/-- The project has a broken step, and planning stops at the first one. -/
theorem broken_step_stops :
    (∃ step ∈ skippedAndBroken.steps, step.Broken strictResolver) ∧
    ∃ before step after error, skippedAndBroken.steps = before ++ step :: after ∧
      (∀ earlier ∈ before, ¬ earlier.Broken strictResolver) ∧ step.Broken strictResolver ∧
        step.Fails strictResolver error ∧
          ∀ later, { skippedAndBroken with steps := before ++ step :: later }.plan
            strictResolver = .error error := by
  have hbroken : ∃ step ∈ skippedAndBroken.steps, step.Broken strictResolver := by
    refine ⟨_, List.mem_cons_of_mem _ List.mem_cons_self, .inr ⟨.inl ⟨rfl, rfl⟩,
      "$\x7bgit:branch\x7d", List.mem_append_right _ List.mem_cons_self,
      .missingCollaborator "$\x7bgit:branch\x7d" "version-control", ?_⟩⟩
    decide +kernel
  exact ⟨hbroken, (plan_exact skippedAndBroken strictResolver).2.1 hbroken⟩

end Project

end BuildPlan
