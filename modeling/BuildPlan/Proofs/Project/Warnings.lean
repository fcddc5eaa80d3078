import BuildPlan.Proofs.Project.Planning
import BuildPlan.Proofs.Resolver.Interpolation

/-!
# Warnings and plans

The check of a project evaluates every gate and warns of each placeholder of a step that does not
resolve to a value (`Project.validate_eq_ok_iff`). A plan evaluates the same gates, and renders the
texts of the steps that run. It fails if a gate has no answer or if a token of a step that runs
stops the rendering (`Project.exists_plan_iff`, `Step.broken_iff`).

The main result `Project.warnings_left_in_plan` ties both together. Without warnings there is a
plan, and every placeholder in it gave way to a value (`Resolver.FullyResolves`). A placeholder
with a warning stands in the plan as it is written, at its place (`Resolver.Occurs`), unless there
is no plan.
-/

set_option autoImplicit false
set_option relaxedAutoImplicit false

namespace BuildPlan

namespace Resolver

section Rendered

variable (resolver : Resolver)

/-! ### Templates and their texts -/

/-- A text is a template in which every placeholder gave way to the value of its token. -/
def FullyResolves (template text : String) : Prop :=
  ∃ segments values, resolver.markers.Decomposes template.toList segments ∧
    List.Forall₂ (fun part value ↦ resolver.resolve (resolver.tokenOf part.2) = .resolved value)
      segments.marked values ∧
    text.toList = segments.weave (values.map String.toList)

/-- A token occurs in a template, between two texts once the other placeholders are replaced. -/
def Occurs (template : String) (front : List Char) (token : Token) (back : List Char) : Prop :=
  ∃ segments before literal body after, resolver.markers.Decomposes template.toList segments ∧
    segments.marked = before ++ (literal, body) :: after ∧ token = resolver.tokenOf body ∧
    front = resolver.filled before ++ literal ∧ back = resolver.filled after ++ segments.tail

end Rendered

variable {resolver : Resolver} {template text : String} {token : Token} {front back : List Char}

/-- The tokens of a template are those that occur in it. -/
theorem mem_tokens_iff_occurs :
    token ∈ resolver.tokens template ↔ ∃ front back, resolver.Occurs template front token back := by
  rw [tokens_eq_map, List.mem_map]
  constructor
  · rintro ⟨⟨literal, body⟩, hpart, rfl⟩
    obtain ⟨before, after, hmarked⟩ := List.append_of_mem hpart
    exact ⟨_, _, _, before, literal, body, after, Markers.decomposes_iff.2 rfl, hmarked, rfl, rfl,
      rfl⟩
  · rintro ⟨_, _, segments, before, literal, body, after, hsegments, hmarked, rfl, -, -⟩
    obtain rfl := Markers.decomposes_iff.1 hsegments
    exact ⟨(literal, body), hmarked ▸ List.mem_append_right _ List.mem_cons_self, rfl⟩

/-- What is rendered of a template has the substitute of each token at its place. -/
theorem Occurs.toList_of_interpolate (h : resolver.Occurs template front token back)
    (htext : resolver.interpolate template = .ok text) :
    text.toList = front ++ (resolver.substitute token).toList ++ back := by
  obtain ⟨segments, before, literal, body, after, hsegments, hmarked, rfl, rfl, rfl⟩ := h
  obtain rfl := Markers.decomposes_iff.1 hsegments
  rw [(interpolate_eq_ok_iff.1 htext).2, hmarked, filled_append]
  simp [filled]

/-- A token with a value is rendered as its value. -/
theorem resolve_of_render (hvalue : ∃ value, resolver.resolve token = .resolved value)
    (hrender : resolver.render token = .ok text) : resolver.resolve token = .resolved text := by
  obtain ⟨value, hvalue⟩ := hvalue
  rw [render, hvalue] at hrender
  rw [hvalue, Except.ok.inj hrender]

/-- A template is fully resolved in the text that is rendered of it if all its tokens have
values. -/
theorem fullyResolves_of_interpolate
    (htokens : ∀ token ∈ resolver.tokens template,
      ∃ value, resolver.resolve token = .resolved value)
    (htext : resolver.interpolate template = .ok text) : resolver.FullyResolves template text := by
  rw [interpolate_eq_map_weave] at htext
  obtain ⟨values, hvalues, rfl⟩ := Except.map_eq_ok_iff.1 htext
  have hresolved := (Except.mapM_eq_ok_iff_forall₂.1 hvalues).imp_of_mem
    fun token htoken value hrender ↦ resolve_of_render (htokens token htoken) hrender
  rw [tokens_eq_map, List.forall₂_map_left_iff] at hresolved
  exact ⟨_, values, Markers.decomposes_iff.2 rfl, hresolved, String.toList_ofList⟩

/-- A text cannot be rendered if one of its tokens stops the rendering. -/
theorem exists_interpolate_eq_error_iff {text : String} :
    (∃ cause, resolver.interpolate text = .error cause) ↔
      ∃ token ∈ resolver.tokens text, resolver.Halts token := by
  have hok : (∃ output, resolver.interpolate text = .ok output) ↔
      ∀ token ∈ resolver.tokens text, ¬ resolver.Halts token := by
    constructor
    · rintro ⟨output, houtput⟩
      exact (interpolate_eq_ok_iff.1 houtput).1
    · intro hhalts
      exact ⟨_, interpolate_eq_ok_iff.2 ⟨hhalts, String.toList_ofList⟩⟩
  rw [Except.exists_eq_error_iff, hok]
  push Not
  rfl

end Resolver

/-- What a rendered text has behind a token of which there is a warning. -/
def Warning.note (strict : Bool) (warning : Warning) : String :=
  match warning.cause with
  | none => ""
  | some error => if strict then "; error: " ++ error.message else ""

namespace Step

variable {resolver : Resolver} {step : Step} {planned : PlannedStep} {token : Token}
  {warning : Warning}

/-! ### Steps -/

/-- Every command and every environment variable of a step is planned as a text that is related to
it. -/
structure Renders (relation : String → String → Prop) (step : Step) (planned : PlannedStep) :
    Prop where
  commands : List.Forall₂ relation step.commands planned.commands
  /-- The environment variables keep their names. -/
  environment : List.Forall₂ (fun entry result ↦ result.1 = entry.1 ∧ relation entry.2 result.2)
    step.environment.entries planned.environment.entries

/-- What holds of every template and the text that is rendered of it holds in the plan. -/
theorem PlannedAs.renders {relation : String → String → Prop}
    (h : step.PlannedAs resolver planned) (henabled : planned.enabled = true)
    (hrelation : ∀ template ∈ step.templates, ∀ text,
      resolver.interpolate template = .ok text → relation template text) :
    step.Renders relation planned where
  commands := (h.commands henabled).imp_of_mem fun command hmem text htext ↦
    hrelation command (List.mem_append_left _ hmem) text htext
  environment := (h.environment henabled).imp_of_mem fun entry hmem result hresult ↦
    have htemplate : entry.2 ∈ step.templates :=
      List.mem_append_right _ (List.mem_map_of_mem hmem)
    ⟨hresult.1, hrelation entry.2 htemplate result.2 hresult.2⟩

/-- A step is broken if its gate has no answer, or if it runs and a token stops the rendering. -/
theorem broken_iff : step.Broken resolver ↔
    (¬ ∃ answer, step.GateIs resolver answer) ∨ step.GateIs resolver true ∧
      ∃ template ∈ step.templates, ∃ token ∈ resolver.tokens template, resolver.Halts token := by
  have hgate : (∃ cause, step.GateFails resolver cause) ↔
      ¬ ∃ answer, step.GateIs resolver answer := by
    simp only [← isEnabled_eq_ok_iff, ← isEnabled_eq_error_iff]
    exact Except.exists_eq_error_iff
  unfold Broken
  rw [hgate]
  simp only [Resolver.exists_interpolate_eq_error_iff]

/-! ### Warnings about a step -/

/-- There is nothing to warn of if a token has a value. -/
theorem warning?_eq_none_iff : step.warning? resolver token = none ↔
    ∃ value, resolver.resolve token = .resolved value := by
  unfold warning?
  cases resolver.resolve token <;> simp

theorem mem_warnings_iff : warning ∈ step.warnings resolver ↔ ∃ template ∈ step.templates,
    ∃ token ∈ resolver.tokens template, step.warning? resolver token = some warning := by
  rw [warnings, List.mem_filterMap]
  constructor
  · rintro ⟨token, hmem, hwarning⟩
    obtain ⟨template, htemplate, htoken⟩ := List.mem_flatMap.1 hmem
    exact ⟨template, htemplate, token, htoken, hwarning⟩
  · rintro ⟨template, htemplate, token, htoken, hwarning⟩
    exact ⟨token, List.mem_flatMap.2 ⟨template, htemplate, htoken⟩, hwarning⟩

/-- A token of which there is a warning gives way to itself, with a note behind it. -/
theorem substitute_of_warning? (h : step.warning? resolver token = some warning) :
    resolver.substitute token = token.raw ++ warning.note resolver.strict := by
  unfold warning? at h
  unfold Resolver.substitute
  cases hresolve : resolver.resolve token with
  | resolved value =>
    rw [hresolve] at h
    cases h
  | unresolved =>
    rw [hresolve] at h
    obtain rfl := Option.some.inj h
    exact String.append_empty.symm
  | failed error =>
    rw [hresolve] at h
    obtain rfl := Option.some.inj h
    cases hstrict : resolver.strict with
    | false => exact String.append_empty.symm
    | true => exact String.append_assoc

/-- Where a token of a template has a warning, this is one of the given ones, and the text has the
token at its place as it is written, with the note behind it. -/
def LeavesBehind (resolver : Resolver) (step : Step) (warnings : List Warning)
    (template text : String) : Prop :=
  ∀ front token back warning, resolver.Occurs template front token back →
    step.warning? resolver token = some warning → warning ∈ warnings ∧
      text.toList =
        front ++ token.raw.toList ++ (warning.note resolver.strict).toList ++ back

/-- A rendered text leaves behind the tokens that have warnings. -/
theorem leavesBehind_of_interpolate {warnings : List Warning} {template text : String}
    (hwarnings : ∀ warning ∈ step.warnings resolver, warning ∈ warnings)
    (htemplate : template ∈ step.templates) (htext : resolver.interpolate template = .ok text) :
    step.LeavesBehind resolver warnings template text := by
  intro front token back warning hoccurs hwarning
  have htoken := Resolver.mem_tokens_iff_occurs.2 ⟨front, back, hoccurs⟩
  refine ⟨hwarnings warning (mem_warnings_iff.2 ⟨template, htemplate, token, htoken, hwarning⟩), ?_⟩
  rw [hoccurs.toList_of_interpolate htext, substitute_of_warning? hwarning]
  simp

/-- All tokens of a step without warnings have values. -/
theorem exists_resolved_of_warnings {template : String} (hnone : step.warnings resolver = [])
    (htemplate : template ∈ step.templates) (htoken : token ∈ resolver.tokens template) :
    ∃ value, resolver.resolve token = .resolved value := by
  have hnothing : step.warning? resolver token = none := by
    rw [Option.eq_none_iff_forall_not_mem]
    intro warning hwarning
    have hmem := mem_warnings_iff.2 ⟨template, htemplate, token, htoken, hwarning⟩
    rw [hnone] at hmem
    exact List.not_mem_nil hmem
  exact warning?_eq_none_iff.1 hnothing

/-- A step is checked if its gate has an answer. -/
theorem check_eq_ok_iff {found : List Warning} : step.check resolver = .ok found ↔
    (∃ answer, step.GateIs resolver answer) ∧ found = step.warnings resolver := by
  simp only [← isEnabled_eq_ok_iff]
  unfold check
  cases step.isEnabled resolver <;> simp [eq_comm]

end Step

namespace Project

variable {project : Project} {resolver : Resolver}

/-- A project has a plan if none of its steps is broken. -/
theorem exists_plan_iff : (∃ planned, project.plan resolver = .ok planned) ↔
    ∀ step ∈ project.steps, ¬ step.Broken resolver := by
  unfold plan
  rw [Except.exists_mapM_eq_ok_iff]
  simp only [Step.exists_plan_iff]

/-- A project is approved if all of its gates have answers, with the warnings about its steps. -/
theorem validate_eq_ok_iff {warnings : List Warning} : project.validate resolver = .ok warnings ↔
    (∀ step ∈ project.steps, ∃ answer, step.GateIs resolver answer) ∧
      warnings = project.steps.flatMap (Step.warnings resolver) := by
  unfold validate
  simp only [Except.map_eq_ok_iff, Except.mapM_eq_ok_iff_forall₂, Step.check_eq_ok_iff,
    List.forall₂_and_left, List.forall₂_eq_map_iff]
  constructor
  · rintro ⟨_, ⟨hgates, rfl⟩, rfl⟩
    exact ⟨hgates, (List.flatMap_def ..).symm⟩
  · rintro ⟨hgates, rfl⟩
    exact ⟨_, ⟨hgates, rfl⟩, (List.flatMap_def ..).symm⟩

theorem exists_validate_iff : (∃ warnings, project.validate resolver = .ok warnings) ↔
    ∀ step ∈ project.steps, ∃ answer, step.GateIs resolver answer := by
  simp only [validate_eq_ok_iff, exists_and_left, exists_eq, and_true]

/-- The plan of a project has the plans of its steps. -/
theorem forall₂_plannedAs {planned : List PlannedStep} (h : project.plan resolver = .ok planned) :
    List.Forall₂ (Step.PlannedAs resolver) project.steps planned :=
  (Except.mapM_eq_ok_iff_forall₂.1 h).imp fun _ _ ↦ Step.plannedAs_of_plan

/-- A project has a plan if its gates have answers and there are no warnings. -/
theorem exists_plan_of_validate (h : project.validate resolver = .ok []) :
    ∃ planned, project.plan resolver = .ok planned := by
  obtain ⟨hgates, hnone⟩ := validate_eq_ok_iff.1 h
  refine exists_plan_iff.2 fun step hstep hbroken ↦ ?_
  rcases Step.broken_iff.1 hbroken with
    hgate | ⟨-, template, htemplate, token, htoken, -, what, hwhat⟩
  · exact hgate (hgates step hstep)
  · have hsilent := List.flatMap_eq_nil_iff.1 hnone.symm step hstep
    obtain ⟨value, hvalue⟩ := Step.exists_resolved_of_warnings hsilent htemplate htoken
    cases hvalue.symm.trans hwhat

/-- Warnings are what is left in a plan. If the check of a project succeeds without warnings, there
is a plan, and each text of a step that runs is its template with every placeholder replaced by
the value of its token. If it succeeds at all, its warnings are about the tokens of the steps that
have no values, and whenever there is a plan, each such token of a step that runs stands in the
rendered text as it is written, at its place. A strict build adds the failure of the token. -/
theorem warnings_left_in_plan (project : Project) (resolver : Resolver) :
    (project.validate resolver = .ok [] → ∃ planned, project.plan resolver = .ok planned ∧
      List.Forall₂ (fun step result ↦ step.GateIs resolver result.enabled ∧
        (result.enabled = true → step.Renders resolver.FullyResolves result))
        project.steps planned) ∧
    ∀ warnings, project.validate resolver = .ok warnings →
      (∀ warning, warning ∈ warnings ↔ ∃ step ∈ project.steps, ∃ template ∈ step.templates,
        ∃ front token back, resolver.Occurs template front token back ∧
          step.warning? resolver token = some warning) ∧
      ∀ planned, project.plan resolver = .ok planned →
        List.Forall₂ (fun step result ↦ result.enabled = true →
          step.Renders (step.LeavesBehind resolver warnings) result) project.steps planned := by
  constructor
  · intro hclean
    obtain ⟨planned, hplan⟩ := exists_plan_of_validate hclean
    obtain ⟨-, hnone⟩ := validate_eq_ok_iff.1 hclean
    refine ⟨planned, hplan, (forall₂_plannedAs hplan).imp_of_mem ?_⟩
    intro step hstep result hresult
    have hsilent := List.flatMap_eq_nil_iff.1 hnone.symm step hstep
    refine ⟨hresult.gate, fun henabled ↦ hresult.renders henabled ?_⟩
    intro template htemplate text htext
    exact Resolver.fullyResolves_of_interpolate
      (fun token htoken ↦ Step.exists_resolved_of_warnings hsilent htemplate htoken) htext
  · intro warnings hwarnings
    obtain ⟨-, rfl⟩ := validate_eq_ok_iff.1 hwarnings
    constructor
    · intro warning
      rw [List.mem_flatMap]
      refine exists_congr fun step ↦ and_congr_right fun _ ↦ ?_
      rw [Step.mem_warnings_iff]
      refine exists_congr fun template ↦ and_congr_right fun _ ↦ ?_
      constructor
      · rintro ⟨token, htoken, hwarning⟩
        obtain ⟨front, back, hoccurs⟩ := Resolver.mem_tokens_iff_occurs.1 htoken
        exact ⟨front, token, back, hoccurs, hwarning⟩
      · rintro ⟨front, token, back, hoccurs, hwarning⟩
        exact ⟨token, Resolver.mem_tokens_iff_occurs.2 ⟨front, back, hoccurs⟩, hwarning⟩
    · intro planned hplan
      refine (forall₂_plannedAs hplan).imp_of_mem ?_
      intro step hstep result hresult henabled
      have hwarned : ∀ warning ∈ step.warnings resolver,
          warning ∈ project.steps.flatMap (Step.warnings resolver) :=
        fun warning hmem ↦ List.mem_flatMap.2 ⟨step, hstep, hmem⟩
      exact hresult.renders henabled fun template htemplate text htext ↦
        Step.leavesBehind_of_interpolate hwarned htemplate htext

/-- A project with one step that greets what a placeholder stands for. -/
def greeter (key : String) : Project :=
  { empty with
    steps :=
      [{ name := "greet", gate := none, commands := ["echo $\x7b" ++ key ++ "\x7d!"]
         environment := .empty }] }

/-- The placeholder of a known branch gives way to its name in the plan, and a placeholder that
stands for nothing is left in it. -/
theorem greeter_planned :
    (greeter "branch").validate (.ofBranch "main") = .ok [] ∧
    (∃ planned, (greeter "branch").plan (.ofBranch "main") = .ok planned) ∧
    (greeter "missing").validate (.ofBranch "main") =
      .ok [⟨"greet", (Resolver.ofBranch "main").tokenOf "missing".toList, none⟩] ∧
    ∃ planned text, (greeter "missing").plan (.ofBranch "main") = .ok [planned] ∧
      planned.commands = [text] ∧
        text.toList = "echo ".toList ++ "$\x7bmissing\x7d".toList ++ [] ++ "!".toList := by
  have hclean : (greeter "branch").validate (.ofBranch "main") = .ok [] := by decide +kernel
  have hwarned : (greeter "missing").validate (.ofBranch "main") =
      .ok [⟨"greet", (Resolver.ofBranch "main").tokenOf "missing".toList, none⟩] := by
    decide +kernel
  have hplan : (greeter "missing").plan (.ofBranch "main") =
      .ok [⟨"greet", true, ["echo $\x7bmissing\x7d!"], .empty⟩] := by decide +kernel
  have hsegments : (Resolver.ofBranch "main").markers.segments
      "echo $\x7bmissing\x7d!".toList = ⟨[("echo ".toList, "missing".toList)], "!".toList⟩ := by
    decide +kernel
  have hoccurs : (Resolver.ofBranch "main").Occurs "echo $\x7bmissing\x7d!" "echo ".toList
      ((Resolver.ofBranch "main").tokenOf "missing".toList) "!".toList :=
    ⟨_, [], "echo ".toList, "missing".toList, [], Markers.decomposes_iff.2 hsegments.symm, rfl, rfl,
      rfl, rfl⟩
  obtain ⟨planned, hplanned, -⟩ := (warnings_left_in_plan _ _).1 hclean
  obtain ⟨-, hleft⟩ := (warnings_left_in_plan _ _).2 _ hwarned
  obtain ⟨hstep, -⟩ := List.forall₂_cons.1 (hleft _ hplan)
  obtain ⟨hcommand, -⟩ := List.forall₂_cons.1 (hstep rfl).commands
  have hwarning : Step.warning? (.ofBranch "main")
      ⟨"greet", none, ["echo $\x7b" ++ "missing" ++ "\x7d!"], .empty⟩
      ((Resolver.ofBranch "main").tokenOf "missing".toList) =
        some ⟨"greet", (Resolver.ofBranch "main").tokenOf "missing".toList, none⟩ := by
    decide +kernel
  obtain ⟨-, htext⟩ := hcommand _ _ _ _ hoccurs hwarning
  exact ⟨hclean, ⟨planned, hplanned⟩, hwarned, _, _, hplan, rfl, htext⟩

end Project

end BuildPlan
