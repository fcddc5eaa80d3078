import BuildPlan.Project.Plan
import BuildPlan.Proofs.Project.Declaration
import BuildPlan.Proofs.Resolver.Rendering

/-!
# Declared gates and planned steps

A gate is kept where the step of a node runs only if the node declares no gate or its gate is true.
The property `when` is a gate only as a string, and a value of another type counts as no gate at
all. So a gate is kept by every plan if it is a string, and lost by every plan if it is not
(`gateKept_iff_string`); a gate that is written as the boolean `false` does not keep its step from
running (`false_gate_lost`).
-/

set_option autoImplicit false
set_option relaxedAutoImplicit false

namespace BuildPlan

namespace Step

/-- A planned step has the name of the step, and its gate decides whether it runs. -/
theorem isEnabled_of_plan {resolver : Resolver} {step : Step} {planned : PlannedStep}
    (h : step.plan resolver = .ok planned) :
    planned.name = step.name ∧ step.isEnabled resolver = .ok planned.enabled := by
  unfold plan at h
  split at h
  · cases h
  next hdisabled =>
    obtain rfl := Except.ok.inj h
    exact ⟨rfl, hdisabled⟩
  next henabled =>
    split at h
    · cases h
    · obtain rfl := Except.ok.inj h
      exact ⟨rfl, henabled⟩

/-- A step node that declares a string as gate is planned as the gate says. -/
theorem enabled_of_string {resolver : Resolver} {node : Kdl.Node} {step : Step}
    {planned : PlannedStep} {gate : String} (hstep : ofNode node = .ok step)
    (hplan : step.plan resolver = .ok planned) (hgate : node.Declares "when" (.string gate)) :
    resolver.evaluateGate gate = .ok planned.enabled := by
  have henabled := (isEnabled_of_plan hplan).2
  rwa [isEnabled, gate_of_ofNode hstep, Kdl.Node.property?_eq_some_iff.2 hgate] at henabled

/-- A step whose gate is no string is planned to run. -/
theorem enabled_of_not_string {resolver : Resolver} {node : Kdl.Node} {step : Step}
    {planned : PlannedStep} {value : Kdl.Value} (hstep : ofNode node = .ok step)
    (hplan : step.plan resolver = .ok planned) (hgate : node.Declares "when" value)
    (hvalue : ∀ gate, value ≠ .string gate) : planned.enabled = true := by
  have hnone : value.string? = none := by
    cases value with
    | string text => exact absurd rfl (hvalue text)
    | null | bool _ | integer _ | float _ => rfl
  have henabled := (isEnabled_of_plan hplan).2
  rw [isEnabled, gate_of_ofNode hstep, Kdl.Node.property?_eq_some_iff.2 hgate, Option.bind_some,
    hnone] at henabled
  exact (Except.ok.inj henabled).symm

end Step

/-- The step of a node runs only if the node declares no gate, or a gate that is true. -/
def PlannedStep.GateKept (resolver : Resolver) (node : Kdl.Node) (planned : PlannedStep) : Prop :=
  planned.enabled = true → node.Lacks "when" ∨
    ∃ gate, node.Declares "when" (.string gate) ∧ resolver.evaluateGate gate = .ok true

namespace Project

/-- The steps of a plan are planned from the step nodes of the document, in order. -/
theorem forall₂_plan {nodes : List Kdl.Node} {project : Project} {resolver : Resolver}
    {planned : List PlannedStep} (hproject : ofNodes nodes = .ok project)
    (hplan : project.plan resolver = .ok planned) :
    List.Forall₂ (fun node planned ↦ ∃ step, Step.ofNode node = .ok step ∧
      step.plan resolver = .ok planned) (nodes.filter (·.name = "step")) planned :=
  (steps_ofNodes hproject).comp (Except.mapM_eq_ok_iff_forall₂.1 hplan)

/-- Plans keep exactly the gates that are strings. The planned steps are those of the step nodes,
in order. The gate of a node is kept if and only if it is a string or missing, and then it decides
whether the step runs. -/
theorem gateKept_iff_string {nodes : List Kdl.Node} {project : Project} {resolver : Resolver}
    {planned : List PlannedStep} (hproject : ofNodes nodes = .ok project)
    (hplan : project.plan resolver = .ok planned) :
    List.Forall₂ (fun node planned ↦ node.stringArgument? = some planned.name ∧
        (PlannedStep.GateKept resolver node planned ↔
          ∀ value, node.Declares "when" value → ∃ gate, value = .string gate) ∧
        ∀ gate, node.Declares "when" (.string gate) →
          resolver.evaluateGate gate = .ok planned.enabled)
      (nodes.filter (·.name = "step")) planned := by
  refine (forall₂_plan hproject hplan).imp fun node planned ⟨step, hstep, hplanned⟩ ↦
    ⟨?_, ?_, fun gate hgate ↦ Step.enabled_of_string hstep hplanned hgate⟩
  · rw [Step.name_of_ofNode hstep, (Step.isEnabled_of_plan hplanned).1]
  constructor
  · intro hkept value hvalue
    by_contra hstring
    have henabled := Step.enabled_of_not_string hstep hplanned hvalue
      fun gate hgate ↦ hstring ⟨gate, hgate⟩
    rw [← Kdl.Node.property?_eq_some_iff] at hvalue
    rcases hkept henabled with hlacks | ⟨gate, hgate, -⟩
    · rw [Kdl.Node.property?_eq_none_iff.2 hlacks] at hvalue
      cases hvalue
    · rw [Kdl.Node.property?_eq_some_iff.2 hgate] at hvalue
      exact hstring ⟨gate, (Option.some.inj hvalue).symm⟩
  · intro hstring henabled
    cases hwhen : node.property? "when" with
    | none => exact .inl (Kdl.Node.property?_eq_none_iff.1 hwhen)
    | some value =>
      have hvalue := Kdl.Node.property?_eq_some_iff.1 hwhen
      obtain ⟨gate, rfl⟩ := hstring value hvalue
      have hgate := Step.enabled_of_string hstep hplanned hvalue
      exact .inr ⟨gate, hvalue, henabled ▸ hgate⟩

/-- The document `step "a" when=GATE { run "x" }`. -/
def gatedDocument (gate : Kdl.Value) : List Kdl.Node :=
  [.block "step" [.argument (.string "a"), .property "when" gate]
    [.plain "run" [.argument (.string "x")]]]

/-- The project of a single step with a command. -/
def singleStep (gate : Option String) : Project :=
  { empty with steps := [{ name := "a", gate, commands := ["x"], environment := .empty }] }

/-- The step of a single step that runs. -/
def singleRun : PlannedStep where
  name := "a"
  enabled := true
  commands := ["x"]
  environment := .empty

/-- The gate `'sox' == 'sox'` is kept. -/
theorem true_gate_kept :
    ofNodes (gatedDocument (.string "'sox' == 'sox'")) = .ok (singleStep (some "'sox' == 'sox'")) ∧
    (singleStep (some "'sox' == 'sox'")).plan (.ofStore .empty) = .ok [singleRun] ∧
    List.Forall₂ (fun node planned ↦ node.stringArgument? = some planned.name ∧
        (PlannedStep.GateKept (.ofStore .empty) node planned ↔
          ∀ value, node.Declares "when" value → ∃ gate, value = .string gate) ∧
        ∀ gate, node.Declares "when" (.string gate) →
          (Resolver.ofStore .empty).evaluateGate gate = .ok planned.enabled)
      ((gatedDocument (.string "'sox' == 'sox'")).filter (·.name = "step")) [singleRun] := by
  have hproject : ofNodes (gatedDocument (.string "'sox' == 'sox'")) =
      .ok (singleStep (some "'sox' == 'sox'")) := rfl
  have hplan : (singleStep (some "'sox' == 'sox'")).plan (.ofStore .empty) = .ok [singleRun] := by
    decide +kernel
  exact ⟨hproject, hplan, gateKept_iff_string hproject hplan⟩

/-- The gate `#false` is lost: the step is planned to run, though it declares a gate and the gate is
not true. -/
theorem false_gate_lost :
    ofNodes (gatedDocument (.bool false)) = .ok (singleStep none) ∧
    (singleStep none).plan (.ofStore .empty) = .ok [singleRun] ∧
    ¬ List.Forall₂ (PlannedStep.GateKept (.ofStore .empty))
      ((gatedDocument (.bool false)).filter (·.name = "step")) [singleRun] := by
  have hdeclares : (Kdl.Node.block "step" [.argument (.string "a"), .property "when" (.bool false)]
      [.plain "run" [.argument (.string "x")]]).property? "when" = some (.bool false) := rfl
  refine ⟨rfl, by decide +kernel, fun hkept ↦ ?_⟩
  obtain ⟨hkept, -⟩ := List.forall₂_cons.1 hkept
  rcases hkept rfl with hlacks | ⟨gate, hgate, -⟩
  · rw [Kdl.Node.property?_eq_none_iff.2 hlacks] at hdeclares
    cases hdeclares
  · rw [Kdl.Node.property?_eq_some_iff.2 hgate] at hdeclares
    cases hdeclares

end Project

end BuildPlan
