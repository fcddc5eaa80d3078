import Mathlib.Data.List.Forall2

/-!
# Outcomes of steps that may fail

When a chain of steps succeeds, and when it fails: a step and what follows it, a step whose result
is changed, and one step for each member of a list. Two such passes over a list, one after the
other, are one pass (`List.Forall₂.comp`).

Two steps may give the same result and yet fail with different errors (`Except.Matches`). Where each
step may fail for several reasons, a chain fails for the first reason of all (`Except.Reports`).
-/

set_option autoImplicit false
set_option relaxedAutoImplicit false

/-- Lists that are related member by member to one list in the middle are related so directly. -/
theorem List.Forall₂.comp {α β γ : Type} {r : α → β → Prop} {s : β → γ → Prop} {first : List α}
    {middle : List β} {last : List γ} (h : List.Forall₂ r first middle)
    (h' : List.Forall₂ s middle last) :
    List.Forall₂ (fun a c ↦ ∃ b, r a b ∧ s b c) first last := by
  induction h generalizing last with
  | nil =>
    cases h'
    exact .nil
  | cons hhead _ ih =>
    cases h' with
    | cons hhead' htail => exact .cons ⟨_, hhead, hhead'⟩ (ih htail)

/-- A member of the first of two related lists is related to a member of the second. -/
theorem List.Forall₂.exists_of_mem {α β : Type} {r : α → β → Prop} {first : List α}
    {second : List β} (h : List.Forall₂ r first second) {a : α} (ha : a ∈ first) :
    ∃ b, r a b := by
  induction h with
  | nil => exact absurd ha List.not_mem_nil
  | cons hhead _ ih =>
    rcases List.mem_cons.1 ha with rfl | htail
    · exact ⟨_, hhead⟩
    · exact ih htail

/-- Related members of two lists are related in another way, if the members of the first list allow
it. -/
theorem List.Forall₂.imp_of_mem {α β : Type} {r s : α → β → Prop} {first : List α}
    {second : List β} (h : List.Forall₂ r first second)
    (himp : ∀ a ∈ first, ∀ b, r a b → s a b) : List.Forall₂ s first second :=
  ((List.forall₂_and_left first second).2 ⟨himp, h⟩).imp fun _ b hab ↦ hab.1 b hab.2

/-- The second of two lists has a function of each member of the first one if it is the image of
that list. -/
theorem List.forall₂_eq_map_iff {α β : Type} {f : α → β} {first : List α} {second : List β} :
    List.Forall₂ (fun a b ↦ b = f a) first second ↔ second = first.map f := by
  have himage := List.forall₂_map_left_iff (R := Eq) (f := f) (l := first) (u := second)
  simp only [eq_comm (a := f _)] at himage
  rw [← himage, List.forall₂_eq_eq_eq, eq_comm]

namespace Except

variable {ε α β : Type}

/-- A step fails if it does not succeed. -/
theorem exists_eq_error_iff {step : Except ε α} :
    (∃ error, step = .error error) ↔ ¬ ∃ result, step = .ok result := by
  cases step <;> simp

/-- A chain of two steps succeeds if both do. -/
theorem bind_eq_ok_iff {first : Except ε α} {second : α → Except ε β} {result : β} :
    first >>= second = .ok result ↔ ∃ a, first = .ok a ∧ second a = .ok result := by
  cases first <;> simp [bind, Except.bind]

/-- A chain of two steps fails if one of them does. -/
theorem bind_eq_error_iff {first : Except ε α} {second : α → Except ε β} {error : ε} :
    first >>= second = .error error ↔
      first = .error error ∨ ∃ a, first = .ok a ∧ second a = .error error := by
  cases first <;> simp [bind, Except.bind]

theorem map_eq_ok_iff {step : Except ε α} {f : α → β} {result : β} :
    step.map f = .ok result ↔ ∃ a, step = .ok a ∧ f a = result := by
  cases step <;> simp [Except.map]

theorem map_eq_error_iff {step : Except ε α} {f : α → β} {error : ε} :
    step.map f = .error error ↔ step = .error error := by
  cases step <;> simp [Except.map]

/-- One step for each member of a list succeeds if all of them do. -/
theorem mapM_eq_ok_iff_forall₂ {step : α → Except ε β} {members : List α} {results : List β} :
    members.mapM step = .ok results ↔
      List.Forall₂ (fun member result ↦ step member = .ok result) members results := by
  induction members generalizing results with
  | nil => simp [pure, Except.pure, eq_comm]
  | cons member members ih =>
    rw [List.mapM_cons, bind_eq_ok_iff, List.forall₂_cons_left_iff]
    refine exists_congr fun first ↦ ?_
    rw [bind_eq_ok_iff]
    constructor
    · rintro ⟨hfirst, others, hothers, hresults⟩
      exact ⟨others, hfirst, ih.1 hothers, (Except.ok.inj hresults).symm⟩
    · rintro ⟨others, hfirst, hothers, rfl⟩
      exact ⟨hfirst, others, ih.2 hothers, rfl⟩

/-- One step for each member of a list fails as the first one that fails. -/
theorem mapM_eq_error_iff {step : α → Except ε β} {members : List α} {error : ε} :
    members.mapM step = .error error ↔ ∃ before member after,
      members = before ++ member :: after ∧
        (∀ earlier ∈ before, ∃ result, step earlier = .ok result) ∧
          step member = .error error := by
  induction members with
  | nil => simp [pure, Except.pure]
  | cons first members ih =>
    rw [List.mapM_cons, bind_eq_error_iff]
    simp only [bind_eq_error_iff, ih]
    constructor
    · rintro (hfirst | ⟨result, hfirst, ⟨before, member, after, rfl, hbefore, hmember⟩ | ⟨_, _, h⟩⟩)
      · exact ⟨[], first, members, rfl, by simp, hfirst⟩
      · refine ⟨first :: before, member, after, rfl, ?_, hmember⟩
        exact List.forall_mem_cons.2 ⟨⟨result, hfirst⟩, hbefore⟩
      · cases h
    · rintro ⟨before, member, after, hmembers, hbefore, hmember⟩
      cases before with
      | nil =>
        obtain ⟨rfl, -⟩ := List.cons.inj hmembers
        exact .inl hmember
      | cons other before =>
        obtain ⟨rfl, hrest⟩ := List.cons.inj hmembers
        obtain ⟨⟨result, hfirst⟩, hothers⟩ := List.forall_mem_cons.1 hbefore
        exact .inr ⟨result, hfirst, .inl ⟨before, member, after, hrest, hothers, hmember⟩⟩

/-- A result for each member of a list can be had if there is one for every member. -/
theorem exists_mapM_eq_ok_iff {step : α → Except ε β} {members : List α} :
    (∃ results, members.mapM step = .ok results) ↔
      ∀ member ∈ members, ∃ result, step member = .ok result := by
  constructor
  · rintro ⟨results, hresults⟩ member hmember
    exact (mapM_eq_ok_iff_forall₂.1 hresults).exists_of_mem hmember
  · intro hmembers
    cases hresults : members.mapM step with
    | ok results => exact ⟨results, rfl⟩
    | error error =>
      obtain ⟨before, member, after, rfl, -, herror⟩ := mapM_eq_error_iff.1 hresults
      obtain ⟨result, hresult⟩ := hmembers member (by simp)
      cases hresult.symm.trans herror

/-! ### Steps with the same result -/

/-- Two steps give the same result, or they both fail and their errors are related. -/
inductive Matches (r : ε → ε → Prop) : Except ε α → Except ε α → Prop
  | ok (result : α) : Matches r (.ok result) (.ok result)
  | error {first second : ε} (herror : r first second) : Matches r (.error first) (.error second)

namespace Matches

variable {r : ε → ε → Prop} {first second : Except ε α}

theorem refl (hr : ∀ error, r error error) (step : Except ε α) : step.Matches r step := by
  cases step with
  | ok result => exact .ok result
  | error error => exact .error (hr error)

theorem map (h : first.Matches r second) (f : α → β) : (first.map f).Matches r (second.map f) := by
  cases h with
  | ok result => exact .ok (f result)
  | error herror => exact .error herror

end Matches

/-! ### The first of several failures -/

/-- A step reports the first of some failures, and succeeds if there is none. -/
def Reports (step : Except ε α) (failures : List ε) : Prop :=
  match step with
  | .ok _ => failures = []
  | .error failure => failures.head? = some failure

namespace Reports

variable {step : Except ε α} {failures : List ε}

theorem exists_eq_ok_iff (h : step.Reports failures) :
    (∃ result, step = .ok result) ↔ failures = [] := by
  cases step with
  | ok result => exact iff_of_true ⟨result, rfl⟩ h
  | error error => cases failures <;> simp_all [Reports]

theorem eq_error_iff (h : step.Reports failures) {error : ε} :
    step = .error error ↔ failures.head? = some error := by
  cases step with
  | ok result =>
    obtain rfl : failures = [] := h
    simp
  | error other =>
    have hhead : failures.head? = some other := h
    simp [hhead]

theorem map (h : step.Reports failures) (f : α → β) : (step.map f).Reports failures := by
  cases step <;> exact h

/-- The failures of a step come before those of the step that follows it. -/
theorem bind (h : step.Reports failures) {next : α → Except ε β} {others : List ε}
    (hnext : ∀ result, step = .ok result → (next result).Reports others) :
    (step >>= next).Reports (failures ++ others) := by
  cases step with
  | ok result =>
    obtain rfl : failures = [] := h
    exact hnext result rfl
  | error error =>
    change (failures ++ others).head? = some error
    rw [List.head?_append, show failures.head? = some error from h, Option.some_or]

/-- The failures of a pass over a list come in the order of its members. The failures of a member
may depend on what every step keeps. -/
theorem foldlM {pass : β → α → Except ε β} {failuresOf : α → List ε} (Kept : β → Prop)
    (hpass : ∀ state member, Kept state → (pass state member).Reports (failuresOf member))
    (hkept : ∀ state member next, Kept state → pass state member = .ok next → Kept next)
    {start : β} (hstart : Kept start) (members : List α) :
    (members.foldlM pass start).Reports (members.flatMap failuresOf) := by
  induction members generalizing start with
  | nil => rfl
  | cons member members ih =>
    rw [List.foldlM_cons, List.flatMap_cons]
    refine (hpass start member hstart).bind fun next hnext ↦ ?_
    exact ih (hkept start member next hstart hnext)

end Reports

end Except
