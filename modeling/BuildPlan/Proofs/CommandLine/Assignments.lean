import BuildPlan.Proofs.CommandLine.Validation
import BuildPlan.Proofs.Store.Assignment

/-!
# Assignments on the command line

The assignments of a command line are made one after the other. Their order counts only for those
whose paths are not apart: lists with the same assignments, in which any two that are not apart
come in the same order (`SameOrder`), open the same session
(`Session.start_eq_of_sameOrder`). Neighbours that are apart may be exchanged
(`SameOrder.exchange`), and where all are apart from one another any order will do
(`SameOrder.of_perm`).
-/

set_option autoImplicit false
set_option relaxedAutoImplicit false

namespace BuildPlan.CommandLine

open Store (Apart Begins)

/-! ### The order of assignments -/

/-- Two lists hold the same assignments, and any two whose paths are not apart come in the same
order in both. -/
def SameOrder (first second : List (String × String)) : Prop :=
  ∀ entry other : String × String, ¬ Apart entry.1 other.1 →
    first.filter (fun given ↦ given = entry ∨ given = other) =
      second.filter (fun given ↦ given = entry ∨ given = other)

theorem not_apart_self (path : String) : ¬ Apart path path :=
  fun h ↦ h.1 (Store.begins_self path)

namespace SameOrder

variable {first second front back : List (String × String)} {entry other : String × String}

theorem symm (h : SameOrder first second) : SameOrder second first :=
  fun one two hrelated ↦ (h one two hrelated).symm

/-- Neighbours that are apart may be exchanged. -/
theorem exchange (h : Apart entry.1 other.1) (before after : List (String × String)) :
    SameOrder (before ++ entry :: other :: after) (before ++ other :: entry :: after) := by
  intro one two hrelated
  simp only [List.filter_append, List.filter_cons, decide_eq_true_eq]
  by_cases hentry : entry = one ∨ entry = two
  · by_cases hother : other = one ∨ other = two
    · -- both are among two that are not apart
      rcases hentry with rfl | rfl <;> rcases hother with rfl | rfl
      · exact absurd h (not_apart_self _)
      · exact absurd h hrelated
      · exact absurd h.symm hrelated
      · exact absurd h (not_apart_self _)
    · simp only [if_neg hother]
  · simp only [if_neg hentry]

/-- Assignments that are all apart from one another may come in any order. -/
theorem of_perm (hperm : first.Perm second)
    (hapart : first.Pairwise fun entry other ↦ Apart entry.1 other.1) :
    SameOrder first second := by
  induction hperm with
  | nil => exact fun _ _ _ ↦ rfl
  | cons entry _ ih =>
    intro one two hrelated
    rw [List.filter_cons, List.filter_cons, ih (List.pairwise_cons.1 hapart).2 one two hrelated]
  | swap entry other rest =>
    exact exchange ((List.pairwise_cons.1 hapart).1 entry List.mem_cons_self) [] rest
  | trans hfirst _ ih ih' =>
    intro one two hrelated
    have hmiddle := hfirst.pairwise hapart fun h ↦ h.symm
    rw [ih hapart one two hrelated, ih' hmiddle one two hrelated]

theorem mem_of_cons (h : SameOrder (entry :: first) second) : entry ∈ second := by
  have hmem : entry ∈ (entry :: first).filter (fun given ↦ given = entry ∨ given = entry) := by
    simp
  rw [h entry entry (not_apart_self _)] at hmem
  exact (List.mem_filter.1 hmem).1

/-- Of two assignments that are not apart, the one that comes first in one list comes first in the
other one. -/
theorem apart_of_mem (h : SameOrder (entry :: first) (front ++ entry :: back))
    (hnew : entry ∉ front) (hother : other ∈ front) : Apart entry.1 other.1 := by
  by_contra hrelated
  have hfilter := h entry other hrelated
  rw [List.filter_cons_of_pos (by simp), List.filter_append] at hfilter
  cases hfront : front.filter (fun given ↦ given = entry ∨ given = other) with
  | nil => simpa using List.filter_eq_nil_iff.1 hfront other hother
  | cons head tail =>
    rw [hfront] at hfilter
    obtain ⟨rfl, -⟩ := List.cons.inj hfilter
    exact hnew (List.mem_filter.1 (hfront ▸ List.mem_cons_self)).1

/-- What is left of two lists without an assignment that comes first in one of them. -/
theorem of_cons (h : SameOrder (entry :: first) (front ++ entry :: back)) (hnew : entry ∉ front) :
    SameOrder first (front ++ back) := by
  intro one two hrelated
  have hfilter := h one two hrelated
  rw [List.filter_append, List.filter_cons, List.filter_cons] at hfilter
  rw [List.filter_append]
  by_cases hentry : entry = one ∨ entry = two
  · have hfront : front.filter (fun given ↦ given = one ∨ given = two) = [] := by
      refine List.filter_eq_nil_iff.2 fun other hother hmatch ↦ ?_
      have hapart := h.apart_of_mem hnew hother
      rcases hentry with rfl | rfl <;> rcases of_decide_eq_true hmatch with rfl | rfl
      · exact hnew hother
      · exact hrelated hapart
      · exact hrelated hapart.symm
      · exact hnew hother
    rw [if_pos (decide_eq_true hentry), if_pos (decide_eq_true hentry), hfront] at hfilter
    rw [hfront]
    exact (List.cons.inj hfilter).2
  · rwa [if_neg (by simpa using hentry), if_neg (by simpa using hentry)] at hfilter

end SameOrder

namespace Session

theorem layerAssignments_cons (store : Store) (entry : String × String)
    (rest : List (String × String)) : layerAssignments store (entry :: rest) =
      layerAssignments (store.assign entry.1 (.leaf entry.2)) rest :=
  rfl

/-- An assignment may be made before others that are apart from it. -/
theorem layerAssignments_append_cons {entry : String × String} {front : List (String × String)}
    (hapart : ∀ other ∈ front, Apart entry.1 other.1) (store : Store)
    (back : List (String × String)) : layerAssignments store (front ++ entry :: back) =
      layerAssignments store (entry :: (front ++ back)) := by
  induction front generalizing store with
  | nil => rfl
  | cons other front ih =>
    obtain ⟨hother, hrest⟩ := List.forall_mem_cons.1 hapart
    rw [List.cons_append, layerAssignments_cons, ih hrest, layerAssignments_cons,
      Store.assign_comm hother.symm, List.cons_append, layerAssignments_cons,
      layerAssignments_cons]

/-- The order of assignments that are apart does not count. -/
theorem layerAssignments_eq_of_sameOrder {first second : List (String × String)}
    (h : SameOrder first second) (store : Store) :
    layerAssignments store first = layerAssignments store second := by
  induction first generalizing store second with
  | nil =>
    cases second with
    | nil => rfl
    | cons entry rest =>
      have hmem : entry ∈ [] := h.symm.mem_of_cons
      cases hmem
  | cons entry first ih =>
    -- the entry is brought to the front, past what is apart from it
    obtain ⟨front, back, rfl, hnew⟩ := List.eq_append_cons_of_mem h.mem_of_cons
    rw [layerAssignments_append_cons fun other hother ↦ h.apart_of_mem hnew hother,
      layerAssignments_cons, layerAssignments_cons, ih (h.of_cons hnew)]

theorem start_eq_of_sameOrder {first second : List (String × String)}
    (h : SameOrder first second) (options : Options) :
    start { options with assignments := first } = start { options with assignments := second } := by
  unfold start
  simp only [layerAssignments_eq_of_sameOrder h]

end Session

/-- Assignments commute where they are independent, and otherwise the last one counts. Two
assignments at paths that are apart may be made in either order. An assignment at a path that begins
the path of an earlier one, or is the same, makes the store that it makes alone. So a list of
assignments may be given in every order that keeps the order of those whose paths are not apart: the
session is the same. -/
theorem assignments_commute_or_override (store : Store) (path other : String) (value held : Value)
    (first second : List (String × String)) (options : Options) :
    (Apart path other → (store.assign path value).assign other held =
      (store.assign other held).assign path value) ∧
    (Begins path other → (store.assign other held).assign path value =
      store.assign path value) ∧
    (SameOrder first second → Session.start { options with assignments := first } =
      Session.start { options with assignments := second }) :=
  ⟨fun hapart ↦ Store.assign_comm hapart store value held,
    fun hbegins ↦ Store.assign_assign_of_begins hbegins store value held,
    fun horder ↦ Session.start_eq_of_sameOrder horder options⟩

/-- Two assignments below a text exchange, and an assignment in place of the text leaves nothing of
one below it. -/
theorem version_and_name_exchanged :
    Apart "app.version" "app.name" ∧
    (((Store.empty.insert "app" (.leaf "flat")).assign "app.version" (.leaf "1")).assign "app.name"
        (.leaf "brix") =
      ((Store.empty.insert "app" (.leaf "flat")).assign "app.name" (.leaf "brix")).assign
        "app.version" (.leaf "1")) ∧
    Begins "app" "app.name" ∧
    ((Store.empty.assign "app.name" (.leaf "brix")).assign "app" (.leaf "flat") =
      Store.empty.assign "app" (.leaf "flat")) ∧
    SameOrder [("app", "flat"), ("app.version", "1"), ("app.name", "brix")]
      [("app", "flat"), ("app.name", "brix"), ("app.version", "1")] ∧
    (Session.start { strictOptions with
        assignments := [("app", "flat"), ("app.version", "1"), ("app.name", "brix")] } =
      Session.start { strictOptions with
        assignments := [("app", "flat"), ("app.name", "brix"), ("app.version", "1")] }) := by
  have hapart : Apart "app.version" "app.name" := by decide
  have hbegins : Begins "app" "app.name" := by decide
  have horder : SameOrder [("app", "flat"), ("app.version", "1"), ("app.name", "brix")]
      [("app", "flat"), ("app.name", "brix"), ("app.version", "1")] := by
    have hneighbours : Apart ("app.version", "1").1 ("app.name", "brix").1 := hapart
    exact .exchange hneighbours [("app", "flat")] []
  obtain ⟨hcommute, -, hsession⟩ := assignments_commute_or_override
    (Store.empty.insert "app" (.leaf "flat")) "app.version" "app.name" (.leaf "1") (.leaf "brix")
    [("app", "flat"), ("app.version", "1"), ("app.name", "brix")]
    [("app", "flat"), ("app.name", "brix"), ("app.version", "1")] strictOptions
  obtain ⟨-, hoverride, -⟩ := assignments_commute_or_override Store.empty "app" "app.name"
    (.leaf "flat") (.leaf "brix") [] [] strictOptions
  exact ⟨hapart, hcommute hapart, hbegins, hoverride hbegins, horder, hsession horder⟩

end BuildPlan.CommandLine
