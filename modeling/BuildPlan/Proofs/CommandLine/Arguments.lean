import BuildPlan.CommandLine.Invocation
import BuildPlan.Proofs.Outcome

/-!
# Assignments among the arguments

An assignment is written as one option, with an equals sign between its path and its text. The first
equals sign is taken for that one, so the option is read as the assignment exactly if the path is
not empty and holds no equals sign itself (`asPair_eq_ok_iff`). No command line makes an assignment
at any other path (`writable_of_read`).

The value of the option may stand in the same argument or in the next one (`WrittenAs`). The
arguments in front of a command and behind it are read by two functions that take such options in
the same way (`TakesAssignments`). So a command line with nothing but assignments on both sides of
the command asks for them (`read_assignments`), where those behind the command count.
-/

set_option autoImplicit false
set_option relaxedAutoImplicit false

namespace BuildPlan.CommandLine

/-! ### Assignments as options -/

/-- An assignment as the value of an option. -/
def pairText (entry : String × String) : String :=
  entry.1 ++ "=" ++ entry.2

theorem toList_pairText (entry : String × String) :
    (pairText entry).toList = entry.1.toList ++ '=' :: entry.2.toList := by
  simp [pairText]

/-- A text is read as an assignment exactly if it is what the assignment is written as, and the path
is not empty and holds no equals sign. -/
theorem asPair_eq_ok_iff {text : String} {entry : String × String} :
    asPair text = .ok entry ↔
      text = pairText entry ∧ entry.1 ≠ "" ∧ '=' ∉ entry.1.toList := by
  constructor
  · intro h
    rw [asPair] at h
    cases hcut : Text.cutAt? '=' text.toList with
    | none =>
      rw [hcut] at h
      cases h
    | some parts =>
      obtain ⟨key, value⟩ := parts
      rw [hcut] at h
      dsimp only at h
      split at h
      next => cases h
      next hkey =>
        obtain ⟨htext, hfree⟩ := Text.cutAt?_eq_some_iff.1 hcut
        obtain rfl := Except.ok.inj h
        refine ⟨String.toList_inj.1 ?_, by simpa using hkey, by simpa using hfree⟩
        rw [toList_pairText, htext, String.toList_ofList, String.toList_ofList]
  · rintro ⟨rfl, hne, hfree⟩
    rw [asPair, toList_pairText, Text.cutAt?_eq_some_iff.2 ⟨rfl, hfree⟩]
    simp [hne]

/-- Assignments can be written as options. -/
def Writable (entries : List (String × String)) : Prop :=
  ∀ entry ∈ entries, entry.1 ≠ "" ∧ '=' ∉ entry.1.toList

theorem Writable.mapM_asPair {entries : List (String × String)} (h : Writable entries) :
    (entries.map pairText).mapM asPair = .ok entries := by
  rw [Except.mapM_eq_ok_iff_forall₂, List.forall₂_map_left_iff, List.forall₂_same]
  exact fun entry hentry ↦ asPair_eq_ok_iff.2 ⟨rfl, h entry hentry⟩

/-! ### Options among the arguments -/

/-- The option that makes an assignment. -/
def setRule : OptionRule := ⟨"set", none, .pair, true⟩

/-- Arguments that write assignments as options, the value of each in the same argument or, if it
does not look like an option itself, in the next one. -/
inductive WrittenAs : List (String × String) → List String → Prop
  /-- No assignment. -/
  | nil : WrittenAs [] []
  /-- One more assignment, in one argument. -/
  | joined (entry : String × String) {entries : List (String × String)} {arguments : List String}
      (rest : WrittenAs entries arguments) :
      WrittenAs (entry :: entries) (("--set=" ++ pairText entry) :: arguments)
  /-- One more assignment, in two arguments. -/
  | separate (entry : String × String) {entries : List (String × String)} {arguments : List String}
      (hvalue : looksLikeOption (pairText entry) = false) (rest : WrittenAs entries arguments) :
      WrittenAs (entry :: entries) ("--set" :: pairText entry :: arguments)

/-- A reading of arguments that takes an option for an assignment, in one argument or in two, and
then goes on with the arguments behind it. -/
structure TakesAssignments {α : Type} (read : Side → List String → Except Refusal α) : Prop where
  joined : ∀ side value rest, read side (("--set=" ++ value) :: rest) =
    side.give setRule value >>= (read · rest)
  separate : ∀ side value rest, looksLikeOption value = false →
    read side ("--set" :: value :: rest) = side.give setRule value >>= (read · rest)

variable {rules : List OptionRule}

theorem find?_set (own : List OptionRule) :
    (generalRules ++ own).find? (·.name = .ofList ['s', 'e', 't']) = some setRule := by
  rw [List.find?_append]
  rfl

theorem toList_joined (value : String) : ("--set=" ++ value).toList =
    '-' :: '-' :: 's' :: 'e' :: 't' :: '=' :: value.toList := by
  simp

theorem looksLikeOption_joined (value : String) : looksLikeOption ("--set=" ++ value) = true := by
  rw [looksLikeOption, toList_joined]
  rfl

theorem joined_ne_endOfOptions (value : String) : "--set=" ++ value ≠ endOfOptions := by
  intro h
  have hlist := congrArg String.toList h
  rw [toList_joined] at hlist
  simp [endOfOptions] at hlist

section

variable (hrules : rules.find? (·.name = .ofList ['s', 'e', 't']) = some setRule)
include hrules

theorem readOption_joined (side : Side) (value : String) :
    readOption rules side ("--set=" ++ value) = (side.give setRule value).map .complete := by
  have hcut : Text.cutAt? '=' ('s' :: 'e' :: 't' :: '=' :: value.toList) =
      some (['s', 'e', 't'], value.toList) :=
    Text.cutAt?_eq_some_iff.2 ⟨rfl, by decide⟩
  rw [readOption, toList_joined]
  change readLong rules side ('s' :: 'e' :: 't' :: '=' :: value.toList) = _
  simp only [readLong, hcut, hrules, String.ofList_toList]
  rfl

theorem readOption_separate (side : Side) :
    readOption rules side "--set" = .ok (.waiting side setRule) := by
  change readLong rules side ['s', 'e', 't'] = _
  have hcut : Text.cutAt? '=' ['s', 'e', 't'] = none :=
    Text.cutAt?_eq_none_iff.2 (by decide)
  simp only [readLong, hcut, hrules]
  rfl

theorem takesAssignments_readFront : TakesAssignments (readFront rules) where
  joined side value rest := by
    rw [readFront, if_neg (joined_ne_endOfOptions value), if_pos (looksLikeOption_joined value),
      readOption_joined hrules]
    cases side.give setRule value <;> rfl
  separate side value rest hvalue := by
    rw [readFront, if_neg (by decide), if_pos (by decide), readOption_separate hrules]
    dsimp only
    rw [hvalue]
    cases side.give setRule value <;> rfl

theorem takesAssignments_readSide (limit : Nat) : TakesAssignments (readSide rules limit) where
  joined side value rest := by
    rw [readSide, if_neg (joined_ne_endOfOptions value), if_pos (looksLikeOption_joined value),
      readOption_joined hrules]
    cases side.give setRule value <;> rfl
  separate side value rest hvalue := by
    rw [readSide, if_neg (by decide), if_pos (by decide), readOption_separate hrules]
    dsimp only
    rw [hvalue]
    cases side.give setRule value <;> rfl

end

/-! ### Command lines that make assignments -/

/-- The side of a command line that makes assignments and says nothing else. -/
def assigningSide (entries : List (String × String)) : Side where
  options := entries.map fun entry ↦ (setRule.name, pairText entry)
  operands := []

/-- What a command line asks for that makes assignments and gives no other option. -/
def assigningOptions (entries : List (String × String)) : Options where
  config := none
  values := none
  strict := false
  repository := some defaultRepository
  arguments := []
  assignments := entries

variable {entries first second : List (String × String)} {arguments front back : List String}

theorem give_setRule {entry : String × String} (h : asPair (pairText entry) = .ok entry)
    (side : Side) : side.give setRule (pairText entry) =
      .ok { side with options := side.options ++ [(setRule.name, pairText entry)] } := by
  have haccepts : setRule.value.accepts (pairText entry) = true := by
    change (asPair (pairText entry)).isOk = true
    rw [h]
    rfl
  rw [Side.give, if_neg (by decide), if_neg (by simp [setRule]), if_pos haccepts]

/-- Written assignments are taken one after the other. -/
theorem TakesAssignments.read_append {α : Type} {read : Side → List String → Except Refusal α}
    (htakes : TakesAssignments read) (hwritten : WrittenAs entries arguments)
    (hwritable : Writable entries) (side : Side) (rest : List String) :
    read side (arguments ++ rest) =
      read { side with options := side.options ++ (assigningSide entries).options } rest := by
  induction hwritten generalizing side with
  | nil => simp [assigningSide]
  | joined entry _ ih =>
    obtain ⟨hentry, hrest⟩ := List.forall_mem_cons.1 hwritable
    have hgive := give_setRule (asPair_eq_ok_iff.2 ⟨rfl, hentry⟩) side
    rw [List.cons_append, htakes.joined, hgive]
    refine (ih hrest _).trans ?_
    simp [assigningSide]
  | separate entry hvalue _ ih =>
    obtain ⟨hentry, hrest⟩ := List.forall_mem_cons.1 hwritable
    have hgive := give_setRule (asPair_eq_ok_iff.2 ⟨rfl, hentry⟩) side
    rw [List.cons_append, List.cons_append, htakes.separate _ _ _ hvalue, hgive]
    refine (ih hrest _).trans ?_
    simp [assigningSide]

theorem value?_assigningSide {name : String} (hname : name ≠ setRule.name)
    (entries : List (String × String)) : (assigningSide entries).value? name = none := by
  rw [Side.value?, List.lookup_eq_none_iff]
  intro given hgiven
  obtain ⟨entry, -, rfl⟩ := List.mem_map.1 hgiven
  simpa using hname

theorem has_assigningSide {name : String} (hname : name ≠ setRule.name)
    (entries : List (String × String)) : (assigningSide entries).has name = false := by
  simp [Side.has, assigningSide, hname.symm]

theorem values_assigningSide_of_ne {name : String} (hname : name ≠ setRule.name)
    (entries : List (String × String)) : (assigningSide entries).values name = [] := by
  simp [Side.values, assigningSide, hname.symm]

theorem values_assigningSide (entries : List (String × String)) :
    (assigningSide entries).values setRule.name = entries.map pairText := by
  simp [Side.values, assigningSide]

theorem has_setRule_assigningSide (entries : List (String × String)) :
    (assigningSide entries).has setRule.name = !entries.isEmpty := by
  cases entries <;> simp [Side.has, assigningSide]

/-- None of the variables that stand in for options is set. -/
def OptionsUnset (environment : Environment) : Prop :=
  ∀ given ∈ optionVariables, environment given.2 = none

variable {environment : Environment}

theorem OptionsUnset.substitute? (h : OptionsUnset environment) {α : Type} (sides : Sides)
    (name : String) (read : String → Except Refusal α) :
    sides.substitute? environment name read = .ok none := by
  have hnone : (optionVariables.lookup name).bind environment = none := by
    cases hlookup : optionVariables.lookup name with
    | none => rfl
    | some known =>
      obtain ⟨before, after, hvariables, -⟩ := List.lookup_eq_some_iff.1 hlookup
      exact h (name, known) (hvariables ▸ List.mem_append_right before List.mem_cons_self)
  rw [Sides.substitute?, hnone]
  split <;> rfl

theorem path?_assigningSide (h : OptionsUnset environment) {name : String}
    (hname : name ≠ setRule.name) (first second : List (String × String)) :
    Sides.path? ⟨assigningSide first, assigningSide second⟩ environment name = .ok none := by
  rw [Sides.path?, value?_assigningSide hname, value?_assigningSide hname,
    h.substitute?]
  rfl

theorem pairs_assigningSide_of_ne {name : String} (hname : name ≠ setRule.name)
    (first second : List (String × String)) :
    Sides.pairs ⟨assigningSide first, assigningSide second⟩ name = .ok [] := by
  rw [Sides.pairs, values_assigningSide_of_ne hname, values_assigningSide_of_ne hname]
  cases (assigningSide second).has name <;> rfl

/-- The assignments behind the command count if there are any. -/
theorem pairs_assigningSide (hfirst : Writable first) (hsecond : Writable second) :
    Sides.pairs ⟨assigningSide first, assigningSide second⟩ setRule.name =
      .ok (if second.isEmpty then first else second) := by
  rw [Sides.pairs, values_assigningSide, values_assigningSide, hfirst.mapM_asPair,
    hsecond.mapM_asPair, has_setRule_assigningSide]
  cases second <;> rfl

theorem options_assigningSide (h : OptionsUnset environment) (hfirst : Writable first)
    (hsecond : Writable second) :
    Sides.options ⟨assigningSide first, assigningSide second⟩ environment =
      .ok (assigningOptions (if second.isEmpty then first else second)) := by
  have hset := pairs_assigningSide hfirst hsecond
  have hhas {name : String} (hname : name ≠ setRule.name) :
      Sides.has ⟨assigningSide first, assigningSide second⟩ name = false := by
    rw [Sides.has, has_assigningSide hname, has_assigningSide hname]
    rfl
  rw [Sides.options, path?_assigningSide h (by decide), path?_assigningSide h (by decide),
    path?_assigningSide h (by decide), h.substitute?, pairs_assigningSide_of_ne (by decide)]
  change (Sides.pairs _ setRule.name >>= _) = _
  rw [hset, hhas (by decide), hhas (by decide)]
  rfl

/-- The name of a command is taken for the command. -/
theorem name_of_mem_commandRules : ∀ rule ∈ commandRules,
    rule.name ≠ helpName ∧ rule.name ≠ endOfOptions ∧ looksLikeOption rule.name = false := by
  decide

/-- A command line with nothing but written assignments, in front of a command and behind it, asks
for the command with the assignments behind it, or those in front of it if there are no others. -/
theorem read_assignments (h : OptionsUnset environment) {name : String} {rule : CommandRule}
    {command : Command} (hrule : commandRule? name = some rule) (hfront : WrittenAs first front)
    (hback : WrittenAs second back) (hfirst : Writable first) (hsecond : Writable second)
    (hcommand : rule.read (assigningSide second) = .ok command) :
    Invocation.read environment (front ++ name :: back) =
      .ok { options := assigningOptions (if second.isEmpty then first else second), command } := by
  obtain ⟨hhelp, hend, hoption⟩ :=
    name_of_mem_commandRules rule (List.mem_of_find?_eq_some hrule)
  obtain rfl : rule.name = name := by simpa using List.find?_some hrule
  -- the command ends the arguments in front, and those behind it are read to the end
  have hreadFront : readFront generalRules .empty (front ++ rule.name :: back) =
      .ok { side := assigningSide first, rest := rule.name :: back } := by
    have htakes := takesAssignments_readFront (find?_set [])
    rw [List.append_nil] at htakes
    rw [htakes.read_append hfront hfirst, readFront, if_neg hend, hoption]
    rfl
  have hreadSide : readSide (generalRules ++ rule.rules) rule.limit .empty back =
      .ok (assigningSide second) := by
    have htakes := takesAssignments_readSide (find?_set rule.rules) rule.limit
    rw [← List.append_nil back, htakes.read_append hback hsecond, readSide]
    rfl
  rw [Invocation.read, hreadFront]
  change (if rule.name = helpName then _ else _) = _
  rw [if_neg hhelp, hrule]
  dsimp only
  rw [hreadSide]
  change (Sides.options ⟨assigningSide first, assigningSide second⟩ environment >>= _) = _
  rw [options_assigningSide h hfirst hsecond]
  change (rule.read (assigningSide second) >>= _) = _
  rw [hcommand]
  rfl

/-- The command that lists the values, with nothing but written assignments around it. -/
theorem read_values (h : OptionsUnset environment) (hfront : WrittenAs first front)
    (hback : WrittenAs second back) (hfirst : Writable first) (hsecond : Writable second) :
    Invocation.read environment (front ++ "values" :: back) =
      .ok { options := assigningOptions (if second.isEmpty then first else second)
            command := .values .text } := by
  have hrule : commandRule? "values" = some
      { name := "values"
        rules := [formatRule]
        limit := 0
        read := fun side ↦ do return .values (← side.format) } := rfl
  refine read_assignments h hrule hfront hback hfirst hsecond ?_
  dsimp only
  rw [Side.format, value?_assigningSide (by decide)]
  rfl

/-! ### What can be assigned -/

theorem writable_of_mapM_asPair {texts : List String} (h : texts.mapM asPair = .ok entries) :
    Writable entries := by
  intro entry hentry
  obtain ⟨text, htext⟩ := (Except.mapM_eq_ok_iff_forall₂.1 h).flip.exists_of_mem hentry
  exact (asPair_eq_ok_iff.1 htext).2

theorem writable_of_options {sides : Sides} {options : Options}
    (h : sides.options environment = .ok options) : Writable options.assignments := by
  rw [Sides.options] at h
  obtain ⟨config, -, h⟩ := Except.bind_eq_ok_iff.1 h
  obtain ⟨values, -, h⟩ := Except.bind_eq_ok_iff.1 h
  obtain ⟨repository, -, h⟩ := Except.bind_eq_ok_iff.1 h
  obtain ⟨strict, -, h⟩ := Except.bind_eq_ok_iff.1 h
  obtain ⟨arguments, -, h⟩ := Except.bind_eq_ok_iff.1 h
  -- the assignments are those of one of the two sides
  obtain ⟨assignments, hassignments, h⟩ := Except.bind_eq_ok_iff.1 h
  obtain rfl := Except.ok.inj h
  rw [Sides.pairs] at hassignments
  obtain ⟨front, hfront, hpairs⟩ := Except.bind_eq_ok_iff.1 hassignments
  obtain ⟨back, hback, hpairs⟩ := Except.bind_eq_ok_iff.1 hpairs
  obtain rfl := Except.ok.inj hpairs
  dsimp only
  split
  · exact writable_of_mapM_asPair hback
  · exact writable_of_mapM_asPair hfront

/-- No command line makes an assignment at a path that is empty or holds an equals sign. -/
theorem writable_of_read {invocation : Invocation}
    (h : Invocation.read environment arguments = .ok invocation) :
    Writable invocation.options.assignments := by
  rw [Invocation.read] at h
  obtain ⟨front, -, h⟩ := Except.bind_eq_ok_iff.1 h
  cases hrest : front.rest with
  | nil =>
    rw [hrest] at h
    cases h
  | cons name rest =>
    simp only [hrest] at h
    split at h
    next => cases h
    next =>
      cases hrule : commandRule? name with
      | none =>
        rw [hrule] at h
        cases h
      | some rule =>
        simp only [hrule] at h
        obtain ⟨back, -, h⟩ := Except.bind_eq_ok_iff.1 h
        obtain ⟨options, hoptions, h⟩ := Except.bind_eq_ok_iff.1 h
        obtain ⟨command, -, h⟩ := Except.bind_eq_ok_iff.1 h
        obtain rfl := Except.ok.inj h
        exact writable_of_options hoptions

end BuildPlan.CommandLine
