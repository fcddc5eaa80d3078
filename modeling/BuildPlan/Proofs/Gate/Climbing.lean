import BuildPlan.Proofs.Gate.Grammar

/-!
# Climbing without limits

`Climbs` says what is read when an expression is read by climbing: after an operand, operators that
bind at least as strongly as a minimum are folded in from left to right. It is a relation on lists
of lexemes that knows neither limits nor offsets.

Climbing with the minimum of a phrase reads exactly what the grammar derives for the phrase
(`Derives.climbs`, `Climbs.derives`), and reads it in one way only (`Climbs.unique`). So a list of
lexemes has at most one tree (`Derives.unique`).
-/

set_option autoImplicit false
set_option relaxedAutoImplicit false

namespace BuildPlan.Gate

/-- The lexemes do not go on with an operator that binds at least as strongly as a minimum. -/
def StopsBelow (minimum : Nat) (text : List Lexeme) : Prop :=
  ∀ op rest, text = .operator op :: rest → op.precedence < minimum

theorem StopsBelow.mono {minimum larger : Nat} {text : List Lexeme} (h : StopsBelow minimum text)
    (hle : minimum ≤ larger) : StopsBelow larger text :=
  fun op rest htext ↦ Nat.lt_of_lt_of_le (h op rest htext) hle

theorem stopsBelow_rightParen (minimum : Nat) (rest : List Lexeme) :
    StopsBelow minimum (.rightParen :: rest) := by
  intro op text h
  cases h

theorem Operator.precedence_lt (op : Operator) : op.precedence < negationPrecedence := by
  cases op <;> decide

/-- No operator binds as strongly as the negation. -/
theorem stopsBelow_negationPrecedence (text : List Lexeme) :
    StopsBelow negationPrecedence text :=
  fun op _ _ ↦ op.precedence_lt

/-- With a minimum for the operators, and with the tree and the nesting of a left operand if there
is one already, an expression is read from the front of some lexemes. The results are its tree, its
nesting and the lexemes after it. -/
inductive Climbs : Nat → Option (Expr × Nat) → List Lexeme → Expr → Nat → List Lexeme → Prop where
  | literal {minimum nesting : Nat} {value : Scalar} {text rest : List Lexeme} {tree : Expr}
      (next : Climbs minimum (some (.literal value, 0)) text tree nesting rest) :
      Climbs minimum none (.literal value :: text) tree nesting rest
  | identifier {minimum nesting : Nat} {name : String} {text rest : List Lexeme} {tree : Expr}
      (next : Climbs minimum (some (.identifier name, 0)) text tree nesting rest) :
      Climbs minimum none (.identifier name :: text) tree nesting rest
  | not {minimum inner nesting : Nat} {text after rest : List Lexeme} {operand tree : Expr}
      (read : Climbs negationPrecedence none text operand inner after)
      (next : Climbs minimum (some (.not operand, inner + 1)) after tree nesting rest) :
      Climbs minimum none (.not :: text) tree nesting rest
  | parentheses {minimum inner nesting : Nat} {text after rest : List Lexeme}
      {operand tree : Expr} (read : Climbs 0 none text operand inner (.rightParen :: after))
      (next : Climbs minimum (some (operand, inner + 1)) after tree nesting rest) :
      Climbs minimum none (.leftParen :: text) tree nesting rest
  | fold {minimum outer inner nesting : Nat} {op : Operator} {text after rest : List Lexeme}
      {left right tree : Expr} (hop : minimum ≤ op.precedence)
      (read : Climbs (op.precedence + 1) none text right inner after)
      (next : Climbs minimum (some (.binary op left right, max outer inner)) after tree nesting
        rest) :
      Climbs minimum (some (left, outer)) (.operator op :: text) tree nesting rest
  | stop {minimum nesting : Nat} {tree : Expr} {text : List Lexeme}
      (hstop : StopsBelow minimum text) :
      Climbs minimum (some (tree, nesting)) text tree nesting text

/-- Climbing reads in one way only. -/
theorem Climbs.unique {minimum : Nat} {start : Option (Expr × Nat)} {text : List Lexeme}
    {tree tree' : Expr} {nesting nesting' : Nat} {rest rest' : List Lexeme}
    (h : Climbs minimum start text tree nesting rest)
    (h' : Climbs minimum start text tree' nesting' rest') :
    tree = tree' ∧ nesting = nesting' ∧ rest = rest' := by
  induction h generalizing tree' nesting' rest' with
  | literal _ ih =>
    cases h' with
    | literal next => exact ih next
  | identifier _ ih =>
    cases h' with
    | identifier next => exact ih next
  | not _ _ ihread ihnext =>
    cases h' with
    | not read next =>
      obtain ⟨rfl, rfl, rfl⟩ := ihread read
      exact ihnext next
  | parentheses _ _ ihread ihnext =>
    cases h' with
    | parentheses read next =>
      obtain ⟨rfl, rfl, hrest⟩ := ihread read
      obtain rfl := List.tail_eq_of_cons_eq hrest
      exact ihnext next
  | fold hop _ _ ihread ihnext =>
    cases h' with
    | fold _ read next =>
      obtain ⟨rfl, rfl, rfl⟩ := ihread read
      exact ihnext next
    | stop hstop => exact absurd (hstop _ _ rfl) (Nat.not_lt.2 hop)
  | stop hstop =>
    cases h' with
    | fold hop _ _ => exact absurd (hstop _ _ rfl) (Nat.not_lt.2 hop)
    | stop _ => exact ⟨rfl, rfl, rfl⟩

/-! ### Phrases and minimums -/

namespace Phrase

/-- How strongly the operators of a phrase bind; more tightly bound phrases continue the scale. -/
def rank : Phrase → Nat
  | .disjunction => 1
  | .conjunction => 2
  | .equality => 3
  | .ordering => 4
  | .negation => 5
  | .primary => 6

theorem rank_pos (phrase : Phrase) : 1 ≤ phrase.rank := by
  cases phrase <;> decide

theorem rank_le (phrase : Phrase) : phrase.rank ≤ 6 := by
  cases phrase <;> decide

theorem rank_le_of_ne_primary {phrase : Phrase} (h : phrase ≠ .primary) : phrase.rank ≤ 5 := by
  cases phrase <;> simp_all [rank]

theorem rank_tighter {phrase : Phrase} (h : phrase ≠ .primary) :
    phrase.tighter.rank = phrase.rank + 1 := by
  cases phrase <;> simp_all [rank, tighter]

theorem rank_le_rank_tighter (phrase : Phrase) : phrase.rank ≤ phrase.tighter.rank := by
  cases phrase <;> decide

theorem eq_of_rank_eq {first second : Phrase} (h : first.rank = second.rank) :
    first = second := by
  cases first <;> cases second <;> simp_all [rank]

theorem rank_eq_of_mem_operators {phrase : Phrase} {op : Operator} (h : op ∈ phrase.operators) :
    phrase.rank = op.precedence := by
  cases phrase <;> cases op <;> simp_all [operators, rank, Operator.precedence]

theorem ne_primary_of_mem_operators {phrase : Phrase} {op : Operator}
    (h : op ∈ phrase.operators) : phrase ≠ .primary := by
  rintro rfl
  simp [operators] at h

theorem tighter_ne_primary_of_mem_operators {phrase : Phrase} {op : Operator}
    (h : op ∈ phrase.operators) : phrase.tighter ≠ .primary := by
  cases phrase <;> simp_all [operators, tighter]

end Phrase

/-- The phrase whose parts an operator joins. -/
def Operator.phrase : Operator → Phrase
  | .or => .disjunction
  | .and => .conjunction
  | .eq | .ne => .equality
  | .lt | .le | .gt | .ge => .ordering

theorem Operator.mem_operators_phrase (op : Operator) : op ∈ op.phrase.operators := by
  cases op <;> decide

/-- A phrase is also a phrase of every kind that binds less tightly. -/
theorem Derives.loosen {tight loose : Phrase} {text : List Lexeme} {tree : Expr} {nesting : Nat}
    (h : Derives tight text tree nesting) (hle : loose.rank ≤ tight.rank) :
    Derives loose text tree nesting := by
  rcases Nat.eq_or_lt_of_le hle with heq | hlt
  · obtain rfl := Phrase.eq_of_rank_eq heq
    exact h
  · have hloose : loose ≠ .primary := by
      rintro rfl
      exact absurd hlt (Nat.not_lt.2 tight.rank_le)
    have hstep := Phrase.rank_tighter hloose
    exact .single (h.loosen (by omega))
termination_by tight.rank - loose.rank

/-- Two primaries with `==` between them are a disjunction. -/
theorem Derives.equality {first second : List Lexeme} {left right : Expr} {outer inner : Nat}
    (hleft : Derives .primary first left outer) (hright : Derives .primary second right inner) :
    Derives .disjunction (first ++ .operator .eq :: second) (.binary .eq left right)
      (max outer inner) := by
  have hfirst : Derives .equality first left outer := hleft.loosen (by decide)
  have hsecond : Derives (Phrase.tighter .equality) second right inner :=
    hright.loosen (by decide)
  have hequality : Derives .equality (first ++ .operator .eq :: second) (.binary .eq left right)
      (max outer inner) := .join (by decide) hfirst hsecond
  exact hequality.loosen (by decide)

/-! ### The grammar is read by climbing -/

/-- What is read after a phrase as left operand is what is read from its first lexeme on. -/
theorem Derives.climbs_append {phrase : Phrase} {text : List Lexeme} {tree : Expr} {nesting : Nat}
    (h : Derives phrase text tree nesting) {minimum : Nat} (hminimum : minimum ≤ phrase.rank)
    {rest after : List Lexeme} (hrest : StopsBelow (phrase.rank + 1) rest) {result : Expr}
    {depth : Nat} (next : Climbs minimum (some (tree, nesting)) rest result depth after) :
    Climbs minimum none (text ++ rest) result depth after := by
  induction h generalizing minimum rest after result depth with
  | literal value => exact .literal next
  | identifier name => exact .identifier next
  | parentheses _ ih =>
    rw [List.append_assoc]
    exact .parentheses (ih (Nat.zero_le _) (stopsBelow_rightParen _ rest)
      (.stop (stopsBelow_rightParen _ rest))) next
  | not _ ih =>
    exact .not (ih (Nat.le_refl _) ((stopsBelow_negationPrecedence _).mono (Nat.le_succ _))
      (.stop (stopsBelow_negationPrecedence _))) next
  | @single phrase _ _ _ _ ih =>
    have hle := phrase.rank_le_rank_tighter
    exact ih (Nat.le_trans hminimum hle) (hrest.mono (Nat.succ_le_succ hle)) next
  | @join phrase op first second left right outer inner hop _ _ ihparts ihlast =>
    have hrank := Phrase.rank_eq_of_mem_operators hop
    have htighter := Phrase.rank_tighter (Phrase.ne_primary_of_mem_operators hop)
    have hread : Climbs (op.precedence + 1) none (second ++ rest) right inner rest :=
      ihlast (by omega) (hrest.mono (by omega)) (.stop (hrank ▸ hrest))
    rw [List.append_assoc]
    refine ihparts hminimum ?_ (.fold (hrank ▸ hminimum) hread next)
    intro other tail htail
    obtain ⟨rfl, -⟩ : op = other ∧ second ++ rest = tail := by simpa using htail
    omega

/-- The lexemes of a phrase are read by climbing. -/
theorem Derives.climbs {phrase : Phrase} {text : List Lexeme} {tree : Expr} {nesting minimum : Nat}
    (h : Derives phrase text tree nesting) (hminimum : minimum ≤ phrase.rank) :
    Climbs minimum none text tree nesting [] := by
  have hnil (bound : Nat) : StopsBelow bound [] := fun _ _ h ↦ by cases h
  simpa using h.climbs_append hminimum (hnil _) (.stop (hnil _))

/-- A list of lexemes has at most one tree as a phrase. -/
theorem Derives.unique {phrase : Phrase} {text : List Lexeme} {tree tree' : Expr}
    {nesting nesting' : Nat} (h : Derives phrase text tree nesting)
    (h' : Derives phrase text tree' nesting') : tree = tree' ∧ nesting = nesting' := by
  obtain ⟨htree, hnesting, -⟩ := (h.climbs (Nat.le_refl _)).unique (h'.climbs (Nat.le_refl _))
  exact ⟨htree, hnesting⟩

/-! ### What is read by climbing is in the grammar -/

theorem Climbs.stopsBelow {minimum : Nat} {start : Option (Expr × Nat)} {text : List Lexeme}
    {tree : Expr} {nesting : Nat} {rest : List Lexeme}
    (h : Climbs minimum start text tree nesting rest) : StopsBelow minimum rest := by
  induction h with
  | literal _ ih => exact ih
  | identifier _ ih => exact ih
  | not _ _ _ ih => exact ih
  | parentheses _ _ _ ih => exact ih
  | fold _ _ _ _ ih => exact ih
  | stop hstop => exact hstop

/-- The lexemes before some text are the left operand with which a phrase was begun; if there is
none, nothing is before the text. -/
def Phrase.Begun (phrase : Phrase) (before text : List Lexeme) : Option (Expr × Nat) → Prop
  | none => before = []
  | some (left, nesting) => ∃ current : Phrase, phrase.rank ≤ current.rank ∧
      Derives current before left nesting ∧ StopsBelow (current.rank + 1) text

/-- Reading goes on from a begun phrase to the end of the phrase. -/
theorem Climbs.derives_append {minimum : Nat} {start : Option (Expr × Nat)} {text : List Lexeme}
    {tree : Expr} {nesting : Nat} {rest : List Lexeme}
    (h : Climbs minimum start text tree nesting rest) {phrase : Phrase} {before : List Lexeme}
    (hminimum : phrase.rank ≤ max 1 minimum) (hprimary : phrase ≠ .primary)
    (hbegun : phrase.Begun before text start) :
    ∃ read, text = read ++ rest ∧ Derives phrase (before ++ read) tree nesting := by
  have hstops (bound : Nat) (hbound : negationPrecedence ≤ bound) (text : List Lexeme) :
      StopsBelow bound text := (stopsBelow_negationPrecedence text).mono hbound
  induction h generalizing phrase before with
  | @literal _ _ value text _ _ _ ih =>
    obtain rfl := hbegun
    have hbegun : phrase.Begun [.literal value] text (some (.literal value, 0)) :=
      ⟨.primary, phrase.rank_le, .literal value, hstops _ (by decide) _⟩
    obtain ⟨read, rfl, hread⟩ := ih hminimum hprimary hbegun
    exact ⟨.literal value :: read, rfl, hread⟩
  | @identifier _ _ name text _ _ _ ih =>
    obtain rfl := hbegun
    have hbegun : phrase.Begun [.identifier name] text (some (.identifier name, 0)) :=
      ⟨.primary, phrase.rank_le, .identifier name, hstops _ (by decide) _⟩
    obtain ⟨read, rfl, hread⟩ := ih hminimum hprimary hbegun
    exact ⟨.identifier name :: read, rfl, hread⟩
  | @not _ _ _ text _ _ _ _ _ _ ihread ihnext =>
    obtain rfl := hbegun
    have hbegun : Phrase.Begun .negation [] text none := rfl
    obtain ⟨operand, rfl, hoperand⟩ := ihread (by decide) (by decide) hbegun
    obtain ⟨read, rfl, hread⟩ := ihnext hminimum hprimary
      ⟨.negation, Phrase.rank_le_of_ne_primary hprimary, .not hoperand, hstops _ (by decide) _⟩
    exact ⟨.not :: operand ++ read, by simp, hread⟩
  | @parentheses _ _ _ text _ _ _ _ _ _ ihread ihnext =>
    obtain rfl := hbegun
    have hbegun : Phrase.Begun .disjunction [] text none := rfl
    obtain ⟨operand, rfl, hoperand⟩ := ihread (by decide) (by decide) hbegun
    obtain ⟨read, rfl, hread⟩ := ihnext hminimum hprimary
      ⟨.primary, phrase.rank_le, .parentheses hoperand, hstops _ (by decide) _⟩
    exact ⟨.leftParen :: operand ++ .rightParen :: read, by simp, by simpa using hread⟩
  | @fold minimum _ _ _ op text _ _ _ _ _ hop hclimbs _ ihread ihnext =>
    obtain ⟨current, hcurrent, hleft, hstop⟩ := hbegun
    have hmem := op.mem_operators_phrase
    have hrank := Phrase.rank_eq_of_mem_operators hmem
    have hle : op.precedence < current.rank + 1 := hstop _ _ rfl
    have hbegun : op.phrase.tighter.Begun [] text none := rfl
    have htighter : op.phrase.tighter.rank ≤ max 1 (op.precedence + 1) := by
      rw [Phrase.rank_tighter (Phrase.ne_primary_of_mem_operators hmem)]
      omega
    obtain ⟨operand, rfl, hoperand⟩ := ihread htighter
      (Phrase.tighter_ne_primary_of_mem_operators hmem) hbegun
    have hjoined := Derives.join hmem (hleft.loosen (by omega)) hoperand
    have hpos := op.phrase.rank_pos
    obtain ⟨read, rfl, hread⟩ := ihnext hminimum hprimary
      ⟨op.phrase, by omega, hjoined, hrank ▸ hclimbs.stopsBelow⟩
    exact ⟨.operator op :: operand ++ read, by simp, by simpa using hread⟩
  | stop _ =>
    obtain ⟨current, hcurrent, hleft, -⟩ := hbegun
    exact ⟨[], rfl, by simpa using hleft.loosen hcurrent⟩

/-- What is read from the front of some lexemes without a minimum is a disjunction. -/
theorem Climbs.derives {text rest : List Lexeme} {tree : Expr} {nesting : Nat}
    (h : Climbs 0 none text tree nesting rest) :
    ∃ read, text = read ++ rest ∧ Derives .disjunction read tree nesting :=
  h.derives_append (by decide) (by decide) rfl

/-- All of some lexemes is read without a minimum exactly if they are a disjunction. -/
theorem climbs_nil_iff_derives {text : List Lexeme} {tree : Expr} {nesting : Nat} :
    Climbs 0 none text tree nesting [] ↔ Derives .disjunction text tree nesting := by
  constructor
  · intro h
    obtain ⟨read, rfl, hread⟩ := h.derives
    simpa using hread
  · exact fun h ↦ h.climbs (Nat.zero_le _)

end BuildPlan.Gate
