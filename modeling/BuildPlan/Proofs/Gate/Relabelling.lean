import BuildPlan.Proofs.Gate.Answer

/-!
# Gates with other strings

The grammar of gate expressions does not look into strings. So if every string of a list of lexemes
is replaced by another one, the list is a phrase exactly if it was one before, and its tree is the
tree from before with the strings replaced (`Derives.relabel`, `Derives.of_relabel`). Since the
limits do not depend on strings either, two texts whose lexemes differ in their strings alone are
both gates or both none (`compile_relabel_iff`).
-/

set_option autoImplicit false
set_option relaxedAutoImplicit false

namespace BuildPlan.Gate

/-- The scalar with another string, if it is one. -/
def Scalar.relabel (f : String → String) : Scalar → Scalar
  | .string text => .string (f text)
  | value => value

/-- The lexeme with another string, if it is one. -/
def Lexeme.relabel (f : String → String) : Lexeme → Lexeme
  | .literal value => .literal (value.relabel f)
  | lexeme => lexeme

/-- The tree with other strings. -/
def Expr.relabel (f : String → String) : Expr → Expr
  | .literal value => .literal (value.relabel f)
  | .identifier name => .identifier name
  | .not operand => .not (operand.relabel f)
  | .binary op left right => .binary op (left.relabel f) (right.relabel f)

variable {f : String → String}

theorem Expr.height_relabel (tree : Expr) : (tree.relabel f).height = tree.height := by
  induction tree with
  | literal value => rfl
  | identifier name => rfl
  | not operand ih => rw [relabel, height, height, ih]
  | binary op left right ihleft ihright => rw [relabel, height, height, ihleft, ihright]

/-- A lexeme that is no string is kept. -/
theorem Lexeme.relabel_eq_self {lexeme : Lexeme}
    (h : ∀ text, lexeme ≠ .literal (.string text)) : lexeme.relabel f = lexeme := by
  cases lexeme with
  | literal value =>
    cases value with
    | string text => exact absurd rfl (h text)
    | _ => rfl
  | _ => rfl

/-- A lexeme that is no literal does not come from another one. -/
theorem Lexeme.eq_of_relabel {lexeme other : Lexeme} (h : lexeme.relabel f = other)
    (hother : ∀ value, other ≠ .literal value) : lexeme = other := by
  cases lexeme with
  | literal value => exact absurd h.symm (hother _)
  | _ => exact h

/-- A phrase with other strings is a phrase whose tree has these strings. -/
theorem Derives.relabel {phrase : Phrase} {text : List Lexeme} {tree : Expr} {nesting : Nat}
    (h : Derives phrase text tree nesting) (f : String → String) :
    Derives phrase (text.map (Lexeme.relabel f)) (tree.relabel f) nesting := by
  induction h with
  | literal value => exact .literal _
  | identifier name => exact .identifier name
  | parentheses _ ih =>
    rw [List.map_append, List.map_cons]
    exact .parentheses ih
  | not _ ih => exact .not ih
  | single _ ih => exact .single ih
  | join hop _ _ ihparts ihlast =>
    rw [List.map_append, List.map_cons]
    exact .join hop ihparts ihlast

/-- A list of lexemes is a phrase if it is one with other strings. -/
theorem Derives.of_relabel {phrase : Phrase} {text : List Lexeme} {tree : Expr} {nesting : Nat}
    (h : Derives phrase (text.map (Lexeme.relabel f)) tree nesting) :
    ∃ original, Derives phrase text original nesting ∧ tree = original.relabel f := by
  generalize htext : text.map (Lexeme.relabel f) = relabelled at h
  induction h generalizing text with
  | literal value =>
    obtain ⟨lexeme, rfl, hlexeme⟩ := List.map_eq_singleton_iff.1 htext
    cases lexeme with
    | literal original =>
      obtain rfl := Lexeme.literal.inj hlexeme
      exact ⟨.literal original, .literal original, rfl⟩
    | _ => cases hlexeme
  | identifier name =>
    obtain ⟨lexeme, rfl, hlexeme⟩ := List.map_eq_singleton_iff.1 htext
    obtain rfl := Lexeme.eq_of_relabel hlexeme fun _ ↦ nofun
    exact ⟨.identifier name, .identifier name, rfl⟩
  | parentheses _ ih =>
    obtain ⟨front, back, rfl, hfront, hback⟩ := List.map_eq_append_iff.1 htext
    obtain ⟨left, inner, rfl, hleft, hinner⟩ := List.map_eq_cons_iff.1 hfront
    obtain ⟨right, rfl, hright⟩ := List.map_eq_singleton_iff.1 hback
    obtain rfl := Lexeme.eq_of_relabel hleft fun _ ↦ nofun
    obtain rfl := Lexeme.eq_of_relabel hright fun _ ↦ nofun
    obtain ⟨original, hderives, htree⟩ := ih hinner
    exact ⟨original, .parentheses hderives, htree⟩
  | not _ ih =>
    obtain ⟨first, operand, rfl, hfirst, hoperand⟩ := List.map_eq_cons_iff.1 htext
    obtain rfl := Lexeme.eq_of_relabel hfirst fun _ ↦ nofun
    obtain ⟨original, hderives, rfl⟩ := ih hoperand
    exact ⟨.not original, .not hderives, rfl⟩
  | single _ ih =>
    obtain ⟨original, hderives, htree⟩ := ih htext
    exact ⟨original, .single hderives, htree⟩
  | join hop _ _ ihparts ihlast =>
    obtain ⟨first, back, rfl, hfirst, hback⟩ := List.map_eq_append_iff.1 htext
    obtain ⟨middle, second, rfl, hmiddle, hsecond⟩ := List.map_eq_cons_iff.1 hback
    obtain rfl := Lexeme.eq_of_relabel hmiddle fun _ ↦ nofun
    obtain ⟨left, hleft, rfl⟩ := ihparts hfirst
    obtain ⟨right, hright, rfl⟩ := ihlast hsecond
    exact ⟨.binary _ left right, .join hop hleft hright, rfl⟩

/-- Of two texts whose lexemes differ in their strings alone, one is read as a gate if the other one
is, and the trees differ in their strings alone. -/
theorem compile_relabel_iff {source relabelled : String} {found others : List Spanned}
    (hfound : lexemes source = .ok found) (hothers : lexemes relabelled = .ok others)
    (hrelabel : others.map Spanned.lexeme =
      (found.map Spanned.lexeme).map (Lexeme.relabel f)) {gate : Gate} :
    compile relabelled = .ok gate ↔ ∃ original, compile source = .ok original ∧
      gate = ⟨relabelled, original.expr.relabel f⟩ := by
  simp only [compile_eq_ok_iff]
  constructor
  · rintro ⟨lexemes', nesting, hlexemes, hderives, hheight, hnesting, hsource⟩
    obtain rfl := Except.ok.inj (hothers.symm.trans hlexemes)
    rw [hrelabel] at hderives
    obtain ⟨original, horiginal, htree⟩ := hderives.of_relabel
    rw [htree, Expr.height_relabel] at hheight
    refine ⟨⟨source, original⟩, ⟨found, nesting, hfound, horiginal, hheight, hnesting, rfl⟩, ?_⟩
    obtain ⟨text, tree⟩ := gate
    obtain rfl : text = relabelled := hsource
    exact congrArg (Gate.mk text) htree
  · rintro ⟨original, ⟨lexemes', nesting, hlexemes, hderives, hheight, hnesting, -⟩, rfl⟩
    obtain rfl := Except.ok.inj (hfound.symm.trans hlexemes)
    refine ⟨others, nesting, hothers, ?_, ?_, hnesting, rfl⟩
    · rw [hrelabel]
      exact hderives.relabel f
    · dsimp only
      rwa [Expr.height_relabel]

end BuildPlan.Gate
