import BuildPlan.Gate.Lexeme

/-!
# The grammar of gate expressions

Gate expressions have six kinds of phrases, each made of phrases that bind more tightly:

* a disjunction is made of conjunctions with `||` between them;
* a conjunction is made of equalities with `&&` between them;
* an equality is made of orderings with `==` or `!=` between them;
* an ordering is made of negations with `<`, `<=`, `>` or `>=` between them;
* a negation is a primary behind any number of `!`;
* a primary is a literal, an identifier, or a disjunction in parentheses.

`Derives` relates a list of lexemes to the tree that the grammar gives it, in which all operators
associate to the left, and to the nesting of the list: the largest number of negations and
parentheses that are open around one lexeme. The grammar sets no limit to the height of a tree or
to the nesting.
-/

set_option autoImplicit false
set_option relaxedAutoImplicit false

namespace BuildPlan.Gate

/-- The kinds of phrases, the ones that bind least tightly first. -/
inductive Phrase where
  | disjunction
  | conjunction
  | equality
  | ordering
  | negation
  | primary
  deriving DecidableEq

namespace Phrase

/-- The kind of phrase that binds next more tightly. -/
def tighter : Phrase → Phrase
  | .disjunction => .conjunction
  | .conjunction => .equality
  | .equality => .ordering
  | .ordering => .negation
  | .negation => .primary
  | .primary => .primary

/-- The operators that stand between the parts of a phrase. -/
def operators : Phrase → List Operator
  | .disjunction => [.or]
  | .conjunction => [.and]
  | .equality => [.eq, .ne]
  | .ordering => [.lt, .le, .gt, .ge]
  | .negation => []
  | .primary => []

end Phrase

/-- The lexemes form a phrase with a tree and a nesting. -/
inductive Derives : Phrase → List Lexeme → Expr → Nat → Prop where
  /-- A literal is a primary. -/
  | literal (value : Scalar) : Derives .primary [.literal value] (.literal value) 0
  /-- An identifier is a primary. -/
  | identifier (name : String) : Derives .primary [.identifier name] (.identifier name) 0
  /-- A disjunction in parentheses is a primary. The parentheses add nothing to the tree. -/
  | parentheses {text : List Lexeme} {tree : Expr} {nesting : Nat}
      (inner : Derives .disjunction text tree nesting) :
      Derives .primary (.leftParen :: text ++ [.rightParen]) tree (nesting + 1)
  /-- A negation behind `!` is a negation. -/
  | not {text : List Lexeme} {tree : Expr} {nesting : Nat}
      (operand : Derives .negation text tree nesting) :
      Derives .negation (.not :: text) (.not tree) (nesting + 1)
  /-- A phrase that binds more tightly is a phrase with one part. -/
  | single {phrase : Phrase} {text : List Lexeme} {tree : Expr} {nesting : Nat}
      (part : Derives phrase.tighter text tree nesting) : Derives phrase text tree nesting
  /-- A phrase with one more part behind an operator is a phrase of the same kind. -/
  | join {phrase : Phrase} {op : Operator} {first second : List Lexeme} {left right : Expr}
      {outer inner : Nat} (hop : op ∈ phrase.operators) (parts : Derives phrase first left outer)
      (last : Derives phrase.tighter second right inner) :
      Derives phrase (first ++ .operator op :: second) (.binary op left right) (max outer inner)

end BuildPlan.Gate
