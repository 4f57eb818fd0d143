import DeskCalculator.Row

/-!
# Expressions as trees

An expression tree has operands at its leaves and operators at its nodes. It can
be listed in two ways: *in order*, the operator between its two sides, which is
how an expression is typed, and in *postorder*, the operator after both sides,
which is how it is evaluated on a stack.

Many trees have the same listing in order; without parentheses it is precedence
and associativity that choose one. A tree is `Grouped` when it is the tree they
choose: nothing on the left of a node binds more loosely than the node, and
everything on its right binds more tightly.
-/

namespace DeskCalculator

inductive Expr where
  | leaf (o : Operand)
  | node (op : Operator) (left right : Expr)
  deriving DecidableEq, Repr

namespace Expr

/-- The operator at the root, if the tree is more than a leaf. -/
def root? : Expr → Option Operator
  | leaf _ => none
  | node op _ _ => some op

/-- The tokens with each operator between its two sides. -/
def inorder : Expr → List Token
  | leaf o => [.operand o]
  | node op left right => left.inorder ++ .operator op :: right.inorder

/-- The tokens with each operator after its two sides. -/
def postorder : Expr → List Token
  | leaf o => [.operand o]
  | node op left right => left.postorder ++ right.postorder ++ [.operator op]

/-- The value of the tree: the left side first, then the right side, then the operator. -/
def evaluate (resolve : Resolver) : Expr → Asking Binary64
  | leaf o => resolve.valueOf o
  | node op left right => do
    let a ← left.evaluate resolve
    let b ← right.evaluate resolve
    op.apply a b

/-- The grouping that precedence and left associativity ask for, at every node. -/
def Grouped : Expr → Prop
  | leaf _ => True
  | node op left right =>
    (∀ root ∈ left.root?, op.precedence ≤ root.precedence) ∧
      (∀ root ∈ right.root?, op.precedence < root.precedence) ∧ left.Grouped ∧ right.Grouped

end Expr

end DeskCalculator
