import DeskCalculator.Proofs.PostfixLanguage

/-!
# Precedence groups a row in one way

A row without parentheses is the listing in order of many trees, and `Grouped`
is meant to choose one of them. It does: every row has exactly one grouped tree,
and rearranging the row gives that tree in postorder.

**There is one.** Reading a row from left to right, a grouped tree takes in the
next operator and operand on its right edge, below every operator that binds more
loosely than the new one (`extend`).

**Rearranging lists it.** Suppose only operators wait that bind more loosely than
the root of a grouped tree. Then reading the tree in order puts it out in
postorder, and what waited goes on waiting, as soon as the row ends or an
operator comes that binds no tighter than the root. This carries the induction
over the tree: the left side ends with the operator of the node, and while the
right side is read that operator waits too.

**There is no other.** Two grouped trees of one row are both listed by the same
rearranged row, and no two trees have the same postorder.
-/

namespace DeskCalculator

open Postfix

namespace Expr

/-! ## Rearranging a grouped tree -/

/-- Every waiting operator binds more loosely than the root of the tree. -/
def BindsTighter (e : Expr) (waiting : List Operator) : Prop :=
  ∀ root ∈ e.root?, ∀ op ∈ waiting, op.precedence < root.precedence

/-- Where the row goes on, it lets the root of the tree out at once. -/
def EndsBefore (e : Expr) (rest : List Token) : Prop := ∀ root ∈ e.root?, LetsOut root rest

/-- **A grouped tree read in order goes out in postorder.** -/
theorem arrange_inorder {e : Expr} (hgrouped : e.Grouped) {waiting : List Operator}
    (htighter : e.BindsTighter waiting) {rest : List Token} (hends : e.EndsBefore rest) :
    arrange waiting (e.inorder ++ rest) = e.postorder ++ arrange waiting rest := by
  induction e generalizing waiting rest with
  | leaf o => rfl
  | node op left right ihl ihr =>
      obtain ⟨hleft, hright, hgl, hgr⟩ := hgrouped
      have hop : ∀ w ∈ waiting, w.precedence < op.precedence := htighter op rfl
      -- the left side ends at `op`, which binds no tighter than its root
      have htl : left.BindsTighter waiting := fun root hroot w hw =>
        Nat.lt_of_lt_of_le (hop w hw) (hleft root hroot)
      have hel : left.EndsBefore (.operator op :: (right.inorder ++ rest)) := hleft
      -- while the right side is read, `op` waits with the others
      have htr : right.BindsTighter (op :: waiting) := by
        intro root hroot w hw
        rcases List.mem_cons.mp hw with h | h
        · rw [h]; exact hright root hroot
        · exact Nat.lt_trans (hop w h) (hright root hroot)
      have her : right.EndsBefore rest := fun root hroot =>
        (hends op rfl).mono (Nat.le_of_lt (hright root hroot))
      rw [inorder, List.append_assoc, List.cons_append, ihl hgl htl hel, arrange_of_tighter hop,
        ihr hgr htr her, arrange_of_letsOut (hends op rfl), postorder]
      simp only [List.append_assoc, List.cons_append, List.nil_append]

theorem ofRow_inorder {e : Expr} (h : e.Grouped) : ofRow e.inorder = e.postorder := by
  have htighter : e.BindsTighter [] := fun _ _ op hop => absurd hop (by simp)
  have hends : e.EndsBefore [] := fun _ _ => trivial
  have hrow := arrange_inorder h htighter hends
  rwa [List.append_nil, show arrange [] [] = [] from rfl, List.append_nil] at hrow

/-! ## A grouped tree for every row -/

/--
The tree with one more operator and operand on the right: they join the whole
tree if the operator binds no tighter than its root, and its right side otherwise.
-/
def extend (e : Expr) (op : Operator) (o : Operand) : Expr :=
  match e with
  | leaf _ => node op e (leaf o)
  | node root left right =>
    if op.precedence ≤ root.precedence then node op e (leaf o)
    else node root left (right.extend op o)

theorem inorder_extend (e : Expr) (op : Operator) (o : Operand) :
    (e.extend op o).inorder = e.inorder ++ Row.pairTokens (op, o) := by
  induction e with
  | leaf first => rfl
  | node root left right _ ihr =>
      unfold extend
      split
      · -- the new operator becomes the root
        rfl
      · rw [inorder, ihr, inorder, List.append_assoc, List.cons_append]

/-- The root of the longer tree is the new operator or the root there was. -/
theorem root?_extend (e : Expr) (op : Operator) (o : Operand) :
    (e.extend op o).root? = some op ∨ (e.extend op o).root? = e.root? := by
  cases e with
  | leaf first => exact Or.inl rfl
  | node root left right =>
      unfold extend
      split
      · exact Or.inl rfl
      · exact Or.inr rfl

theorem grouped_node_leaf {op : Operator} {left : Expr} (hgrouped : left.Grouped)
    (hleft : ∀ root ∈ left.root?, op.precedence ≤ root.precedence) (o : Operand) :
    (node op left (leaf o)).Grouped :=
  ⟨hleft, fun _ hroot => absurd hroot (by simp [root?]), hgrouped, trivial⟩

theorem grouped_extend {e : Expr} (h : e.Grouped) (op : Operator) (o : Operand) :
    (e.extend op o).Grouped := by
  induction e with
  | leaf first => exact grouped_node_leaf h (fun _ hroot => absurd hroot (by simp [root?])) o
  | node root left right _ ihr =>
      unfold extend
      split
      · rename_i hle
        refine grouped_node_leaf h ?_ o
        intro root' hroot'
        cases hroot'
        exact hle
      · -- the new operator binds tighter than the root, as the right side did before
        rename_i hlt
        obtain ⟨hleft, hright, hgl, hgr⟩ := h
        refine ⟨hleft, ?_, hgl, ihr hgr⟩
        intro root' hroot'
        rcases root?_extend right op o with hnew | hold
        · rw [hnew] at hroot'
          cases hroot'
          exact Nat.not_le.mp hlt
        · rw [hold] at hroot'
          exact hright root' hroot'

theorem inorder_foldl_extend (pairs : List (Operator × Operand)) (e : Expr) :
    (pairs.foldl (fun e pair => e.extend pair.1 pair.2) e).inorder
      = e.inorder ++ pairs.flatMap Row.pairTokens := by
  induction pairs generalizing e with
  | nil => simp
  | cons pair pairs ih =>
      rw [List.foldl_cons, ih, inorder_extend, List.flatMap_cons, List.append_assoc]

theorem grouped_foldl_extend (pairs : List (Operator × Operand)) {e : Expr} (h : e.Grouped) :
    (pairs.foldl (fun e pair => e.extend pair.1 pair.2) e).Grouped := by
  induction pairs generalizing e with
  | nil => exact h
  | cons pair pairs ih => exact ih (grouped_extend h pair.1 pair.2)

/-! ## Exactly one -/

theorem grouped_unique {e e' : Expr} (h : e.Grouped) (h' : e'.Grouped)
    (hrow : e.inorder = e'.inorder) : e = e' := by
  have hpost : e.postorder = e'.postorder := by
    rw [← ofRow_inorder h, ← ofRow_inorder h', hrow]
  exact postorder_injective hpost

end Expr

namespace Row

/-- The grouped tree of a row, grown from its first operand. -/
def toExpr (row : Row) : Expr :=
  row.rest.foldl (fun e pair => e.extend pair.1 pair.2) (.leaf row.first)

theorem inorder_toExpr (row : Row) : row.toExpr.inorder = row.tokens :=
  Expr.inorder_foldl_extend row.rest (.leaf row.first)

theorem grouped_toExpr (row : Row) : row.toExpr.Grouped :=
  Expr.grouped_foldl_extend row.rest trivial

/--
**A row has exactly one grouped tree, and rearranging the row lists that tree in
postorder.**
-/
theorem ofRow_tokens_eq_postorder (row : Row) :
    ∃ e : Expr, (∀ other : Expr, other.inorder = row.tokens ∧ other.Grouped ↔ other = e)
      ∧ ofRow row.tokens = e.postorder := by
  refine ⟨row.toExpr, fun other => ⟨?_, ?_⟩, ?_⟩
  · intro h
    exact Expr.grouped_unique h.2 row.grouped_toExpr (by rw [h.1, inorder_toExpr])
  · intro h
    rw [h]
    exact ⟨row.inorder_toExpr, row.grouped_toExpr⟩
  · rw [← inorder_toExpr]
    exact Expr.ofRow_inorder row.grouped_toExpr

end Row

end DeskCalculator
