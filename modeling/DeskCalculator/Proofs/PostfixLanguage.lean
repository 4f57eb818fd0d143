import DeskCalculator.Expr

/-!
# The postfix language

Which rows does the stack machine give a value to, and what does it do with the
others? The answer is in terms of trees. Read from the left, a row lists some
trees in postorder, one after another, until either it ends or an operator comes
that finds fewer than two trees before it. This is its `Reading`, and every row
has exactly one.

The machine evaluates the trees of the reading in turn. If they are one tree and
nothing is left over, the value of that tree is the answer. Otherwise there is
none: the first failure on the way is the answer, and if nothing fails on the
way, the row itself is at fault.

The unique reading is found by `assemble`, which runs the machine on trees
instead of values. It also shows that no two trees have the same postorder.
-/

namespace DeskCalculator

open Evaluation

namespace Expr

/-- The tokens of some trees in postorder, one tree after another. -/
def listing (trees : List Expr) : List Token := trees.flatMap postorder

/-- Nothing more can be read after these trees: the row ends, or an operator lacks an operand. -/
def Blocked (trees : List Expr) : List Token → Prop
  | [] => True
  | .operand _ :: _ => False
  | .operator _ :: _ => trees.length < 2

/-- How far a row can be read as trees in postorder. -/
structure Reading (row : List Token) (trees : List Expr) (rest : List Token) : Prop where
  row_eq : row = listing trees ++ rest
  blocked : Blocked trees rest

/--
Puts the tokens of a row together to trees, the latest tree first, as long as
every operator finds two of them. The rest of the row is handed back.
-/
def assemble (trees : List Expr) : List Token → List Expr × List Token
  | [] => (trees, [])
  | .operand o :: rest => assemble (.leaf o :: trees) rest
  | .operator op :: rest =>
    match trees with
    | right :: left :: below => assemble (.node op left right :: below) rest
    | _ => (trees, .operator op :: rest)

/-! ## Every row has one reading -/

theorem assemble_postorder (e : Expr) (trees : List Expr) (rest : List Token) :
    assemble trees (e.postorder ++ rest) = assemble (e :: trees) rest := by
  induction e generalizing trees rest with
  | leaf o => rfl
  | node op left right ihl ihr =>
      rw [postorder, List.append_assoc, List.append_assoc, ihl, ihr]
      rfl

theorem assemble_listing (listed trees : List Expr) (rest : List Token) :
    assemble trees (listing listed ++ rest) = assemble (listed.reverse ++ trees) rest := by
  induction listed generalizing trees with
  | nil => rfl
  | cons e listed ih =>
      rw [listing, List.flatMap_cons, List.append_assoc, assemble_postorder, ← listing, ih,
        List.reverse_cons, List.append_assoc]
      rfl

theorem assemble_of_blocked {trees : List Expr} {rest : List Token} (h : Blocked trees rest) :
    assemble trees rest = (trees, rest) := by
  cases rest with
  | nil => rfl
  | cons token rest =>
      cases token with
      | operand o => exact absurd h id
      | operator op =>
          match trees, h with
          | [], _ => rfl
          | [_], _ => rfl

/-- No token is lost or reordered, and the trees are put together as far as possible. -/
theorem reading_assemble (row : List Token) (trees : List Expr) :
    Reading (listing trees.reverse ++ row) (assemble trees row).1.reverse
      (assemble trees row).2 := by
  fun_induction assemble trees row with
  | case1 trees => exact ⟨rfl, trivial⟩
  | case2 trees o rest ih =>
      have hrow : listing trees.reverse ++ .operand o :: rest
          = listing (.leaf o :: trees).reverse ++ rest := by
        simp [listing, postorder]
      rw [hrow]
      exact ih
  | case3 op rest right left below ih =>
      -- the two trees and their operator are the listing of one tree
      have hrow : listing (right :: left :: below).reverse ++ .operator op :: rest
          = listing (.node op left right :: below).reverse ++ rest := by
        simp [listing, postorder]
      rw [hrow]
      exact ih
  | case4 trees op rest hshort =>
      refine ⟨rfl, ?_⟩
      show trees.reverse.length < 2
      match trees with
      | [] => simp
      | [_] => simp
      | right :: left :: below => exact absurd rfl (hshort right left below)

/-- **Every row has exactly one reading.** -/
theorem reading_iff {row : List Token} {trees : List Expr} {rest : List Token} :
    Reading row trees rest ↔ trees = (assemble [] row).1.reverse ∧ rest = (assemble [] row).2 := by
  refine ⟨?_, ?_⟩
  · intro h
    obtain ⟨hrow, hblocked⟩ := h
    -- putting together latest tree first turns the trees round
    have hrev : Blocked (trees.reverse ++ []) rest := by
      cases rest with
      | nil => trivial
      | cons token rest =>
          cases token with
          | operand o => exact hblocked
          | operator op =>
              show (trees.reverse ++ []).length < 2
              rw [List.append_nil, List.length_reverse]
              exact hblocked
    rw [hrow, assemble_listing, assemble_of_blocked hrev]
    simp
  · intro h
    rw [h.1, h.2]
    exact reading_assemble row []

theorem reading_postorder (e : Expr) : Reading e.postorder [e] [] :=
  ⟨by simp [listing], trivial⟩

/-- **No two trees have the same postorder.** -/
theorem postorder_injective {e e' : Expr} (h : e.postorder = e'.postorder) : e = e' := by
  have hread := reading_postorder e
  rw [h] at hread
  obtain ⟨htrees, _⟩ := reading_iff.mp hread
  obtain ⟨htrees', _⟩ := reading_iff.mp (reading_postorder e')
  rw [← htrees'] at htrees
  exact List.head_eq_of_cons_eq htrees

/-! ## The machine evaluates the trees of the reading -/

/-- A tree in postorder puts its value on the stack, whatever the stack holds. -/
theorem run_postorder (resolve : Resolver) (e : Expr) (stack : List Binary64) :
    e.postorder.foldlM (step resolve) stack = (do
      let value ← e.evaluate resolve
      pure (value :: stack)) := by
  induction e generalizing stack with
  | leaf o => simp only [postorder, List.foldlM_cons, List.foldlM_nil, step, evaluate, bind_pure]
  | node op left right ihl ihr =>
      -- the left value lies below the right one when the operator is reached
      rw [postorder, List.foldlM_append, List.foldlM_append, ihl]
      simp only [bind_assoc, pure_bind, ihr, List.foldlM_cons, List.foldlM_nil, step, evaluate]

theorem run_listing (resolve : Resolver) (trees : List Expr) (stack : List Binary64) :
    (listing trees).foldlM (step resolve) stack = (do
      let values ← trees.mapM (evaluate resolve)
      pure (values.reverse ++ stack)) := by
  induction trees generalizing stack with
  | nil => simp [listing]
  | cons e trees ih =>
      rw [listing, List.flatMap_cons, List.foldlM_append, run_postorder, ← listing, List.mapM_cons]
      simp only [bind_assoc, pure_bind, ih, List.reverse_cons, List.append_assoc,
        List.cons_append, List.nil_append]

/-- Unless exactly one value is left, the machine fails at the end of the row. -/
theorem finish_of_length_ne_one {stack : List Binary64} (h : stack.length ≠ 1) :
    finish stack = throw .invalidExpression := by
  match stack with
  | [] => rfl
  | [_] => exact absurd rfl h
  | _ :: _ :: _ => rfl

theorem ofPostfix_postorder (resolve : Resolver) (e : Expr) :
    ofPostfix resolve e.postorder = e.evaluate resolve := by
  rw [ofPostfix, run_postorder]
  simp only [bind_assoc, pure_bind, finish, bind_pure]

/-- A row that is not just one tree fails once its trees are evaluated. -/
theorem ofPostfix_of_reading {row rest : List Token} {trees : List Expr}
    (h : Reading row trees rest) (hne : ¬(trees.length = 1 ∧ rest = [])) (resolve : Resolver) :
    ofPostfix resolve row = (do
      let _ ← trees.mapM (evaluate resolve)
      throw .invalidExpression) := by
  obtain ⟨hrow, hblocked⟩ := h
  rw [ofPostfix, hrow, List.foldlM_append, run_listing]
  cases rest with
  | nil =>
      -- the row has ended, with no tree or with more than one
      match trees with
      | [] => simp [finish]
      | [_] => exact absurd ⟨rfl, rfl⟩ hne
      | first :: second :: more =>
          have hlong (a b : Binary64) (values : List Binary64) :
              finish ((a :: b :: values).reverse ++ []) = throw .invalidExpression :=
            finish_of_length_ne_one (by simp)
          simp only [List.mapM_cons, bind_assoc, pure_bind, List.foldlM_nil, hlong]
  | cons token rest =>
      cases token with
      | operand o => exact absurd hblocked id
      | operator op =>
          -- the operator finds no tree or just one
          match trees, hblocked with
          | [], _ => simp [step]
          | [first], _ => simp [step]

/-! ## The answer of the machine -/

/-- A computation that ends in a failure has no value. -/
theorem outcome_throw_ne_ok {α β : Type} (before : Asking α) (error : EvalError) (value : β) :
    (do let _ ← before; throw error : Asking β).outcome.result ≠ .ok value := by
  show ((do let _ ← before; throw error : Asking β).run.run []).1 ≠ .ok value
  rw [Asking.run_bind]
  cases before.run.run [] with
  | mk result asked =>
      cases result with
      | ok before => exact nofun
      | error cause => exact nofun

theorem Reading.eq_postorder {row : List Token} {e : Expr} (h : Reading row [e] []) :
    row = e.postorder := by
  rw [h.row_eq]
  simp [listing]

/--
**The machine accepts exactly the postfix language.**

If a row is the postorder of a tree, there is no other such tree, and the machine
evaluates it: it gives the same value or failure, and asks the same names in the
same order.

If it is the postorder of no tree, the machine evaluates the trees of its one
reading in turn. The first failure among them is the answer, and without one the
row is invalid; in no case is there a value.
-/
theorem ofPostfix_accepts_postorder (resolve : Resolver) (row : List Token) :
    (∃ e : Expr, (∀ other : Expr, row = other.postorder ↔ other = e)
        ∧ ofPostfix resolve row = e.evaluate resolve)
      ∨ ((∀ e : Expr, row ≠ e.postorder)
        ∧ (∃ (trees : List Expr) (rest : List Token),
            (∀ trees' rest', Reading row trees' rest' ↔ trees' = trees ∧ rest' = rest)
              ∧ ofPostfix resolve row = (do
                  let _ ← trees.mapM (evaluate resolve)
                  throw .invalidExpression))
        ∧ ∀ value, (ofPostfix resolve row).outcome.result ≠ .ok value) := by
  by_cases hone : ∃ e : Expr, row = e.postorder
  · obtain ⟨e, rfl⟩ := hone
    refine Or.inl ⟨e, fun other => ⟨fun h => (postorder_injective h).symm, ?_⟩,
      ofPostfix_postorder resolve e⟩
    intro h
    rw [h]
  · -- what can be read of the row is unique, so the run has only one course
    have hread : Reading row (assemble [] row).1.reverse (assemble [] row).2 :=
      reading_iff.mpr ⟨rfl, rfl⟩
    have hne : ¬((assemble [] row).1.reverse.length = 1 ∧ (assemble [] row).2 = []) := by
      intro h
      obtain ⟨hlength, hrest⟩ := h
      obtain ⟨e, he⟩ := List.length_eq_one_iff.mp hlength
      rw [he, hrest] at hread
      exact hone ⟨e, hread.eq_postorder⟩
    have hrun := ofPostfix_of_reading hread hne resolve
    refine Or.inr ⟨fun e h => hone ⟨e, h⟩, ⟨_, _, fun _ _ => reading_iff, hrun⟩, ?_⟩
    rw [hrun]
    exact outcome_throw_ne_ok _ _

end Expr

end DeskCalculator
