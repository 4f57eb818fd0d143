import DeskCalculator.Proofs.PrintedRow

/-!
# The names that are asked

A step of an evaluation asks for the name of its token, if the token is a name,
and for nothing else. It asks before it can fail, so the names that a row asks
for are its own names up to the first failure: a prefix of them, in the order of
the row.

Names are operands, and rearranging keeps the operands of a row in their order. So
the names of the rearranged row are those among the typed texts, in the order in which
they were typed, and whatever an evaluation asks for is one of the texts it was given.
-/

namespace DeskCalculator

/-- The name that a token is. -/
def Token.name? : Token → Option String
  | .operand (.name text) => some text
  | _ => none

theorem Token.eq_name_of_name? {token : Token} {name : String} (h : token.name? = some name) :
    token = .operand (.name name) := by
  match token with
  | .operand (.name text) => exact congrArg (Token.operand ∘ Operand.name) (Option.some.inj h)

/-- The answer to a name: what the resolver says, and no number that is none. -/
def Resolver.answer (resolve : Resolver) (asked : List String) (name : String) :
    Except EvalError Binary64 :=
  match resolve asked name with
  | .ok value => if value.isNaN then .error (.invalidVariable name) else .ok value
  | .error error => .error error

/-- A name is remembered as asked whatever the answer is. -/
theorem Resolver.run_ask (resolve : Resolver) (name : String) (asked : List String) :
    (resolve.ask name).run.run asked = (resolve.answer asked name, asked ++ [name]) := by
  have hask : (resolve.ask name).run.run asked
      = (do
          let value ← (resolve asked name : Asking Binary64)
          if value.isNaN then throw (.invalidVariable name) else pure value :
            Asking Binary64).run.run (asked ++ [name]) := rfl
  rw [hask, Asking.run_bind, answer]
  -- the name is noted before the resolver answers, so it stays if the answer is refused
  cases resolve asked name with
  | error error => rfl
  | ok value =>
      show (if value.isNaN then throw (.invalidVariable name) else pure value :
        Asking Binary64).run.run (asked ++ [name]) = _
      dsimp only
      split <;> rfl

namespace Evaluation

variable (resolve : Resolver)

/-- **One step asks for the name of its token**, whether it fails or not. -/
theorem asked_step (stack : List Binary64) (token : Token) (asked : List String) :
    ((step resolve stack token).run.run asked).2 = asked ++ token.name?.toList := by
  cases token with
  | operand o =>
      rw [step, Asking.run_bind]
      cases o with
      | number value => exact (List.append_nil asked).symm
      | name text =>
          rw [Resolver.valueOf, resolve.run_ask]
          cases resolve.answer asked text <;> rfl
  | operator op =>
      -- an operator asks for nothing, whether it finds its operands or not
      match stack with
      | right :: left :: rest =>
          rw [step, Asking.run_bind]
          cases op.apply left right <;> exact (List.append_nil asked).symm
      | [_] => exact (List.append_nil asked).symm
      | [] => exact (List.append_nil asked).symm

/-- **A row asks for its names in order, up to the first failure.** -/
theorem asked_foldlM (row : List Token) (stack : List Binary64) (asked : List String) :
    ∃ names, names <+: row.filterMap Token.name?
      ∧ ((row.foldlM (step resolve) stack).run.run asked).2 = asked ++ names := by
  induction row generalizing stack asked with
  | nil => exact ⟨[], List.nil_prefix, (List.append_nil asked).symm⟩
  | cons token rest ih =>
      have hnames : (token :: rest).filterMap Token.name?
          = token.name?.toList ++ rest.filterMap Token.name? := by
        rw [List.filterMap_cons]
        cases token.name? <;> rfl
      have hstep := asked_step resolve stack token asked
      rw [List.foldlM_cons, Asking.run_bind, hnames]
      cases hrun : (step resolve stack token).run.run asked with
      | mk result after =>
          rw [hrun] at hstep
          cases result with
          | error error =>
              -- the row ends here, and this name is the last one asked
              exact ⟨token.name?.toList, List.prefix_append _ _, hstep⟩
          | ok next =>
              obtain ⟨names, hprefix, hasked⟩ := ih next after
              refine ⟨token.name?.toList ++ names, (List.prefix_append_right_inj _).mpr hprefix, ?_⟩
              dsimp only at hstep ⊢
              rw [hasked, hstep, List.append_assoc]

theorem asked_finish (stack : List Binary64) (asked : List String) :
    ((finish stack).run.run asked).2 = asked := by
  unfold finish
  split <;> rfl

/-- Nothing is asked at the end of a row. -/
theorem asked_foldlM_finish (row : List Token) (stack : List Binary64) (asked : List String) :
    ((row.foldlM (step resolve) stack >>= finish).run.run asked).2
      = ((row.foldlM (step resolve) stack).run.run asked).2 := by
  rw [Asking.run_bind]
  cases (row.foldlM (step resolve) stack).run.run asked with
  | mk result after =>
      cases result with
      | error error => rfl
      | ok last => exact asked_finish last after

theorem asked_ofPostfix (row : List Token) :
    (ofPostfix resolve row).outcome.asked <+: row.filterMap Token.name? := by
  obtain ⟨names, hnames, hasked⟩ := asked_foldlM resolve row [] []
  have hsame : (ofPostfix resolve row).outcome.asked = names :=
    (asked_foldlM_finish resolve row [] []).trans hasked
  rw [hsame]
  exact hnames

end Evaluation

/-! ## The names among the typed texts -/

namespace Token

theorem isOperand_of_name? {token : Token} {name : String} (h : token.name? = some name) :
    token.isOperand = true := by
  rw [eq_name_of_name? h]
  rfl

/-- The names of a row are among its operands. -/
theorem filterMap_name?_filter_isOperand (row : List Token) :
    (row.filter isOperand).filterMap name? = row.filterMap name? := by
  rw [List.filterMap_filter]
  refine List.filterMap_congr ?_
  intro token _
  cases hname : token.name? with
  | none => rw [ite_self]
  | some name => rw [if_pos (isOperand_of_name? hname)]

theorem bind_name?_classify? (text : String) :
    (classify? text).bind name? = if isName text then some text else none := by
  by_cases hname : isName text
  · rw [classify?_of_isName hname, if_pos hname]
    rfl
  · rw [if_neg hname]
    cases hclass : classify? text with
    | none => rfl
    | some token =>
        rcases classify?_cases hclass with ⟨_, _, rfl⟩ | ⟨_, htext, _⟩ | ⟨_, _, _, rfl⟩
        · rfl
        · exact absurd htext hname
        · rfl

/-- The names of a row of texts are the texts of the shape of a name. -/
theorem filterMap_name?_classifyAll (texts : List String) :
    (classifyAll texts).filterMap name? = texts.filter isName := by
  rw [classifyAll, List.filterMap_filterMap, ← List.filterMap_eq_filter]
  refine List.filterMap_congr ?_
  intro text _
  rw [bind_name?_classify?]
  rfl

end Token

/-- **Rearranging keeps the names in order.** -/
theorem Postfix.filterMap_name?_ofRow (row : List Token) :
    (ofRow row).filterMap Token.name? = row.filterMap Token.name? := by
  rw [← Token.filterMap_name?_filter_isOperand, filter_isOperand_ofRow,
    Token.filterMap_name?_filter_isOperand]

theorem Postfix.filterMap_name?_ofRow_classifyAll (texts : List String) :
    (ofRow (Token.classifyAll texts)).filterMap Token.name? = texts.filter Token.isName := by
  rw [filterMap_name?_ofRow, Token.filterMap_name?_classifyAll]

/-- **What is asked is a prefix of the names that were typed**, whether the row has a value or not. -/
theorem asked_evaluate (resolve : Resolver) (texts : List String) :
    (evaluate resolve texts).outcome.asked <+: texts.filter Token.isName := by
  rw [outcome_evaluate, ← Postfix.filterMap_name?_ofRow_classifyAll]
  exact Evaluation.asked_ofPostfix resolve _

/-- **Whatever is asked was given**: it is one of the texts, and classified as a name. -/
theorem classify?_of_mem_asked {resolve : Resolver} {texts : List String} {name : String}
    (h : name ∈ (evaluate resolve texts).outcome.asked) :
    name ∈ texts ∧ Token.classify? name = some (.operand (.name name)) := by
  obtain ⟨hmem, hname⟩ := List.mem_filter.mp ((asked_evaluate resolve texts).subset h)
  exact ⟨hmem, Token.classify?_of_isName hname⟩

end DeskCalculator
