import DeskCalculator.Proofs.AskedNames
import DeskCalculator.VariableField

/-!
# Typing a number in place of a name

A name stands for a number, and a text that reads as this number can be typed in
its place. Rearranging goes by the operators alone, so it puts the number where it
would have put the name. And where the name is asked, taking the number instead
puts the same value on the stack. So the two rows have the same value, or they
fail alike, whether operands and operators alternate in them or not.

**The field of the variable can be typed out.** The field and a literal are read
by the same rule; only a blank field, which means zero, is typed as `0`.
-/

namespace DeskCalculator

/-! ## Rows with numbers for names -/

/-- The operand with a number in place of a name. -/
def Operand.fill (values : String → Binary64) : Operand → Operand
  | .number value => .number value
  | .name text => .number (values text)

/-- The token with a number in place of a name. -/
def Token.fill (values : String → Binary64) : Token → Token
  | .operand o => .operand (o.fill values)
  | .operator op => .operator op

namespace Postfix

variable (values : String → Binary64)

theorem release_fill (waiting : List Operator) (token : Token) :
    release waiting (token.fill values) = (release waiting token).map (Token.fill values) := by
  cases token with
  | operand o => rfl
  | operator op =>
      show (waiting.takeWhile (goesBefore op)).map .operator
        = ((waiting.takeWhile (goesBefore op)).map .operator).map (Token.fill values)
      rw [List.map_map]
      rfl

theorem wait_fill (waiting : List Operator) (token : Token) :
    wait waiting (token.fill values) = wait waiting token := by
  cases token <;> rfl

/-- **Rearranging does not look at the operands.** -/
theorem arrange_map_fill (waiting : List Operator) (row : List Token) :
    arrange waiting (row.map (Token.fill values))
      = (arrange waiting row).map (Token.fill values) := by
  induction row generalizing waiting with
  | nil =>
      show waiting.map .operator = (waiting.map .operator).map (Token.fill values)
      rw [List.map_map]
      rfl
  | cons token rest ih =>
      rw [List.map_cons, arrange, arrange, release_fill, wait_fill, ih, List.map_append]

theorem ofRow_map_fill (row : List Token) :
    ofRow (row.map (Token.fill values)) = (ofRow row).map (Token.fill values) :=
  arrange_map_fill values [] row

end Postfix

/-- The answers of a resolver are numbers that depend on the name alone. -/
def Resolver.Gives (resolve : Resolver) (values : String → Binary64) : Prop :=
  ∀ asked name, resolve.answer asked name = .ok (values name)

namespace Evaluation

variable {resolve : Resolver} {values : String → Binary64}

/-- **Taking the number has the same effect as asking the name**, and asks nothing. -/
theorem run_step_fill (h : resolve.Gives values) (other : Resolver) (stack : List Binary64)
    (token : Token) (asked asked' : List String) :
    (step other stack (token.fill values)).run.run asked'
      = (((step resolve stack token).run.run asked).1, asked') := by
  cases token with
  | operand o =>
      cases o with
      | number value => rfl
      | name text =>
          -- the resolver gives the value that the filled token has
          have hask : ((step resolve stack (.operand (.name text))).run.run asked)
              = (.ok (values text :: stack), asked ++ [text]) := by
            rw [step, Asking.run_bind, Resolver.valueOf, resolve.run_ask, h]
            rfl
          rw [hask]
          rfl
  | operator op =>
      rcases stack with _ | ⟨right, _ | ⟨left, below⟩⟩
      · rfl
      · rfl
      · rw [Token.fill, step, step, Asking.run_bind, Asking.run_bind]
        cases op.apply left right with
        | error error => rfl
        | ok value => rfl

theorem run_foldlM_map_fill (h : resolve.Gives values) (other : Resolver) (row : List Token)
    (stack : List Binary64) (asked asked' : List String) :
    ((row.map (Token.fill values)).foldlM (step other) stack).run.run asked'
      = (((row.foldlM (step resolve) stack).run.run asked).1, asked') := by
  induction row generalizing stack asked with
  | nil => rfl
  | cons token rest ih =>
      have hstep := run_step_fill h other stack token asked asked'
      rw [List.map_cons, List.foldlM_cons, List.foldlM_cons, Asking.run_bind, Asking.run_bind,
        hstep]
      -- a step that fails ends both runs, and with the same error
      cases (step resolve stack token).run.run asked with
      | mk result after =>
          cases result with
          | error error => rfl
          | ok next => exact ih next after

theorem run_finish (stack : List Binary64) (asked asked' : List String) :
    (finish stack).run.run asked' = (((finish stack).run.run asked).1, asked') := by
  unfold finish
  split <;> rfl

theorem outcome_ofPostfix_map_fill (h : resolve.Gives values) (other : Resolver)
    (row : List Token) :
    (ofPostfix other (row.map (Token.fill values))).outcome
      = ⟨(ofPostfix resolve row).outcome.result, []⟩ := by
  have hrow := run_foldlM_map_fill h other row [] [] []
  have hrun : (ofPostfix other (row.map (Token.fill values))).run.run []
      = (((ofPostfix resolve row).run.run []).1, []) := by
    rw [ofPostfix, ofPostfix, Asking.run_bind, Asking.run_bind, hrow]
    cases (row.foldlM (step resolve) []).run.run [] with
    | mk result after =>
        cases result with
        | error error => rfl
        | ok stack => exact run_finish stack after []
  rw [Asking.outcome, hrun]
  rfl

end Evaluation

/-! ## Texts with numbers for names -/

/-- The texts with another text typed in place of each name. -/
def substitute (typed : String → String) (texts : List String) : List String :=
  texts.map fun text => if Token.isName text then typed text else text

namespace Token

variable {typed : String → String} {values : String → Binary64}

/-- A text typed for a name is the number, and every other token stays as it is. -/
theorem classify?_substituted (h : ∀ name, readNumber? (typed name) = some (values name))
    (text : String) :
    classify? (if isName text then typed text else text) = (classify? text).map (fill values) := by
  split
  · next hname =>
    rw [classify?_of_readNumber? (h text), classify?_of_isName hname]
    rfl
  · -- what is no name keeps its token, in which there is nothing to fill
    next hname =>
    cases hclass : classify? text with
    | none => rfl
    | some token =>
        rcases classify?_cases hclass with ⟨value, _, rfl⟩ | ⟨_, hisName, _⟩ | ⟨_, op, _, rfl⟩
        · rfl
        · exact absurd hisName hname
        · rfl

theorem classifyAll_substitute (h : ∀ name, readNumber? (typed name) = some (values name))
    (texts : List String) :
    classifyAll (substitute typed texts) = (classifyAll texts).map (fill values) := by
  rw [classifyAll, substitute, List.filterMap_map, classifyAll, List.map_filterMap]
  refine List.filterMap_congr ?_
  intro text _
  rw [Function.comp_apply]
  exact classify?_substituted h text

end Token

theorem value_evaluate (resolve : Resolver) (texts : List String) :
    (evaluate resolve texts).outcome.result.map Prod.fst
      = (Evaluation.ofPostfix resolve
          (Postfix.ofRow (Token.classifyAll texts))).outcome.result.map Display.tidy := by
  rw [outcome_evaluate]
  dsimp only
  cases (Evaluation.ofPostfix resolve (Postfix.ofRow (Token.classifyAll texts))).outcome.result with
  | error error => rfl
  | ok raw => rfl

/-- **A row in which numbers are typed for the names has the same value**, and asks nothing. -/
theorem evaluate_substitute {resolve : Resolver} {typed : String → String}
    {values : String → Binary64} (hgives : resolve.Gives values)
    (hreads : ∀ name, readNumber? (typed name) = some (values name)) (other : Resolver)
    (texts : List String) :
    (evaluate other (substitute typed texts)).outcome.result.map Prod.fst
        = (evaluate resolve texts).outcome.result.map Prod.fst
      ∧ (evaluate other (substitute typed texts)).outcome.asked = [] := by
  -- the row is filled before it is rearranged, and the order looks at operators only
  have hrow : (Evaluation.ofPostfix other
      (Postfix.ofRow (Token.classifyAll (substitute typed texts)))).outcome
        = ⟨(Evaluation.ofPostfix resolve
          (Postfix.ofRow (Token.classifyAll texts))).outcome.result, []⟩ := by
    rw [Token.classifyAll_substitute hreads, Postfix.ofRow_map_fill,
      Evaluation.outcome_ofPostfix_map_fill hgives]
  constructor
  · rw [value_evaluate, value_evaluate, hrow]
  · rw [outcome_evaluate, hrow]

/-! ## The field of the variable -/

namespace VariableField

/-- What can be typed for a name instead of giving it this field: the text, or `0` if it is blank. -/
def typedOut (field : VariableField) : String :=
  if Text.trim field.text.toList = [] then "0" else field.text

theorem gives_of_valueOf {field : VariableField} {value : Binary64} (hnumber : value.isNaN = false)
    (h : ∀ name, valueOf name field.text = .ok value) : field.resolver.Gives fun _ => value := by
  intro asked name
  have hvalue : field.resolver asked name = .ok value := h name
  rw [Resolver.answer, hvalue]
  dsimp only
  rw [hnumber]
  rfl

/-- A field that is blank or a number gives its value to every name, typed out or not. -/
theorem exists_gives {field : VariableField}
    (h : Text.trim field.text.toList = [] ∨ (readNumber? field.text).isSome) :
    ∃ value, readNumber? field.typedOut = some value ∧ field.resolver.Gives fun _ => value := by
  by_cases hblank : Text.trim field.text.toList = []
  · -- a blank field stands for zero, and zero is typed in its place
    refine ⟨.zero false, ?_, gives_of_valueOf rfl ?_⟩
    · rw [typedOut, if_pos hblank]
      decide +kernel
    · intro name
      rw [valueOf, if_pos hblank]
  · obtain ⟨value, hvalue⟩ := Option.isSome_iff_exists.mp (h.resolve_left hblank)
    have hnumber : value.isNaN = false := by
      have hfinite := Token.isFinite_of_readNumber? hvalue
      cases value with
      | nan => cases hfinite
      | infinite negative => rfl
      | finite negative rank => rfl
    refine ⟨value, ?_, gives_of_valueOf hnumber ?_⟩
    · rw [typedOut, if_neg hblank, hvalue]
    · intro name
      rw [valueOf, if_neg hblank, hvalue]

/--
**A field can be typed out in place of every name.**

If the field is blank or a number, a row of texts has the same value with this
field, or the same failure, as the row in which the field is typed out in place of
each name has with any resolver. The latter asks nothing.
-/
theorem evaluate_typedOut {field : VariableField}
    (h : Text.trim field.text.toList = [] ∨ (readNumber? field.text).isSome) (resolve : Resolver)
    (texts : List String) :
    let substituted := substitute (fun _ => field.typedOut) texts
    (evaluate resolve substituted).outcome.result.map Prod.fst
        = (evaluate field.resolver texts).outcome.result.map Prod.fst
      ∧ (evaluate resolve substituted).outcome.asked = [] := by
  obtain ⟨value, hreads, hgives⟩ := exists_gives h
  exact evaluate_substitute hgives (fun _ => hreads) resolve texts

/-- With ` 25e-1 ` in the field, `X * 4 - Y` is worth what is left of `25e-1 * 4 - 25e-1`. -/
theorem evaluate_typedOut_spaced :
    let field : VariableField := ⟨" 25e-1 "⟩
    let refuse : Resolver := fun _ name => .error (.invalidVariable name)
    (readNumber? field.text).isSome
      ∧ substitute (fun _ => field.typedOut) ["X", "*", "4", "-", "Y"]
        = [" 25e-1 ", "*", "4", "-", " 25e-1 "]
      ∧ (evaluate refuse [" 25e-1 ", "*", "4", "-", " 25e-1 "]).outcome.result.map Prod.fst
        = .ok (Binary64.ofBits 0x401E000000000000)
      ∧ (evaluate field.resolver ["X", "*", "4", "-", "Y"]).outcome.result.map Prod.fst
        = .ok (Binary64.ofBits 0x401E000000000000) := by
  intro field refuse
  have hnumber : (readNumber? field.text).isSome := by decide +kernel
  have htyped : substitute (fun _ => field.typedOut) ["X", "*", "4", "-", "Y"]
      = [" 25e-1 ", "*", "4", "-", " 25e-1 "] := by decide +kernel
  have hvalue : (evaluate refuse [" 25e-1 ", "*", "4", "-", " 25e-1 "]).outcome.result.map Prod.fst
      = .ok (Binary64.ofBits 0x401E000000000000) := by decide +kernel
  have hsame := (evaluate_typedOut (Or.inr hnumber) refuse ["X", "*", "4", "-", "Y"]).1
  rw [htyped, hvalue] at hsame
  exact ⟨hnumber, htyped, hvalue, hsame.symm⟩

end VariableField

end DeskCalculator
