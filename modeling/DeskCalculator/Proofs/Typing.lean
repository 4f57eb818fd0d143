import DeskCalculator.Proofs.Entering
import DeskCalculator.Proofs.Explanation

/-!
# Typing a row of numerals

What does `equals` evaluate when a row of numerals and operators has been typed
key by key? It evaluates what was typed, with one exception.

A pending `0` stands for nothing typed, also when it was typed. An operator that
comes after another operator and a bare zero therefore takes the place of the
first one, and the zero is lost: `5 + 0 * 3` is evaluated as `5 * 3`. At the start
and at the end of the row a bare zero is committed as it should be.

`NumeralRow.kept` is a row without the pairs that are lost. The session always
answers as an evaluation of the kept row does; and it answers as an evaluation of
the whole row does exactly when nothing is lost, or when both fail alike.
-/

namespace DeskCalculator

structure NumeralRow where
  first : Numeral
  rest : List (Operator × Numeral)

namespace NumeralRow

def pairTexts (pair : Operator × Numeral) : List String := [pair.1.text, pair.2.text]

/-- The texts of a row, one for each numeral and one for each operator. -/
def texts (row : NumeralRow) : List String := row.first.text :: row.rest.flatMap pairTexts

/--
What is left of the pairs of a row: a bare zero between two operators is lost, and
so is the operator in front of it.
-/
def keep : List (Operator × Numeral) → List (Operator × Numeral)
  | (op, n) :: next :: more =>
    if n.isZero then keep (next :: more) else (op, n) :: keep (next :: more)
  | pairs => pairs

/-- A row without what is lost while it is typed. -/
def kept (row : NumeralRow) : NumeralRow := ⟨row.first, keep row.rest⟩

end NumeralRow

namespace Session

/-- `equals` is to evaluate these texts. -/
structure Holds (s : Session) (texts : List String) : Prop where
  phase : s.phase = .entry
  tokens_commit : s.commit.tokens = texts

end Session

open Session

namespace NumeralRow

/-! ## Typing a row -/

def pairKeys (pair : Operator × Numeral) : List Action :=
  .operator pair.1 :: pair.2.chars.map Action.ofKey

def keys (row : NumeralRow) : List Action :=
  row.first.chars.map Action.ofKey ++ row.rest.flatMap pairKeys

/-- The session in which a row has been typed. -/
def typed (row : NumeralRow) : Session := ({} : Session).performAll row.keys

def trimPair (pair : Operator × Numeral) : Operator × Numeral := (pair.1, pair.2.trimmed)

theorem keep_cons_cons (op : Operator) (n : Numeral) (next : Operator × Numeral)
    (more : List (Operator × Numeral)) :
    keep ((op, n) :: next :: more)
      = if n.isZero then keep (next :: more) else (op, n) :: keep (next :: more) := rfl

theorem trimmedTexts_cons (op : Operator) (n : Numeral) (pairs : List (Operator × Numeral)) :
    ((op, n) :: pairs).flatMap (pairTexts ∘ trimPair)
      = [op.text, n.trimmed.text] ++ pairs.flatMap (pairTexts ∘ trimPair) := rfl

theorem performAll_start (n : Numeral) :
    ({} : Session).performAll (n.chars.map Action.ofKey)
      = ({} : Session).entering n.trimmed.chars := by
  have hphase : ({} : Session).phase ≠ .evaluated := fun h => Phase.noConfusion h
  exact performAll_numeral hphase rfl n

theorem performAll_awaiting (s : Session) (texts : List String) (op : Operator) (n : Numeral) :
    (s.awaiting texts op).performAll (n.chars.map Action.ofKey)
      = (s.awaiting texts op).entering n.trimmed.chars := by
  have hphase : (s.awaiting texts op).phase ≠ .evaluated := fun h => Phase.noConfusion h
  exact performAll_numeral hphase rfl n

theorem holds_start (n : Numeral) :
    (({} : Session).performAll (n.chars.map Action.ofKey)).Holds [n.trimmed.text] := by
  have hdue : ({} : Session).OperandDue := rfl
  rw [performAll_start]
  exact ⟨rfl, tokens_commit hdue n.trimmed.chars_ne_nil⟩

theorem holds_awaiting (s : Session) (texts : List String) (op : Operator) (n : Numeral) :
    ((s.awaiting texts op).performAll (n.chars.map Action.ofKey)).Holds
      (texts ++ [op.text, n.trimmed.text]) := by
  rw [performAll_awaiting]
  refine ⟨rfl, ?_⟩
  rw [tokens_commit (operandDue_awaiting texts op s) n.trimmed.chars_ne_nil]
  exact List.append_assoc texts [op.text] [n.trimmed.text]

theorem holds_performAll (rest : List (Operator × Numeral)) (s : Session) (texts : List String)
    (op : Operator) (n : Numeral) :
    ((s.awaiting texts op).performAll (n.chars.map Action.ofKey ++ rest.flatMap pairKeys)).Holds
      (texts ++ (keep ((op, n) :: rest)).flatMap (pairTexts ∘ trimPair)) := by
  induction rest generalizing texts op n with
  | nil =>
      rw [List.flatMap_nil, List.append_nil]
      exact holds_awaiting s texts op n
  | cons pair more ih =>
      obtain ⟨next, m⟩ := pair
      rw [performAll_append, performAll_awaiting, List.flatMap_cons, pairKeys,
        List.cons_append, performAll_cons]
      show (((s.awaiting texts op).entering n.trimmed.chars).operator next |>.performAll _).Holds _
      rw [operator_next, keep_cons_cons]
      by_cases hzero : n.isZero
      · -- the next operator has taken the place of `op`
        rw [if_pos hzero, if_pos hzero]
        exact ih texts next m
      · rw [if_neg hzero, if_neg hzero, trimmedTexts_cons, ← List.append_assoc texts]
        exact ih (texts ++ [op.text, n.trimmed.text]) next m

/-- **A typed row is held as far as it is kept.** -/
theorem holds_typed (row : NumeralRow) :
    row.typed.Holds
      (row.first.trimmed.text :: (keep row.rest).flatMap (pairTexts ∘ trimPair)) := by
  obtain ⟨first, rest⟩ := row
  rw [typed, keys, performAll_append]
  cases rest with
  | nil => exact holds_start first
  | cons pair more =>
      obtain ⟨op, n⟩ := pair
      rw [performAll_start, List.flatMap_cons, pairKeys, List.cons_append, performAll_cons]
      show ((({} : Session).entering first.trimmed.chars).operator op |>.performAll _).Holds _
      rw [operator_first]
      exact holds_performAll more {} [first.trimmed.text] op n

theorem classifyAll_trimmed (first : Numeral) (pairs : List (Operator × Numeral)) :
    Token.classifyAll (first.trimmed.text :: pairs.flatMap (pairTexts ∘ trimPair))
      = Token.classifyAll (first.text :: pairs.flatMap pairTexts) := by
  have hpair (pair : Operator × Numeral) :
      ((pairTexts ∘ trimPair) pair).filterMap Token.classify?
        = (pairTexts pair).filterMap Token.classify? := by
    simp only [Function.comp_apply, pairTexts, trimPair, List.filterMap_cons,
      Numeral.classify?_trimmed]
  rw [Token.classifyAll, Token.classifyAll, List.filterMap_cons, List.filterMap_cons,
    Numeral.classify?_trimmed, List.filterMap_flatMap, List.filterMap_flatMap, funext hpair]

end NumeralRow

/-! ## The answer of `equals` -/

namespace Session

/-- The answer of `equals` together with the explanation that is shown with it. -/
def Reply.report (reply : Reply) : Except EvalError (Binary64 × Explanation) :=
  reply.outcome.result.map fun value => (value, reply.session.explanation)

theorem Holds.not_repeated {s : Session} {texts : List String} (h : s.Holds texts) :
    s.repeated? = none := by
  rw [repeated?, h.phase]
  rfl

/-- Where the session does not stand at a result, `equals` answers as an evaluation does. -/
theorem report_equals {s : Session} {texts : List String} (h : s.Holds texts)
    (resolve : Resolver) :
    (s.equals resolve).report = (evaluate resolve texts).outcome.result := by
  rw [equals, h.not_repeated]
  dsimp only
  rw [h.tokens_commit]
  cases (evaluate resolve texts).outcome with
  | mk result asked =>
      cases result with
      | ok answer => rfl
      | error error => rfl

end Session

namespace NumeralRow

/-- **The session answers as an evaluation of the kept row does.** -/
theorem report_typed (resolve : Resolver) (row : NumeralRow) :
    (row.typed.equals resolve).report = (evaluate resolve row.kept.texts).outcome.result := by
  rw [report_equals row.holds_typed, evaluate_congr (classifyAll_trimmed row.first (keep row.rest))]
  rfl

/-! ## What is lost -/

/-- A bare zero between two operators is lost. -/
def LosesZero (row : NumeralRow) : Prop := ∃ pair ∈ row.rest.dropLast, pair.2.isZero

theorem keep_eq_self {pairs : List (Operator × Numeral)}
    (h : ∀ pair ∈ pairs.dropLast, ¬pair.2.isZero) : keep pairs = pairs := by
  fun_induction keep pairs with
  | case1 op n next more hzero ih => exact absurd hzero (h (op, n) List.mem_cons_self)
  | case2 op n next more hzero ih => rw [ih fun pair hp => h pair (List.mem_cons_of_mem _ hp)]
  | case3 pairs hshort => rfl

theorem kept_of_not_losesZero {row : NumeralRow} (h : ¬row.LosesZero) : row.kept = row := by
  have hkeep : keep row.rest = row.rest := keep_eq_self fun pair hp hzero => h ⟨pair, hp, hzero⟩
  rw [kept, hkeep]

theorem length_classifyAll_pairTexts (pair : Operator × Numeral)
    (pairs : List (Operator × Numeral)) :
    (Token.classifyAll ((pair :: pairs).flatMap pairTexts)).length
      = 1 + (Token.classify? pair.2.text).toList.length
        + (Token.classifyAll (pairs.flatMap pairTexts)).length := by
  have htexts : (pair :: pairs).flatMap pairTexts
      = pair.1.text :: pair.2.text :: pairs.flatMap pairTexts := rfl
  rw [htexts, Token.classifyAll, List.filterMap_cons, Token.classify?_text, List.filterMap_cons]
  cases Token.classify? pair.2.text with
  | none => simp [Token.classifyAll, Nat.add_comm]
  | some token => simp [Token.classifyAll]; omega

/-- Every lost zero takes two tokens with it. -/
theorem length_classifyAll_keep (pairs : List (Operator × Numeral)) :
    (Token.classifyAll ((keep pairs).flatMap pairTexts)).length
        + 2 * pairs.dropLast.countP (fun pair => pair.2.isZero)
      = (Token.classifyAll (pairs.flatMap pairTexts)).length := by
  fun_induction keep pairs with
  | case1 op n next more hzero ih =>
      -- a zero that is lost takes two tokens along, itself and an operator
      obtain ⟨token, htoken⟩ := Option.isSome_iff_exists.mp (Numeral.classify?_isSome_of_isZero hzero)
      have hone : (Token.classify? n.text).toList.length = 1 := by rw [htoken]; rfl
      rw [length_classifyAll_pairTexts (op, n), List.dropLast_cons_cons, List.countP_cons, hone,
        if_pos hzero, ← ih]
      omega
  | case2 op n next more hzero ih =>
      rw [length_classifyAll_pairTexts (op, n), length_classifyAll_pairTexts (op, n),
        List.dropLast_cons_cons, List.countP_cons, if_neg hzero, ← ih]
      omega
  | case3 pairs hshort =>
      have hdrop : pairs.dropLast = [] := by
        match pairs with
        | [] => rfl
        | [_] => rfl
        | first :: next :: more => exact absurd rfl (hshort first.1 first.2 next more)
      rw [hdrop]
      rfl

theorem keep_cons_ne_nil (pair : Operator × Numeral) (pairs : List (Operator × Numeral)) :
    keep (pair :: pairs) ≠ [] := by
  induction pairs generalizing pair with
  | nil => exact List.cons_ne_nil pair []
  | cons next more ih =>
      obtain ⟨op, n⟩ := pair
      rw [keep_cons_cons]
      split
      · exact ih next
      · exact List.cons_ne_nil (op, n) _

theorem length_classifyAll_texts (first : Numeral) (pairs : List (Operator × Numeral)) :
    (Token.classifyAll (first.text :: pairs.flatMap pairTexts)).length
      = (Token.classify? first.text).toList.length
        + (Token.classifyAll (pairs.flatMap pairTexts)).length := by
  rw [Token.classifyAll, List.filterMap_cons]
  cases Token.classify? first.text with
  | none => simp [Token.classifyAll]
  | some token => simp [Token.classifyAll, Nat.add_comm]

/-- A row that loses a zero is read as fewer tokens than were typed, but as some. -/
theorem length_classifyAll_kept {row : NumeralRow} (h : row.LosesZero) :
    0 < (Token.classifyAll row.kept.texts).length
      ∧ (Token.classifyAll row.kept.texts).length < (Token.classifyAll row.texts).length := by
  obtain ⟨pair, hmem, hzero⟩ := h
  have hlost : 0 < row.rest.dropLast.countP fun pair => pair.2.isZero :=
    List.countP_pos_iff.mpr ⟨pair, hmem, hzero⟩
  have hcount := length_classifyAll_keep row.rest
  -- some operand is kept, for the last one always is
  have hpos : 0 < (Token.classifyAll ((keep row.rest).flatMap pairTexts)).length := by
    obtain ⟨first, pairs, hrest⟩ := List.exists_cons_of_ne_nil
      (List.ne_nil_of_mem ((List.dropLast_sublist row.rest).subset hmem))
    obtain ⟨kept, keptMore, hkept⟩ := List.exists_cons_of_ne_nil (keep_cons_ne_nil first pairs)
    rw [hrest, hkept, length_classifyAll_pairTexts]
    omega
  have hkeptLength := length_classifyAll_texts row.first (keep row.rest)
  have hrowLength := length_classifyAll_texts row.first row.rest
  show 0 < (Token.classifyAll (row.first.text :: (keep row.rest).flatMap pairTexts)).length
    ∧ (Token.classifyAll (row.first.text :: (keep row.rest).flatMap pairTexts)).length
      < (Token.classifyAll (row.first.text :: row.rest.flatMap pairTexts)).length
  omega

/-- Values of rows with different numbers of tokens are explained differently. -/
theorem evaluate_ne_of_losesZero {row : NumeralRow} (h : row.LosesZero) (resolve : Resolver)
    {answer : Binary64 × Explanation}
    (hkept : (evaluate resolve row.kept.texts).outcome.result = .ok answer) :
    (evaluate resolve row.texts).outcome.result ≠ .ok answer := by
  intro hrow
  obtain ⟨hpos, hlt⟩ := length_classifyAll_kept h
  -- equal explanations would mean rows of equal length
  have hline : Token.line (Token.classifyAll row.kept.texts)
      = Token.line (Token.classifyAll row.texts) :=
    (Explanation.mk.inj ((explanation_of_evaluate hkept).symm.trans
      (explanation_of_evaluate hrow))).1
  have hlength := Token.length_eq_of_line_eq (List.ne_nil_of_length_pos hpos)
    (List.ne_nil_of_length_pos (Nat.lt_trans hpos hlt)) hline
  exact absurd hlength (Nat.ne_of_lt hlt)

/--
**The session evaluates what was typed, less the zeros that are lost.**

Its answer and its explanation are always those of the kept row. They are those of
the typed row exactly when no bare zero stands between two operators, or when the
kept row and the typed row fail alike.
-/
theorem report_typed_eq_iff (resolve : Resolver) (row : NumeralRow) :
    (row.typed.equals resolve).report = (evaluate resolve row.kept.texts).outcome.result
      ∧ ((row.typed.equals resolve).report = (evaluate resolve row.texts).outcome.result
        ↔ ¬row.LosesZero
          ∨ ∃ error, (evaluate resolve row.kept.texts).outcome.result = .error error
            ∧ (evaluate resolve row.texts).outcome.result = .error error) := by
  rw [report_typed]
  refine ⟨rfl, ?_, ?_⟩
  · intro heq
    by_cases hlost : row.LosesZero
    · refine Or.inr ?_
      cases hkept : (evaluate resolve row.kept.texts).outcome.result with
      | ok answer =>
          -- the two explanations would be the same, but one is shorter
          rw [hkept] at heq
          exact absurd heq.symm (evaluate_ne_of_losesZero hlost resolve hkept)
      | error error => exact ⟨error, rfl, by rw [← heq, hkept]⟩
    · exact Or.inl hlost
  · intro h
    rcases h with hnone | ⟨error, hkept, hrow⟩
    · rw [kept_of_not_losesZero hnone]
    · rw [hkept, hrow]

/-- The row `5 + 0 * 3`. -/
def zeroBetween : NumeralRow where
  first := Numeral.ofDigit '5' rfl
  rest := [(.add, Numeral.ofDigit '0' rfl), (.mul, Numeral.ofDigit '3' rfl)]

/-- `5 + 0 * 3` is 5, and the session answers 15. -/
theorem report_zeroBetween :
    zeroBetween.texts = ["5", "+", "0", "*", "3"]
      ∧ ((zeroBetween.typed.equals fun _ name => .error (.invalidVariable name)).report.toOption.map
          fun report => (report.1.text, report.2.typed)) = some ("15", "5 * 3")
      ∧ ((evaluate (fun _ name => .error (.invalidVariable name))
            zeroBetween.texts).outcome.result.toOption.map
          fun report => (report.1.text, report.2.typed)) = some ("5", "5 + 0 * 3") := by
  decide +kernel

end NumeralRow

end DeskCalculator
