import DeskCalculator.Proofs.FirstName
import DeskCalculator.Proofs.Typing
import DeskCalculator.Proofs.ZeroSign

/-!
# Chained calculations

A number and `equals`, then again and again an operator, a number and `equals`:
each time the result goes on as the left operand. On the way it is tidied, shown,
committed as a text when the operator comes, and read back. Nothing is lost by
this as long as it is finite, except for the sign of a zero, which is not shown.

The invariant is that the session shows the result. A link of the chain leads
from a finite result that is shown to the next one, or fails with a division by
zero, and by induction every chain of links ends with its total shown.

**A chained calculation accumulates tidied results.**
-/

namespace DeskCalculator

open Binary64 (forgetZeroSign)

/-! ## Rows of one and of three texts -/

theorem outcome_evaluate_number {text : String} {value : Binary64}
    (h : readNumber? text = some value) (resolve : Resolver) :
    ∃ explanation, (evaluate resolve [text]).outcome
      = ⟨.ok (Display.tidy value, explanation), []⟩ := by
  have hrow : Token.classifyAll [text] = [.operand (.number value)] :=
    List.filterMap_cons_some (Token.classify?_of_readNumber? h)
  rw [outcome_evaluate, hrow]
  exact ⟨_, rfl⟩

theorem outcome_ofPostfix_operation (left right : Binary64) (op : Operator) (resolve : Resolver) :
    (Evaluation.ofPostfix resolve
      [.operand (.number left), .operand (.number right), .operator op]).outcome
        = ⟨op.apply left right, []⟩ := by
  rw [Evaluation.ofPostfix]
  simp only [List.foldlM_cons, List.foldlM_nil, Evaluation.step, Resolver.valueOf, pure_bind,
    bind_assoc]
  rw [Asking.outcome, Asking.run_bind]
  cases op.apply left right with
  | error error => rfl
  | ok value => rfl

theorem outcome_evaluate_operation {leftText rightText : String} {left right : Binary64}
    (hleft : readNumber? leftText = some left) (hright : readNumber? rightText = some right)
    (op : Operator) (resolve : Resolver) :
    ∃ explanation, (evaluate resolve [leftText, op.text, rightText]).outcome
      = ⟨((op.apply left right).map Display.tidy).map (·, explanation), []⟩ := by
  have hrow : Token.classifyAll [leftText, op.text, rightText]
      = [.operand (.number left), .operator op, .operand (.number right)] := by
    rw [Token.classifyAll, List.filterMap_cons_some (Token.classify?_of_readNumber? hleft),
      List.filterMap_cons_some (Token.classify?_text op),
      List.filterMap_cons_some (Token.classify?_of_readNumber? hright)]
    rfl
  have hordered : Postfix.ofRow [.operand (.number left), .operator op, .operand (.number right)]
      = [.operand (.number left), .operand (.number right), .operator op] := rfl
  rw [outcome_evaluate, hrow, hordered, outcome_ofPostfix_operation]
  cases op.apply left right with
  | error error => exact ⟨{}, rfl⟩
  | ok raw => exact ⟨_, rfl⟩

/-! ## Chains -/

/-- A numeral that can be typed, and the finite number that it reads as. -/
structure Figure where
  numeral : Numeral
  value : Binary64
  reads : readNumber? numeral.text = some value

/-- An operator and a number, which are typed after a result, and who is asked for names. -/
structure Link where
  operator : Operator
  figure : Figure
  resolve : Resolver

/-- The tidied result of the operation on what was accumulated so far. -/
def Link.advance (acc : Binary64) (link : Link) : Except EvalError Binary64 :=
  (link.operator.apply acc link.figure.value).map Display.tidy

/-- What is accumulated by some links, as long as every result is finite. -/
def Link.total? (acc : Binary64) : List Link → Option Binary64
  | [] => some acc
  | link :: rest =>
    match link.advance acc with
    | .ok next => if next.isFinite then total? next rest else none
    | .error _ => none

/-- A link fails exactly when it divides by zero. -/
theorem Link.advance_eq_error_iff (link : Link) (acc : Binary64) (error : EvalError) :
    link.advance acc = .error error
      ↔ error = .divisionByZero ∧ link.operator = .div ∧ link.figure.value.isZero := by
  unfold advance Operator.apply
  cases link.operator with
  | add | sub | mul => simp [Except.map]
  | div =>
      by_cases hzero : link.figure.value.isZero
      · simp [hzero, Except.map, eq_comm]
      · simp [hzero, Except.map]

theorem Link.map_advance_forgetZeroSign (link : Link) (acc : Binary64) :
    (link.advance acc.forgetZeroSign).map forgetZeroSign
      = (link.advance acc).map forgetZeroSign :=
  Display.map_tidy_congr (link.operator.map_apply_forgetZeroSign acc link.figure.value)

namespace Session

/-- The reply to a number that is typed at the start. -/
def startWith (first : Figure) (resolve : Resolver) : Reply :=
  (({} : Session).performAll (first.numeral.chars.map Action.ofKey)).equals resolve

/-- The reply to an operator and a number. -/
def continueWith (s : Session) (link : Link) : Reply :=
  (s.performAll (NumeralRow.pairKeys (link.operator, link.figure.numeral))).equals link.resolve

/-- The session after some operators and numbers, each with its reply. -/
def continueAll (s : Session) (links : List Link) : Session :=
  links.foldl (fun s next => (s.continueWith next).session) s

/-- The session shows a result, with which the next operator goes on. -/
structure Shows (s : Session) (result : Binary64) : Prop where
  phase : s.phase = .evaluated
  error : s.error = none
  pending : s.pending = Display.text result

theorem Shows.display {s : Session} {result : Binary64} (h : s.Shows result) :
    s.display = Display.text result := by
  rw [Session.display, h.error]
  exact h.pending

theorem shows_succeed (s : Session) {value result : Binary64} (explanation : Explanation)
    (h : value.forgetZeroSign = result.forgetZeroSign) :
    (s.succeed value explanation).Shows result where
  phase := rfl
  error := rfl
  pending := by
    show Display.text value = Display.text result
    rw [Display.text_eq, Display.text_eq, h]

theorem equals_of_holds {s : Session} {texts : List String} (h : s.Holds texts)
    (resolve : Resolver) :
    s.equals resolve = s.commit.replyTo (evaluate resolve texts).outcome := by
  rw [equals_of_not_repeated h.not_repeated, h.tokens_commit]

/-- The first number is tidied and shown. -/
theorem startWith_tidies (first : Figure) (resolve : Resolver) :
    (startWith first resolve).outcome = ⟨.ok (Display.tidy first.value), []⟩
      ∧ (startWith first resolve).session.Shows (Display.tidy first.value) := by
  have hreads : readNumber? first.numeral.trimmed.text = some first.value := by
    rw [Numeral.readNumber?_trimmed, first.reads]
  obtain ⟨explanation, hvalue⟩ := outcome_evaluate_number hreads resolve
  rw [startWith, equals_of_holds (NumeralRow.holds_start first.numeral), hvalue]
  exact ⟨rfl, shows_succeed _ explanation rfl⟩

/-- A shown result is committed in front of the operator. -/
theorem holds_typed_link {s : Session} {acc : Binary64} (h : s.Shows acc) (op : Operator)
    (n : Numeral) :
    (s.performAll (NumeralRow.pairKeys (op, n))).Holds
      [Display.text acc, op.text, n.trimmed.text] := by
  have hoperator : s.operator op = s.awaiting [Display.text acc] op := by
    rw [operator, if_pos h.phase, h.pending]
    rfl
  rw [NumeralRow.pairKeys, performAll_cons]
  show ((s.operator op).performAll _).Holds _
  rw [hoperator]
  exact NumeralRow.holds_awaiting s [Display.text acc] op n

theorem outcome_replyTo_map (s : Session) (result : Except EvalError Binary64)
    (explanation : Explanation) :
    (s.replyTo ⟨result.map (·, explanation), []⟩).outcome = ⟨result, []⟩ := by
  cases result with
  | error error => rfl
  | ok value => rfl

/-- A link is worked out on the shown result as it is read back. -/
theorem exists_continueWith {s : Session} {acc : Binary64} (h : s.Shows acc)
    (hfinite : acc.isFinite) (link : Link) :
    ∃ (before : Session) (explanation : Explanation), s.continueWith link
      = before.replyTo ⟨(link.advance acc.forgetZeroSign).map (·, explanation), []⟩ := by
  have hright : readNumber? link.figure.numeral.trimmed.text = some link.figure.value := by
    rw [Numeral.readNumber?_trimmed, link.figure.reads]
  obtain ⟨explanation, hvalue⟩ := outcome_evaluate_operation (Display.readNumber?_text hfinite)
    hright link.operator link.resolve
  rw [continueWith, equals_of_holds (holds_typed_link h link.operator link.figure.numeral), hvalue]
  exact ⟨_, explanation, rfl⟩

/-- **A link advances a finite result that is shown**, up to the sign of a zero. -/
theorem continueWith_advances {s : Session} {acc : Binary64} (h : s.Shows acc) (hfinite : acc.isFinite)
    (link : Link) :
    (s.continueWith link).outcome.asked = []
      ∧ (s.continueWith link).outcome.result.map forgetZeroSign
        = (link.advance acc).map forgetZeroSign
      ∧ ∀ next, link.advance acc = .ok next → (s.continueWith link).session.Shows next := by
  -- the display is read back without the sign of a zero
  obtain ⟨before, explanation, hreply⟩ := exists_continueWith h hfinite link
  have hsame := link.map_advance_forgetZeroSign acc
  rw [hreply, outcome_replyTo_map]
  refine ⟨rfl, hsame, ?_⟩
  intro next hnext
  rw [hnext] at hsame
  cases hresult : link.advance acc.forgetZeroSign with
  | error error =>
      rw [hresult] at hsame
      cases hsame
  | ok value =>
      rw [hresult] at hsame
      exact shows_succeed before explanation (Except.ok.inj hsame)

/-- **A chain of links ends with its total shown.** -/
theorem shows_continueAll {s : Session} {acc last : Binary64} (h : s.Shows acc)
    (hfinite : acc.isFinite) {links : List Link} (htotal : Link.total? acc links = some last) :
    (s.continueAll links).Shows last ∧ last.isFinite := by
  induction links generalizing s acc with
  | nil =>
      have hlast : acc = last := Option.some.inj htotal
      subst hlast
      exact ⟨h, hfinite⟩
  | cons link rest ih =>
      -- a total needs every result on the way, and needs it finite
      rw [Link.total?] at htotal
      split at htotal
      · next next hnext =>
        split at htotal
        · next hnextFinite =>
          obtain ⟨-, -, hshows⟩ := continueWith_advances h hfinite link
          exact ih (hshows next hnext) hnextFinite htotal
        · cases htotal
      · cases htotal

/--
**A chained calculation accumulates tidied results.**

The number at the start is tidied and shown. Then every link of a chain, as long
as the results before it are finite, does its operation on what was accumulated so
far and tidies and shows the result, where the answer may differ from it in the
sign of a zero. A link fails only as a division by a number that reads as zero, and
then always. Nothing is ever asked.
-/
theorem continueWith_of_total (first : Figure) (resolve : Resolver) :
    let start := startWith first resolve
    let tidied := Display.tidy first.value
    start.outcome = ⟨.ok tidied, []⟩
      ∧ start.session.display = Display.text tidied
      ∧ ∀ (links : List Link) (acc : Binary64), Link.total? tidied links = some acc →
        ∀ next : Link,
          let reply := (start.session.continueAll links).continueWith next
          reply.outcome.asked = []
            ∧ reply.outcome.result.map forgetZeroSign = (next.advance acc).map forgetZeroSign
            ∧ (∀ result, next.advance acc = .ok result →
              reply.session.display = Display.text result)
            ∧ ∀ error, reply.outcome.result = .error error
              ↔ error = .divisionByZero ∧ next.operator = .div ∧ next.figure.value.isZero := by
  intro start tidied
  obtain ⟨hstart, hshows⟩ := startWith_tidies first resolve
  refine ⟨hstart, hshows.display, ?_⟩
  intro links acc htotal next reply
  have hfinite : tidied.isFinite :=
    Display.isFinite_tidy (Token.isFinite_of_readNumber? first.reads)
  obtain ⟨hlast, hlastFinite⟩ := shows_continueAll hshows hfinite htotal
  obtain ⟨hasked, hresult, hnext⟩ := continueWith_advances hlast hlastFinite next
  refine ⟨hasked, hresult, ?_, ?_⟩
  · intro result hok
    exact (hnext result hok).display
  · intro error
    -- dividing by a zero of either sign is the only error
    rw [← next.advance_eq_error_iff acc, ← Binary64.map_forgetZeroSign_eq_error_iff, hresult,
      Binary64.map_forgetZeroSign_eq_error_iff]

end Session

/-- The number `1`. -/
def Figure.one : Figure where
  numeral := Numeral.ofDigit '1' rfl
  value := Binary64.ofBits 0x3FF0000000000000
  reads := by decide +kernel

/-- The number `7`. -/
def Figure.seven : Figure where
  numeral := Numeral.ofDigit '7' rfl
  value := Binary64.ofBits 0x401C000000000000
  reads := by decide +kernel

/-- `1` divided by `7`, times `7`, less `1`: what rounding has added to the seventh, seven times. -/
theorem Session.continueWith_of_total_sevenths :
    let refuse : Resolver := fun _ name => .error (.invalidVariable name)
    let links : List Link := [⟨.div, Figure.seven, refuse⟩, ⟨.mul, Figure.seven, refuse⟩]
    let next : Link := ⟨.sub, Figure.one, refuse⟩
    let added := Binary64.ofBits 0x3DF49DA7E361CE4C
    Link.total? (Display.tidy Figure.one.value) links = some (Binary64.ofBits 0x3FF0000000149DA8)
      ∧ ∃ reply, reply = ((startWith Figure.one refuse).session.continueAll links).continueWith next
        ∧ reply.outcome.asked = []
        ∧ reply.outcome.result.map forgetZeroSign = .ok added
        ∧ reply.session.display = "0.0000000003" := by
  intro refuse links next added
  have htotal : Link.total? (Display.tidy Figure.one.value) links
      = some (Binary64.ofBits 0x3FF0000000149DA8) := by decide +kernel
  have hadvance : next.advance (Binary64.ofBits 0x3FF0000000149DA8) = .ok added := by
    decide +kernel
  have hsign : (Except.ok added : Except EvalError Binary64).map forgetZeroSign = .ok added := by
    decide +kernel
  have htext : Display.text added = "0.0000000003" := by decide +kernel
  obtain ⟨-, -, hchain⟩ := continueWith_of_total Figure.one refuse
  obtain ⟨hasked, hresult, hdisplay, -⟩ := hchain links _ htotal next
  rw [hadvance, hsign] at hresult
  have hshown := hdisplay added hadvance
  rw [htext] at hshown
  exact ⟨htotal, _, rfl, hasked, hresult, hshown⟩

end DeskCalculator
