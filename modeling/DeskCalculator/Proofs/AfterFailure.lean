import DeskCalculator.Proofs.FirstName

/-!
# After a failed evaluation

A failed `equals` has committed the pending text by the time it fails. Nothing of
this is left: the session is as at the start, whatever was typed or computed
before, and only the error is recorded.

No action looks at the recorded error. Every entry takes it away, and so do
`clear` and an `equals` that evaluates; to `remove` there is nothing to take out.
So what is done next has the same effect as at the start, and the error is gone
with the first action that is not a `remove`.

**A failure leaves no trace but its error.**
-/

namespace DeskCalculator.Session

/-- An action that takes a committed text out of the row. -/
def Action.isRemove : Action → Bool
  | .remove _ => true
  | _ => false

/-! ## The recorded error is not looked at -/

section RecordedError

variable (error : Option EvalError) (s : Session)

/-- The session with another error recorded. -/
def withError : Session := { s with error := error }

theorem commit_withError : (s.withError error).commit = s.commit.withError error := by
  -- no branch depends on the error
  show (if s.pending = "" then s.withError error
    else if s.pending = nothingTyped then
      if s.lastIs Token.isOperandText then s.withError error
      else { s.withError error with tokens := s.tokens ++ [nothingTyped] }
    else { s.withError error with tokens := s.tokens ++ [s.pending], pending := nothingTyped })
    = s.commit.withError error
  unfold commit
  split
  · rfl
  · split
    · split
      · rfl
      · rfl
    · rfl

theorem operator_withError (op : Operator) :
    (s.withError error).operator op = s.operator op := by
  unfold operator
  rw [commit_withError]
  rfl

theorem insert_withError (name : String) : (s.withError error).insert name = s.insert name := by
  unfold insert
  rw [commit_withError]
  rfl

theorem replyTo_withError (outcome : Outcome (Binary64 × Explanation)) :
    (s.withError error).replyTo outcome = s.replyTo outcome := by
  unfold replyTo
  split
  · rfl
  · rfl

variable {s}

/-- An `equals` that evaluates replies alike, whatever error was recorded. -/
theorem equals_withError (h : s.repeated? = none) (resolve : Resolver) :
    (s.withError error).equals resolve = s.equals resolve := by
  have hwith : (s.withError error).repeated? = none := h
  rw [equals_of_not_repeated h, equals_of_not_repeated hwith, commit_withError, replyTo_withError]
  rfl

theorem outcome_equals_withError (resolve : Resolver) :
    ((s.withError error).equals resolve).outcome = (s.equals resolve).outcome := by
  cases hrepeated : s.repeated? with
  | none => rw [equals_withError error hrepeated]
  | some value =>
      have hwith : (s.withError error).repeated? = some value := hrepeated
      rw [equals, equals, hrepeated, hwith]

/-- **No action looks at the recorded error, and only `remove` may keep it** beside a repeat. -/
theorem perform_withError (h : s.repeated? = none) {action : Action}
    (hremove : action.isRemove = false) :
    (s.withError error).perform action = s.perform action := by
  cases action with
  | digit c => rfl
  | decimal => rfl
  | operator op => exact operator_withError error s op
  | insert name => exact insert_withError error s name
  | clear => rfl
  | delete => rfl
  | remove index => cases hremove
  | equals resolve => exact congrArg Reply.session (equals_withError error h resolve)

end RecordedError

/-! ## Runs after a failure -/

/-- **A failed `equals` resets the session** and records the error. -/
theorem session_of_failed {s : Session} {resolve : Resolver} {error : EvalError}
    (h : (s.equals resolve).outcome.result = .error error) :
    (s.equals resolve).session = fail error := by
  cases hrepeated : s.repeated? with
  | some value =>
      -- a repeated result is no failure
      rw [equals, hrepeated] at h
      cases h
  | none =>
      rw [equals_of_not_repeated hrepeated] at h ⊢
      unfold replyTo at h ⊢
      split at h
      · cases h
      · cases h
        rfl

/-- Where no text is committed, there is nothing to take out. -/
theorem performAll_of_removes {s : Session} (h : s.tokens = []) {actions : List Action}
    (hremoves : ∀ action ∈ actions, action.isRemove) : s.performAll actions = s := by
  induction actions with
  | nil => rfl
  | cons action rest ih =>
      obtain ⟨haction, hrest⟩ := List.forall_mem_cons.mp hremoves
      -- there is nothing to take out of an empty row
      have hsame : s.perform action = s := by
        cases action with
        | remove index =>
            show s.remove index = s
            rw [remove, h]
            rfl
        | digit | decimal | operator | insert | clear | delete | equals => cases haction
      rw [performAll_cons, hsame, ih hrest]

/-- After the first action that is not a `remove`, nothing is left of a failure. -/
theorem performAll_fail {error : EvalError} {actions : List Action}
    (h : ∃ action ∈ actions, ¬action.isRemove) :
    (fail error).performAll actions = ({} : Session).performAll actions := by
  induction actions with
  | nil =>
      obtain ⟨action, hmem, -⟩ := h
      cases hmem
  | cons action rest ih =>
      rw [performAll_cons, performAll_cons]
      cases hremove : action.isRemove with
      | false =>
          have hstart : ({} : Session).repeated? = none := rfl
          have hfirst : (fail error).perform action = ({} : Session).perform action :=
            perform_withError (some error) hstart hremove
          rw [hfirst]
      | true =>
          -- both sessions stay as they are
          have hone : ∀ a ∈ [action], a.isRemove := by
            intro a ha
            rw [List.mem_singleton.mp ha]
            exact hremove
          have hfailed : (fail error).perform action = fail error :=
            performAll_of_removes rfl hone
          have hfresh : ({} : Session).perform action = {} := performAll_of_removes rfl hone
          rw [hfailed, hfresh]
          refine ih ?_
          obtain ⟨other, hmem, hother⟩ := h
          rcases List.mem_cons.mp hmem with rfl | hrest
          · exact absurd hremove hother
          · exact ⟨other, hrest, hother⟩

/-- The two runs differ in nothing but the recorded error. -/
theorem performAll_fail_eq_withError (error : EvalError) (actions : List Action) :
    (fail error).performAll actions
      = (({} : Session).performAll actions).withError ((fail error).performAll actions).error := by
  by_cases h : ∃ action ∈ actions, ¬action.isRemove
  · -- the first other action takes the error away
    rw [performAll_fail h]
    rfl
  · -- there is no text to remove in either session
    have hremoves : ∀ action ∈ actions, action.isRemove := by
      intro action hmem
      by_contra hother
      exact h ⟨action, hmem, hother⟩
    have hfailed : (fail error).performAll actions = fail error := performAll_of_removes rfl hremoves
    have hfresh : ({} : Session).performAll actions = {} := performAll_of_removes rfl hremoves
    rw [hfailed, hfresh]
    rfl

/--
**A failed `equals` leaves no trace but its error.**

The session is the one at the start, with the error recorded. After any actions it
is the session that the same actions lead to from the start, in everything but the
error, and `equals` gives the same answer in both; and if one of the actions was
not a `remove`, the error is the same too.
-/
theorem performAll_of_failed {s : Session} {resolve : Resolver} {error : EvalError}
    (h : (s.equals resolve).outcome.result = .error error) :
    (s.equals resolve).session = { ({} : Session) with error := some error }
      ∧ ∀ actions : List Action,
        let failed := (s.equals resolve).session.performAll actions
        let fresh := ({} : Session).performAll actions
        failed = { fresh with error := failed.error }
          ∧ (∀ again : Resolver, (failed.equals again).outcome = (fresh.equals again).outcome)
          ∧ ((∃ action ∈ actions, ¬action.isRemove) → failed = fresh) := by
  have hsession := session_of_failed h
  refine ⟨hsession, ?_⟩
  intro actions failed fresh
  have hfailed : failed = (fail error).performAll actions :=
    congrArg (performAll · actions) hsession
  have hsame : failed = fresh.withError failed.error := by
    rw [hfailed]
    exact performAll_fail_eq_withError error actions
  refine ⟨hsame, ?_, ?_⟩
  · -- the runs differ in the error at most, and `equals` does not read it
    intro again
    rw [hsame]
    exact outcome_equals_withError _ again
  · intro hother
    rw [hfailed]
    exact performAll_fail hother

/-- The keys `5 / 0`. -/
def divisionByNothing : List Action := [.digit '5', .operator .div, .digit '0']

/-- After `5 / 0 =`, `remove` changes nothing, and `4` is typed as at the start. -/
theorem performAll_of_failed_division :
    let refuse : Resolver := fun _ name => .error (.invalidVariable name)
    let s := ({} : Session).performAll divisionByNothing
    (s.equals refuse).outcome.result = .error .divisionByZero
      ∧ (s.equals refuse).session = { ({} : Session) with error := some .divisionByZero }
      ∧ ((s.equals refuse).session.performAll [.remove 1]).display = "Erreur"
      ∧ (s.equals refuse).session.performAll [.remove 1, .digit '4']
        = ({} : Session).performAll [.remove 1, .digit '4'] := by
  intro refuse s
  have hresult : (s.equals refuse).outcome.result = .error .divisionByZero := by decide +kernel
  have hdisplay : ((fail .divisionByZero).performAll [.remove 1]).display = "Erreur" := rfl
  obtain ⟨hsession, hrun⟩ := performAll_of_failed hresult
  have hother : ∃ action ∈ [Action.remove 1, .digit '4'], ¬action.isRemove :=
    ⟨.digit '4', List.mem_cons_of_mem _ List.mem_cons_self, nofun⟩
  refine ⟨hresult, hsession, ?_, (hrun [.remove 1, .digit '4']).2.2 hother⟩
  rw [hsession]
  exact hdisplay

end DeskCalculator.Session
