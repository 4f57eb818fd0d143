import DeskCalculator.Proofs.FirstName
import DeskCalculator.Proofs.SessionStates

/-!
# What is left of earlier results

A result leaves two things behind that outlive it: the value that a repeated
`equals` gives again, and the explanation. Both stay in the session when the
result is edited, and nothing takes them away before the next evaluation.

Neither of them has any influence. The value is looked at in the phase
`evaluated` alone, and every edit of a result leaves this phase; the explanation
is not looked at by any action. So two sessions that differ in nothing else go on
alike under the same actions, until an evaluation or a `clear` replaces what was
left and makes them the same.

**Stale results have no influence.** Sessions that are alike stay alike, and an
edited result is evaluated again.
-/

namespace DeskCalculator.Session

/-- Two sessions that differ at most in what is left of earlier results. -/
structure Alike (s t : Session) : Prop where
  tokens : s.tokens = t.tokens
  pending : s.pending = t.pending
  phase : s.phase = t.phase
  error : s.error = t.error
  /-- At a result its value is not left over: it is the one to give again. -/
  lastValue : s.phase = .evaluated → s.lastValue = t.lastValue

variable {s t : Session}

theorem alike_refl (s : Session) : s.Alike s := ⟨rfl, rfl, rfl, rfl, fun _ => rfl⟩

namespace Alike

theorem display (h : s.Alike t) : s.display = t.display := by
  rw [Session.display, Session.display, h.error, h.pending]

theorem awaitsOperand (h : s.Alike t) : s.awaitsOperand = t.awaitsOperand := by
  rw [Session.awaitsOperand, Session.awaitsOperand, lastIs, lastIs, h.tokens, h.pending]

/-- What is committed depends on the texts alone. -/
theorem tokens_commit (h : s.Alike t) : s.commit.tokens = t.commit.tokens := by
  unfold commit lastIs
  rw [h.tokens, h.pending]
  split
  · exact h.tokens
  · split
    · split
      · exact h.tokens
      · rfl
    · rfl

theorem repeated? (h : s.Alike t) : s.repeated? = t.repeated? := by
  unfold Session.repeated?
  rw [← h.phase]
  split
  · next hphase => exact h.lastValue hphase
  · rfl

/-! ## One action -/

/-- An entry puts the same texts into both sessions. -/
theorem texts_perform (h : s.Alike t) {action : Action} (hentry : action.isEntry) :
    (s.perform action).tokens = (t.perform action).tokens
      ∧ (s.perform action).pending = (t.perform action).pending := by
  -- an entry reads the phase and the texts, and in these the two sessions agree
  cases action with
  | digit c =>
      show (s.digit c).tokens = (t.digit c).tokens ∧ (s.digit c).pending = (t.digit c).pending
      unfold Session.digit
      rw [h.phase, h.pending]
      split
      · exact ⟨rfl, rfl⟩
      · exact ⟨h.tokens, rfl⟩
  | decimal =>
      show s.decimal.tokens = t.decimal.tokens ∧ s.decimal.pending = t.decimal.pending
      unfold Session.decimal
      rw [h.phase, h.pending]
      split
      · exact ⟨rfl, rfl⟩
      · exact ⟨h.tokens, rfl⟩
  | operator op =>
      show (s.operator op).tokens = (t.operator op).tokens ∧ nothingTyped = nothingTyped
      unfold Session.operator
      dsimp only
      -- whether the last operator is replaced depends on the texts only
      rw [h.phase, h.pending, h.awaitsOperand, h.tokens, h.tokens_commit]
      exact ⟨rfl, rfl⟩
  | insert name =>
      show (s.insert name).tokens = (t.insert name).tokens
        ∧ (s.insert name).pending = (t.insert name).pending
      unfold Session.insert
      rw [h.phase, h.pending, h.tokens, h.tokens_commit]
      split
      · exact ⟨rfl, rfl⟩
      · exact ⟨rfl, rfl⟩
  | delete =>
      show s.delete.tokens = t.delete.tokens ∧ s.delete.pending = t.delete.pending
      unfold Session.delete
      dsimp only
      rw [h.phase, h.tokens, h.pending]
      exact ⟨rfl, rfl⟩
  | clear | remove | equals => cases hentry

theorem remove (h : s.Alike t) (index : Nat) : (s.remove index).Alike (t.remove index) := by
  unfold Session.remove
  rw [h.tokens]
  split
  · exact h
  · exact ⟨rfl, rfl, rfl, rfl, nofun⟩

/-- **An evaluation makes the two sessions the same**, whatever was left in them. -/
theorem equals_of_not_repeated (h : s.Alike t) (hnone : s.repeated? = none)
    (resolve : Resolver) : s.equals resolve = t.equals resolve := by
  have hnone' : t.repeated? = none := h.repeated?.symm.trans hnone
  rw [Session.equals_of_not_repeated hnone, Session.equals_of_not_repeated hnone',
    h.tokens_commit]
  unfold replyTo succeed
  rw [h.tokens_commit]

theorem outcome_equals (h : s.Alike t) (resolve : Resolver) :
    (s.equals resolve).outcome = (t.equals resolve).outcome := by
  cases hrepeated : s.repeated? with
  | none => rw [h.equals_of_not_repeated hrepeated]
  | some value =>
      have hrepeated' : t.repeated? = some value := h.repeated?.symm.trans hrepeated
      rw [Session.equals, Session.equals, hrepeated, hrepeated']

theorem session_equals (h : s.Alike t) (resolve : Resolver) :
    (s.equals resolve).session.Alike (t.equals resolve).session := by
  cases hrepeated : s.repeated? with
  | none =>
      rw [h.equals_of_not_repeated hrepeated]
      exact alike_refl _
  | some value =>
      -- a repeated `equals` leaves both sessions as they are
      have hrepeated' : t.repeated? = some value := h.repeated?.symm.trans hrepeated
      rw [Session.equals, Session.equals, hrepeated, hrepeated']
      exact h

/-- **Every action keeps sessions alike.** -/
theorem perform (h : s.Alike t) (action : Action) :
    (s.perform action).Alike (t.perform action) := by
  by_cases hentry : action.isEntry
  · obtain ⟨hphase, herror⟩ := entry_perform hentry s
    obtain ⟨hphase', herror'⟩ := entry_perform hentry t
    obtain ⟨htokens, hpending⟩ := h.texts_perform hentry
    refine ⟨htokens, hpending, hphase.trans hphase'.symm, herror.trans herror'.symm, ?_⟩
    -- an entry leaves the phase in which the last value matters
    intro hevaluated
    rw [hphase] at hevaluated
    cases hevaluated
  · cases action with
    | clear => exact alike_refl {}
    | remove index => exact h.remove index
    | equals resolve => exact h.session_equals resolve
    | digit | decimal | operator | insert | delete => exact absurd rfl hentry

/-! ## Runs -/

theorem performAll (h : s.Alike t) (actions : List Action) :
    (s.performAll actions).Alike (t.performAll actions) := by
  induction actions generalizing s t with
  | nil => exact h
  | cons action rest ih => exact ih (h.perform action)

end Alike

/-- An action that replaces what is left of earlier results: a `clear` or an evaluation. -/
def replacesResult (s : Session) (action : Action) : Bool :=
  match action with
  | .clear => true
  | action => (s.resolver? action).isSome

/-- Some action of a run replaces what was left of earlier results at its start. -/
def replacesResultIn (s : Session) : List Action → Bool
  | [] => false
  | action :: more => s.replacesResult action || (s.perform action).replacesResultIn more

theorem Alike.perform_eq (h : s.Alike t) {action : Action} (hnew : s.replacesResult action) :
    s.perform action = t.perform action := by
  cases action with
  | clear => rfl
  | equals resolve =>
      -- what replaces the result is not a repeated `equals`
      have hnone : s.repeated? = none := by
        unfold replacesResult resolver? at hnew
        cases hrepeated : s.repeated? with
        | none => rfl
        | some value =>
            rw [hrepeated] at hnew
            cases hnew
      exact congrArg Reply.session (h.equals_of_not_repeated hnone resolve)
  | digit | decimal | operator | insert | delete | remove => cases hnew

/-- From the first evaluation or `clear` on, the two sessions are the same. -/
theorem Alike.performAll_eq (h : s.Alike t) {actions : List Action}
    (hnew : s.replacesResultIn actions) : s.performAll actions = t.performAll actions := by
  induction actions generalizing s t with
  | nil => cases hnew
  | cons action rest ih =>
      rw [performAll_cons, performAll_cons]
      rcases Bool.or_eq_true_iff.mp hnew with hfirst | hlater
      · rw [h.perform_eq hfirst]
      · exact ih (h.perform action) hlater

/-! ## Edited results -/

/-- An action that changes the texts of the session without clearing it or evaluating. -/
def Edits (s : Session) : Action → Prop
  | .digit _ | .decimal | .operator _ | .insert _ | .delete => True
  | .remove index => index < s.tokens.length
  | .clear | .equals _ => False

def Action.isEquals : Action → Bool
  | .equals _ => true
  | _ => false

theorem phase_perform_of_edits {action : Action} (h : s.Edits action) :
    (s.perform action).phase = .entry := by
  cases action with
  | remove index =>
      show (s.remove index).phase = .entry
      have hindex : s.tokens[index]? = some s.tokens[index] := List.getElem?_eq_getElem h
      unfold Session.remove
      rw [hindex]
      rfl
  | digit | decimal | operator | insert | delete => exact (entry_perform rfl s).1
  | clear | equals => cases h

/-- Only `equals` leads to a result. -/
theorem phase_perform_ne_evaluated (h : s.phase ≠ .evaluated) {action : Action}
    (hequals : action.isEquals = false) : (s.perform action).phase ≠ .evaluated := by
  cases action with
  | clear => exact nofun
  | remove index =>
      show (s.remove index).phase ≠ .evaluated
      unfold Session.remove
      split
      · exact h
      · exact nofun
  | equals resolve => cases hequals
  | digit | decimal | operator | insert | delete =>
      rw [(entry_perform rfl s).1]
      exact nofun

theorem phase_performAll_ne_evaluated (h : s.phase ≠ .evaluated) {actions : List Action}
    (hequals : ∀ action ∈ actions, action.isEquals = false) :
    (s.performAll actions).phase ≠ .evaluated := by
  induction actions generalizing s with
  | nil => exact h
  | cons action rest ih =>
      obtain ⟨hfirst, hrest⟩ := List.forall_mem_cons.mp hequals
      exact ih (phase_perform_ne_evaluated h hfirst) hrest

theorem performAll_nil (s : Session) : s.performAll [] = s := rfl

theorem result_replyTo (s : Session) (outcome : Outcome (Binary64 × Explanation)) :
    (s.replyTo outcome).outcome.result = outcome.result.map Prod.fst := by
  unfold replyTo
  split
  · next hok => rw [hok]; rfl
  · next herror => rw [herror]; rfl

/-- **An edited result is evaluated again.** -/
theorem outcome_equals_of_edits {edit : Action} (h : s.Edits edit) {more : List Action}
    (hmore : ∀ action ∈ more, action.isEquals = false) (resolve : Resolver) :
    let edited := (s.perform edit).performAll more
    let evaluated := (evaluate resolve edited.commit.tokens).outcome
    (edited.equals resolve).outcome.result = evaluated.result.map Prod.fst
      ∧ (edited.equals resolve).outcome.asked = evaluated.asked := by
  intro edited evaluated
  have hentry : (s.perform edit).phase ≠ .evaluated := by
    rw [phase_perform_of_edits h]
    exact nofun
  -- no result is left to repeat, so `equals` evaluates the row
  have hnone : edited.repeated? = none := if_neg (phase_performAll_ne_evaluated hentry hmore)
  rw [equals_of_not_repeated hnone]
  exact ⟨result_replyTo _ _, asked_replyTo _ _⟩

/--
**Stale results have no influence.**

After any actions two sessions that are alike have the same texts, phase, error
and display, and `equals` gives the same answer in both. They have the same
explanation too, once some action has evaluated or cleared. And when a result has
been edited, `equals` evaluates the row anew, whatever else is done in between.
-/
theorem performAll_of_alike (h : s.Alike t) :
    (∀ actions : List Action,
      let first := s.performAll actions
      let second := t.performAll actions
      first.tokens = second.tokens ∧ first.pending = second.pending
        ∧ first.phase = second.phase ∧ first.error = second.error
        ∧ first.display = second.display
        ∧ (∀ resolve : Resolver, (first.equals resolve).outcome = (second.equals resolve).outcome)
        ∧ (s.replacesResultIn actions → first.explanation = second.explanation))
      ∧ ∀ (edit : Action) (more : List Action),
        s.Edits edit → (∀ action ∈ more, action.isEquals = false) →
        ∀ resolve : Resolver,
          let edited := (s.perform edit).performAll more
          let evaluated := (evaluate resolve edited.commit.tokens).outcome
          (edited.equals resolve).outcome.result = evaluated.result.map Prod.fst
            ∧ (edited.equals resolve).outcome.asked = evaluated.asked := by
  refine ⟨?_, ?_⟩
  · intro actions first second
    -- all that is shown follows from being alike, which every run keeps up
    have hsame : first.Alike second := h.performAll actions
    refine ⟨hsame.tokens, hsame.pending, hsame.phase, hsame.error, hsame.display,
      hsame.outcome_equals, ?_⟩
    intro hnew
    exact congrArg explanation (h.performAll_eq hnew)
  · intro edit more hedit hmore resolve
    exact outcome_equals_of_edits hedit hmore resolve

/-- A resolver that knows no name. -/
def knowsNothing : Resolver := fun _ name => .error (.invalidVariable name)

/-- The session after `1 + 1 =`. -/
def onePlusOne : Session :=
  ({} : Session).performAll [.digit '1', .operator .add, .digit '1', .equals knowsNothing]

/-- The result of `1 + 1` edited by the digit `9`. -/
def nineOverTwo : Session := onePlusOne.perform (.digit '9')

/-- Nothing but the digit `9`. -/
def nineAlone : Session := ({} : Session).perform (.digit '9')

/--
What is left of `1 + 1` when `9` is typed over its result is of no account: the
next `equals` gives 9, and leaves the explanation of `9` alone.
-/
theorem performAll_of_alike_nineOverTwo :
    onePlusOne.Edits (.digit '9') ∧ nineOverTwo.Alike nineAlone
      ∧ nineOverTwo.lastValue ≠ nineAlone.lastValue
      ∧ nineOverTwo.explanation ≠ nineAlone.explanation
      ∧ (nineOverTwo.equals knowsNothing).outcome.result
        = .ok (Binary64.ofBits 0x4022000000000000)
      ∧ (nineOverTwo.performAll [.equals knowsNothing]).explanation
        = (nineAlone.performAll [.equals knowsNothing]).explanation := by
  have hedits : onePlusOne.Edits (.digit '9') := trivial
  have hphase : nineOverTwo.phase ≠ .evaluated := by decide +kernel
  have halike : nineOverTwo.Alike nineAlone :=
    ⟨by decide +kernel, by decide +kernel, by decide +kernel, by decide +kernel,
      fun hevaluated => absurd hevaluated hphase⟩
  obtain ⟨hruns, -⟩ := performAll_of_alike halike
  have hnew : nineOverTwo.replacesResultIn [.equals knowsNothing] := by decide +kernel
  obtain ⟨-, -, -, -, -, -, hexplanation⟩ := hruns [.equals knowsNothing]
  obtain ⟨-, hanew⟩ := performAll_of_alike (alike_refl onePlusOne)
  obtain ⟨hresult, -⟩ := hanew (.digit '9') [] hedits nofun knowsNothing
  rw [performAll_nil, ← nineOverTwo] at hresult
  have hrow : (evaluate knowsNothing nineOverTwo.commit.tokens).outcome.result.map Prod.fst
      = .ok (Binary64.ofBits 0x4022000000000000) := by decide +kernel
  exact ⟨hedits, halike, by decide +kernel, by decide +kernel, hresult.trans hrow,
    hexplanation hnew⟩

end DeskCalculator.Session
