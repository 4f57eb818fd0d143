import DeskCalculator.Session
import Mathlib.Data.List.Induction

/-!
# The states a session can reach

The phase, the error, the last value, the committed texts, the pending text and
the explanation are changed by separate operations. They nevertheless belong
together in every state that a run of actions leads to.

An entry leads to the phase `entry` and takes the error away, so there is nothing
to keep up. What is left are the few actions that do not enter anything: `clear`,
a failed `equals`, a successful one, and the actions that change nothing. The
texts and the explanation of a result are those of the last `equals` that
evaluated, for a repeated one leaves the session as it is.

**The result belongs to the row.** In the phase `evaluated`, evaluating the
committed texts once more gives the displayed result and the explanation.
-/

namespace DeskCalculator.Session

/-! ## Entries -/

/-- An action that types something or takes something typed back. -/
def Action.isEntry : Action → Bool
  | .digit _ | .decimal | .operator _ | .insert _ | .delete => true
  | .clear | .remove _ | .equals _ => false

/-- **Every entry leads to the phase `entry` and takes the error away.** -/
theorem entry_perform {action : Action} (h : action.isEntry) (s : Session) :
    (s.perform action).phase = .entry ∧ (s.perform action).error = none := by
  cases action with
  | digit c =>
      show (s.digit c).phase = .entry ∧ (s.digit c).error = none
      unfold digit
      split <;> exact ⟨rfl, rfl⟩
  | decimal =>
      show s.decimal.phase = .entry ∧ s.decimal.error = none
      unfold decimal
      split <;> exact ⟨rfl, rfl⟩
  | operator op => exact ⟨rfl, rfl⟩
  | insert name =>
      show (s.insert name).phase = .entry ∧ (s.insert name).error = none
      unfold insert
      split <;> exact ⟨rfl, rfl⟩
  | delete => exact ⟨rfl, rfl⟩
  | clear | remove | equals => cases h

/-! ## The last evaluation -/

/-- The resolver an action evaluates with. A repeated `equals` evaluates nothing. -/
def resolver? (s : Session) : Action → Option Resolver
  | .equals resolve => if s.repeated?.isSome then none else some resolve
  | _ => none

/-- The resolver of the last `equals` in a run that evaluated. -/
def lastResolver? (s : Session) : List Action → Option Resolver
  | [] => none
  | action :: more => ((s.perform action).lastResolver? more).or (s.resolver? action)

theorem lastResolver?_append (s : Session) (actions more : List Action) :
    s.lastResolver? (actions ++ more)
      = ((s.performAll actions).lastResolver? more).or (s.lastResolver? actions) := by
  induction actions generalizing s with
  | nil => exact (Option.or_none).symm
  | cons action actions ih =>
      rw [List.cons_append, lastResolver?, lastResolver?, ih, performAll_cons, Option.or_assoc]

/-! ## What belongs together -/

/-- A value and an explanation that come from evaluating the committed texts. -/
structure Answers (s : Session) (resolve : Resolver) (value : Binary64) : Prop where
  lastValue : s.lastValue = some value
  pending : s.pending = Display.text value
  evaluate : (evaluate resolve s.tokens).outcome.result = .ok (value, s.explanation)

/-- What a session keeps up in every state, `last` being the resolver of the last evaluation. -/
structure Coherent (s : Session) (last : Option Resolver) : Prop where
  idle : s.phase = .idle → s.tokens = [] ∧ s.pending = nothingTyped
  /-- An error is all that is left of a failed evaluation. -/
  error : ∀ error, s.error = some error → s = fail error
  evaluated : s.phase = .evaluated →
    s.error = none ∧ ∃ resolve value, last = some resolve ∧ s.Answers resolve value

theorem coherent_start (last : Option Resolver) : ({} : Session).Coherent last where
  idle _ := ⟨rfl, rfl⟩
  error := nofun
  evaluated := nofun

theorem coherent_fail (error : EvalError) (last : Option Resolver) :
    (fail error).Coherent last where
  idle _ := ⟨rfl, rfl⟩
  error _ h := congrArg fail (Option.some.inj h)
  evaluated := nofun

/-- In the middle of an entry there is nothing to keep up. -/
theorem coherent_of_entry {s : Session} (hphase : s.phase = .entry) (herror : s.error = none)
    (last : Option Resolver) : s.Coherent last where
  idle h := absurd (hphase.symm.trans h) nofun
  error _ h := absurd (herror.symm.trans h) nofun
  evaluated h := absurd (hphase.symm.trans h) nofun

/-- Taking out a text that is not there changes nothing. -/
theorem coherent_remove {s : Session} {last : Option Resolver} (h : s.Coherent last) (index : Nat) :
    (s.remove index).Coherent last := by
  unfold remove
  split
  · exact h
  · exact coherent_of_entry rfl rfl last

theorem coherent_equals {s : Session} {last : Option Resolver} (h : s.Coherent last)
    (resolve : Resolver) :
    (s.equals resolve).session.Coherent ((s.resolver? (.equals resolve)).or last) := by
  unfold equals resolver?
  cases hrepeated : s.repeated? with
  | some value =>
      -- a repeated `equals` evaluates nothing, so the last resolver is the old one
      exact h
  | none =>
      cases hresult : (evaluate resolve s.commit.tokens).outcome.result with
      | error error =>
          simp only [hresult]
          exact coherent_fail error _
      | ok answer =>
          obtain ⟨value, explanation⟩ := answer
          simp only [hresult]
          exact ⟨nofun, nofun, fun _ => ⟨rfl, resolve, value, rfl, rfl, rfl, hresult⟩⟩

/-- **Every action keeps up what belongs together.** -/
theorem coherent_perform {s : Session} {last : Option Resolver} (h : s.Coherent last)
    (action : Action) : (s.perform action).Coherent ((s.resolver? action).or last) := by
  by_cases hentry : action.isEntry
  · obtain ⟨hphase, herror⟩ := entry_perform hentry s
    exact coherent_of_entry hphase herror _
  · cases action with
    | clear => exact coherent_start last
    | remove index => exact coherent_remove h index
    | equals resolve => exact coherent_equals h resolve
    | digit | decimal | operator | insert | delete => exact absurd rfl hentry

theorem coherent_performAll (actions : List Action) :
    (({} : Session).performAll actions).Coherent (({} : Session).lastResolver? actions) := by
  induction actions using List.reverseRecOn with
  | nil => exact coherent_start none
  | append_singleton actions action ih =>
      rw [performAll_append, lastResolver?_append]
      exact coherent_perform ih action

/--
**Every state that a session reaches is coherent.** Nothing is typed in the phase
`idle`; an error is shown there and alone; and a result stands in the phase
`evaluated` with the row, the value and the explanation that belong to it.
-/
theorem states_of_performAll (actions : List Action) :
    let s := ({} : Session).performAll actions
    (s.phase = .idle → s.tokens = [] ∧ s.pending = "0")
      ∧ (s.error.isSome → s.phase = .idle ∧ s.display = "Erreur" ∧ s.explanation = {})
      ∧ (s.phase = .evaluated → s.error = none
        ∧ ∃ resolve value, ({} : Session).lastResolver? actions = some resolve
          ∧ s.lastValue = some value
          ∧ s.pending = Display.text value
          ∧ (evaluate resolve s.tokens).outcome.result = .ok (value, s.explanation)) := by
  intro s
  -- all three parts are read off one invariant
  have h : s.Coherent (({} : Session).lastResolver? actions) := coherent_performAll actions
  refine ⟨h.idle, fun herror => ?_, fun hphase => ?_⟩
  · obtain ⟨error, herror⟩ := Option.isSome_iff_exists.mp herror
    rw [h.error error herror]
    exact ⟨rfl, rfl, rfl⟩
  · obtain ⟨hnone, resolve, value, hlast, hanswers⟩ := h.evaluated hphase
    exact ⟨hnone, resolve, value, hlast, hanswers.lastValue, hanswers.pending, hanswers.evaluate⟩

end DeskCalculator.Session
