import DeskCalculator.Calculator
import DeskCalculator.Proofs.SessionStates

/-!
# Keys that change places

Two keys may change places if no calculator shows in which order they were pressed.
The keys that are typed act on the session, and most keys that are struck do so too,
so hardly any two of them may. A typed key *passes* a stroke in two cases only.

* The stroke deletes in the field, and the key is not equals. Equals reads the field.
* Both are equals, which can be typed and struck.

For every other stroke but one some session tells the two orders apart. The one is a
digit for the field, which no text passes because none is pressed beside it. The field
itself never tells, for what becomes of it is up to its own keys.
-/

namespace DeskCalculator

/-! ## Keys that may change places -/

namespace Key

/-- A key that a typed character can mean. -/
def isTyped : Key → Bool
  | .digit _ | .decimal | .operator _ | .insertVariable | .equals => true
  | .delete | .clear | .fieldDigit _ | .fieldDelete => false

/-- A typed key may as well come after a stroke. -/
def Passes (key stroke : Key) : Prop :=
  key = .equals ∧ stroke = .equals ∨ key ≠ .equals ∧ stroke = .fieldDelete

instance (key stroke : Key) : Decidable (key.Passes stroke) :=
  inferInstanceAs (Decidable (_ ∨ _))

theorem isTyped_ofChar? {c : Char} {key : Key} (h : ofChar? c = some key) : key.isTyped := by
  unfold ofChar? at h
  split at h
  · cases h
    rfl
  split at h
  · cases h
    rfl
  split at h
  · cases h
    rfl
  split at h
  · cases h
    rfl
  obtain ⟨op, -, rfl⟩ := Option.map_eq_some_iff.mp h
  rfl

end Key

namespace Calculator

variable {desk other : Calculator} {key stroke : Key} {keys : List Key}

theorem press_comm (htyped : key.isTyped) (h : key.Passes stroke) (desk : Calculator) :
    (desk.press key).press stroke = (desk.press stroke).press key := by
  rcases h with ⟨rfl, rfl⟩ | ⟨hne, rfl⟩
  · rfl
  · -- only equals would look at the field
    cases key with
    | equals => exact absurd rfl hne
    | digit | decimal | operator | insertVariable => rfl
    | delete | clear | fieldDigit | fieldDelete => cases htyped

theorem pressAll_press_comm
    (h : ∀ key ∈ keys, ∀ desk : Calculator,
      (desk.press key).press stroke = (desk.press stroke).press key)
    (desk : Calculator) :
    (desk.pressAll keys).press stroke = (desk.press stroke).pressAll keys := by
  induction keys generalizing desk with
  | nil => rfl
  | cons key rest ih =>
      obtain ⟨hkey, hrest⟩ := List.forall_mem_cons.mp h
      calc (desk.pressAll (key :: rest)).press stroke
          = ((desk.press key).press stroke).pressAll rest := ih hrest (desk.press key)
        _ = (desk.press stroke).pressAll (key :: rest) := by rw [hkey desk]; rfl

/-- Keys change places with strokes if each of them does with each of the strokes. -/
theorem pressAll_comm {strokes : List Key}
    (h : ∀ key ∈ keys, ∀ stroke ∈ strokes, ∀ desk : Calculator,
      (desk.press key).press stroke = (desk.press stroke).press key)
    (desk : Calculator) : desk.pressAll (keys ++ strokes) = desk.pressAll (strokes ++ keys) := by
  -- the strokes are taken over one after another, each past all the keys
  induction strokes generalizing desk with
  | nil => rw [List.append_nil, List.nil_append]
  | cons stroke rest ih =>
      have hstroke : (desk.pressAll keys).press stroke = (desk.press stroke).pressAll keys :=
        pressAll_press_comm (fun key hkey => h key hkey stroke List.mem_cons_self) desk
      have hrest := ih (fun key hkey other hother =>
        h key hkey other (List.mem_cons_of_mem stroke hother)) (desk.press stroke)
      rw [pressAll_append] at hrest ⊢
      calc (desk.pressAll keys).pressAll (stroke :: rest)
          = ((desk.press stroke).pressAll keys).pressAll rest := by rw [← hstroke]; rfl
        _ = desk.pressAll (stroke :: rest ++ keys) := hrest

/-! ## Keys that may not -/

theorem phase_press_typed (htyped : key.isTyped) (hne : key ≠ .equals) (desk : Calculator) :
    (desk.press key).session.phase = .entry := by
  -- all of them are entries of the session
  have hentry : ∀ action : Session.Action, action.isEntry →
      (desk.session.perform action).phase = .entry :=
    fun action haction => (Session.entry_perform haction desk.session).1
  cases key with
  | digit c => exact hentry (.digit c) rfl
  | decimal => exact hentry .decimal rfl
  | operator op => exact hentry (.operator op) rfl
  | insertVariable => exact hentry (.insert VariableField.variableName) rfl
  | equals => exact absurd rfl hne
  | delete | clear | fieldDigit | fieldDelete => cases htyped

theorem phase_press_equals (desk : Calculator) : (desk.press .equals).session.phase ≠ .entry := by
  show (desk.session.equals desk.field.resolver).session.phase ≠ .entry
  unfold Session.equals
  split
  · next hrepeated =>
      -- a result is given again at a result only
      have hphase : desk.session.phase = .evaluated := by
        by_contra hother
        rw [Session.repeated?, if_neg hother] at hrepeated
        cases hrepeated
      rw [hphase]
      exact fun hentry => by cases hentry
  · dsimp only
    split
    · exact fun hentry => by cases hentry
    · exact fun hentry => by cases hentry

/-- Nothing can be typed that leaves a session as it is at the start. -/
theorem session_press_start_ne (htyped : key.isTyped) : (press {} key).session ≠ {} := by
  by_cases hne : key = .equals
  · rw [hne]
    decide +kernel
  · intro hstart
    have hphase := phase_press_typed htyped hne {}
    rw [hstart] at hphase
    cases hphase

/-- Whatever is typed is seen in some session, no matter what the field holds. -/
theorem exists_session_press_ne_self (htyped : key.isTyped) :
    ∃ s : Session, ∀ desk : Calculator, desk.session = s → (desk.press key).session ≠ s := by
  by_cases hequals : key = .equals
  · subst hequals
    refine ⟨{ phase := .entry }, fun desk _ hsame => phase_press_equals desk ?_⟩
    rw [hsame]
  · refine ⟨{}, fun desk _ hsame => ?_⟩
    have hphase := phase_press_typed htyped hequals desk
    rw [hsame] at hphase
    cases hphase

/-- The result of a calculation that was just the number twelve. -/
def atTwelve : Calculator := pressAll {} [.digit '1', .digit '2', .equals]

/-- An expression that is just X, and five in the field. -/
def atVariable : Calculator := pressAll {} [.insertVariable, .fieldDigit '5']

/-- At a result a digit starts anew, so that a delete before it is lost. -/
theorem delete_digit_ne (hphase : desk.session.phase = .evaluated)
    (hpending : desk.session.delete.pending = "1") (c : Char) :
    ((desk.press .delete).press (.digit c)).session
      ≠ ((desk.press (.digit c)).press .delete).session := by
  -- behind the delete the digit goes on with what is left of the result
  have hbehind : (desk.session.delete.digit c).pending = "1".push c := by
    have hphase' : desk.session.delete.phase ≠ .evaluated := fun h => by cases h
    rw [Session.digit, if_neg hphase']
    show (if desk.session.delete.pending = "0" then String.singleton c
      else desk.session.delete.pending.push c) = "1".push c
    rw [hpending, if_neg (by decide)]
  -- before it the digit stands alone, and is what is deleted
  have hbefore : (desk.session.digit c).delete.pending = "0" := by
    rw [Session.digit, if_pos hphase]
    exact if_neg (by rw [Session.restart, String.length_singleton]; exact Nat.lt_irrefl 1)
  intro hsame
  have htexts : "1".push c = "0" :=
    hbehind.symm.trans ((congrArg Session.pending hsame).trans hbefore)
  have hlength := congrArg String.length htexts
  rw [String.length_push] at hlength
  exact absurd hlength (by decide)

theorem delete_atTwelve_ne (htyped : key.isTyped) (hne : key ≠ .equals) :
    ((atTwelve.press .delete).press key).session
      ≠ ((atTwelve.press key).press .delete).session := by
  cases key with
  | digit c => exact delete_digit_ne (by decide +kernel) (by decide +kernel) c
  | decimal | insertVariable => decide +kernel
  | operator op => cases op <;> decide +kernel
  | equals => exact absurd rfl hne
  | delete | clear | fieldDigit | fieldDelete => cases htyped

/-- **A key that does not pass a stroke is felt.** -/
theorem exists_session_press_ne (htyped : key.isTyped)
    (hstroke : stroke.isTyped → stroke = .equals) (hdigit : ∀ c, stroke ≠ .fieldDigit c)
    (h : ¬key.Passes stroke) :
    ∃ desk : Calculator, ((desk.press stroke).press key).session
      ≠ ((desk.press key).press stroke).session := by
  by_cases hequals : key = .equals
  · subst hequals
    cases stroke with
    | equals => exact absurd (Or.inl ⟨rfl, rfl⟩) h
    | delete =>
        -- delete leaves an entry, equals does not
        refine ⟨{}, fun hsame => phase_press_equals (press {} .delete) ?_⟩
        rw [hsame]
        rfl
    | clear => exact ⟨{}, session_press_start_ne htyped⟩
    | fieldDelete => exact ⟨atVariable, by decide +kernel⟩
    | fieldDigit c => exact absurd rfl (hdigit c)
    | digit | decimal | operator | insertVariable => cases hstroke rfl
  · cases stroke with
    | equals =>
        -- a key behind equals is an entry, equals behind the key is none
        refine ⟨{}, fun hsame => phase_press_equals (press {} key) ?_⟩
        rw [← hsame]
        exact phase_press_typed htyped hequals _
    | delete => exact ⟨atTwelve, delete_atTwelve_ne htyped hequals⟩
    | clear => exact ⟨{}, session_press_start_ne htyped⟩
    | fieldDelete => exact absurd (Or.inr ⟨hequals, rfl⟩) h
    | fieldDigit c => exact absurd rfl (hdigit c)
    | digit | decimal | operator | insertVariable => cases hstroke rfl

/-- **A typed key passes a stroke exactly if no session tells in which order they came.** -/
theorem passes_iff (htyped : key.isTyped) (hstroke : stroke.isTyped → stroke = .equals)
    (hdigit : ∀ c, stroke ≠ .fieldDigit c) :
    key.Passes stroke ↔ ∀ desk : Calculator, ((desk.press stroke).press key).session
      = ((desk.press key).press stroke).session := by
  constructor
  · intro h desk
    rw [press_comm htyped h]
  · intro h
    by_contra hnot
    obtain ⟨desk, hne⟩ := exists_session_press_ne htyped hstroke hdigit hnot
    exact hne (h desk)

/-! ## The field -/

/-- The keys of the field act on it alone. -/
theorem field_press_congr (h : desk.field = other.field) (key : Key) :
    (desk.press key).field = (other.press key).field := by
  cases key with
  | fieldDigit c => exact congrArg (VariableField.digit c) h
  | fieldDelete => exact congrArg VariableField.delete h
  | digit | decimal | operator | insertVariable | equals | delete | clear => exact h

theorem field_pressAll_congr (h : desk.field = other.field) (keys : List Key) :
    (desk.pressAll keys).field = (other.pressAll keys).field := by
  induction keys generalizing desk other with
  | nil => exact h
  | cons key rest ih => exact ih (field_press_congr h key)

theorem field_press_typed (htyped : key.isTyped) (desk : Calculator) :
    (desk.press key).field = desk.field := by
  cases key with
  | digit | decimal | operator | insertVariable | equals => rfl
  | delete | clear | fieldDigit | fieldDelete => cases htyped

theorem field_pressAll_typed (htyped : ∀ key ∈ keys, key.isTyped) (desk : Calculator) :
    (desk.pressAll keys).field = desk.field := by
  induction keys generalizing desk with
  | nil => rfl
  | cons key rest ih =>
      obtain ⟨hkey, hrest⟩ := List.forall_mem_cons.mp htyped
      exact (ih hrest (desk.press key)).trans (field_press_typed hkey desk)

end Calculator

end DeskCalculator
