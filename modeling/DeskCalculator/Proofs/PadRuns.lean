import DeskCalculator.Proofs.AskedNames
import DeskCalculator.Proofs.PadTexts
import DeskCalculator.Proofs.SessionTexts
import DeskCalculator.Window

/-!
# Runs of the pad

Whatever buttons of the pad are pressed, the pending text is one that the pad can
make, and every committed text was pending once or is an operator. For a key adds
to the pending text, takes its last character off, replaces it, or commits it; and
a result is shown as a text that can be pending.

So the texts that `equals` evaluates are proper, with the exceptions that hold of
pending texts. A name that is pending after a result gets the next digits behind
it, for one: `1 = X 5 =` evaluates the single name `X5`.

**Nothing is dropped** from a row without spoiled texts, and nothing but the
variable is asked for.
-/

namespace DeskCalculator

/-- The keys of the buttons. -/
def padKeys : List Key := pad.flatten.map Button.key

/-- A key that the pad has, whatever its digit or operator. -/
def Key.isOnPad : Key → Bool
  | .digit c => c.isDigit
  | .decimal | .operator _ | .insertVariable | .equals | .delete | .clear => true
  | .fieldDigit _ | .fieldDelete => false

theorem isOnPad_of_mem {key : Key} (h : key ∈ padKeys) : key.isOnPad := by
  have hall : ∀ key ∈ padKeys, key.isOnPad := by decide
  exact hall key h

/-- What the pad can commit: a text that was pending, or an operator. -/
def IsRowText (text : String) : Prop := IsPadText text.toList ∨ ∃ op : Operator, text = op.text

theorem isPadText_zero : IsPadText Session.nothingTyped.toList := IsPadText.digit rfl

theorem isPadText_variable : IsPadText VariableField.variableName.toList :=
  IsPadText.word (w := VariableField.variableName) List.mem_cons_self (List.prefix_refl _)
    (by decide)

theorem keptByEdits_isPadText : KeptByEdits fun text => IsPadText text.toList where
  nothingTyped := isPadText_zero
  digit hdigit := by
    rw [String.toList_singleton]
    exact IsPadText.digit hdigit
  addDigit htext hdigit := by
    rw [String.toList_push]
    exact htext.addDigit hdigit
  addPoint htext hpoint := by
    rw [String.toList_push]
    exact htext.addPoint hpoint
  dropLast htext hlong := by
    rw [Text.toList_dropLast]
    exact htext.dropLast (by rwa [String.length_toList])

namespace Session

/-- A session in which nothing stands that the pad cannot make. -/
structure FromPad (s : Session) : Prop where
  tokens : ∀ text ∈ s.tokens, IsRowText text
  pending : IsPadText s.pending.toList

theorem fromPad_iff_madeOf {s : Session} :
    s.FromPad ↔ s.MadeOf fun text => IsPadText text.toList :=
  ⟨fun h => ⟨h.tokens, h.pending⟩, fun h => ⟨h.tokens, h.pending⟩⟩

theorem fromPad_start : ({} : Session).FromPad :=
  fromPad_iff_madeOf.mpr (madeOf_start keptByEdits_isPadText)

theorem FromPad.commit {s : Session} (h : s.FromPad) : s.commit.FromPad :=
  fromPad_iff_madeOf.mpr ((fromPad_iff_madeOf.mp h).commit keptByEdits_isPadText)

theorem FromPad.delete {s : Session} (h : s.FromPad) : s.delete.FromPad :=
  fromPad_iff_madeOf.mpr ((fromPad_iff_madeOf.mp h).delete keptByEdits_isPadText)

end Session

namespace Calculator

/-- **No button brings in anything that the pad cannot make.** -/
theorem fromPad_press {desk : Calculator} (h : desk.session.FromPad) {key : Key}
    (hkey : key.isOnPad) : (desk.press key).session.FromPad := by
  refine Session.fromPad_iff_madeOf.mpr (madeOf_press keptByEdits_isPadText
    (Session.fromPad_iff_madeOf.mp h) ?_ (fun _ => isPadText_variable)
    (fun _ v _ => IsPadText.text_result v))
  rintro c rfl
  exact hkey

theorem fromPad_pressAll {keys : List Key} (hkeys : ∀ key ∈ keys, key ∈ padKeys) {desk : Calculator}
    (h : desk.session.FromPad) : (desk.pressAll keys).session.FromPad := by
  induction keys generalizing desk with
  | nil => exact h
  | cons key rest ih =>
      have hfirst := isOnPad_of_mem (hkeys key List.mem_cons_self)
      exact ih (fun k hk => hkeys k (List.mem_cons_of_mem key hk)) (fromPad_press h hfirst)

/-- The names asked by `equals` are asked by an evaluation of the committed row. -/
theorem mem_asked_evaluate {s : Session} {resolve : Resolver} {name : String}
    (h : name ∈ (s.equals resolve).outcome.asked) :
    name ∈ (evaluate resolve s.commit.tokens).outcome.asked := by
  unfold Session.equals at h
  split at h
  · cases h
  · dsimp only at h
    split at h <;> exact h

/--
**The pad hands over proper texts, but for the spoiled ones.**

Each text that `equals` evaluates after a run of the pad is either proper or
spoiled. If none is spoiled, every text is a token, so none is dropped, and
nothing but the variable is asked for.
-/
theorem proper_of_pressAll {keys : List Key} (hkeys : ∀ key ∈ keys, key ∈ padKeys)
    (field : VariableField) :
    let desk := ({ field } : Calculator).pressAll keys
    (∀ text ∈ desk.session.commit.tokens, Proper text ↔ ¬Spoiled text)
      ∧ ((∀ text ∈ desk.session.commit.tokens, ¬Spoiled text) →
        (∀ text ∈ desk.session.commit.tokens, (Token.classify? text).isSome)
          ∧ ∀ name ∈ desk.equals.outcome.asked, name = VariableField.variableName) := by
  intro desk
  -- the invariant of the texts, kept up by every run, is all that is needed
  have hrow : desk.session.commit.FromPad :=
    (fromPad_pressAll hkeys Session.fromPad_start).commit
  have hproper : ∀ text ∈ desk.session.commit.tokens, Proper text ↔ ¬Spoiled text := by
    intro text htext
    rcases hrow.tokens text htext with hpad | ⟨op, rfl⟩
    · exact hpad.proper_iff
    · exact proper_iff_of_operator op
  refine ⟨hproper, fun hclean => ⟨fun text htext => ?_, fun name hname => ?_⟩⟩
  · exact ((hproper text htext).mpr (hclean text htext)).classify?_isSome
  · obtain ⟨hmem, hclass⟩ := classify?_of_mem_asked (mem_asked_evaluate hname)
    exact ((hproper name hmem).mpr (hclean name hmem)).eq_variable hclass

/-- The buttons `2 . 5 * X`. -/
def scaledVariable : List Key := [.digit '2', .decimal, .digit '5', .operator .mul, .insertVariable]

theorem proper_scaledVariable :
    (∀ key ∈ scaledVariable, key ∈ padKeys)
      ∧ (({} : Calculator).pressAll scaledVariable).session.commit.tokens = ["2.5", "*", "X"]
      ∧ (∀ text ∈ ["2.5", "*", "X"], ¬Spoiled text ∧ (Token.classify? text).isSome)
      ∧ ∀ name ∈ (({} : Calculator).pressAll scaledVariable).equals.outcome.asked,
          name = VariableField.variableName := by
  have hkeys : ∀ key ∈ scaledVariable, key ∈ padKeys := by decide
  have htokens : (({} : Calculator).pressAll scaledVariable).session.commit.tokens
      = ["2.5", "*", "X"] := by decide +kernel
  have hclean : ∀ text ∈ ["2.5", "*", "X"], ¬Spoiled text := by decide +kernel
  have hrun := (proper_of_pressAll hkeys {}).2
  rw [htokens] at hrun
  obtain ⟨hkept, hasked⟩ := hrun hclean
  exact ⟨hkeys, htokens, fun text htext => ⟨hclean text htext, hkept text htext⟩, hasked⟩

/-- The buttons `1 = X 5`. -/
def editedVariable : List Key := [.digit '1', .equals, .insertVariable, .digit '5']

/-- After `1 = X 5` the single name `X5` is evaluated, and its value is asked for. -/
theorem asked_editedVariable :
    let desk := ({} : Calculator).pressAll editedVariable
    (∀ key ∈ editedVariable, key ∈ padKeys)
      ∧ desk.session.phase ≠ .evaluated
      ∧ desk.session.commit.tokens = ["X5"]
      ∧ ¬Proper "X5"
      ∧ desk.equals.outcome.asked = ["X5"] := by
  decide +kernel

/-- After `1 - 2 = DEL .` there is nothing left to evaluate. -/
example :
    let desk := ({} : Calculator).pressAll
      [.digit '1', .operator .sub, .digit '2', .equals, .delete, .decimal]
    desk.session.commit.tokens = ["-."] ∧ Token.classifyAll desk.session.commit.tokens = [] := by
  decide +kernel

end Calculator

end DeskCalculator
