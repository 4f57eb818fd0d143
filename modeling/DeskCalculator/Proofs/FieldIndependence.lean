import DeskCalculator.Proofs.FirstName
import DeskCalculator.Proofs.PadRuns

/-!
# Runs that do not depend on the field of the variable

The field of the variable is read by `equals` alone, and only if the row has a
name in it. So two runs of the same keys, with different texts in the field, show
the same as long as nothing is asked.

**And no longer.** There is always a text that makes the field a number whatever
digits are added to it or taken off it, and one that makes it none. With these two
texts the runs part at the first name that is asked.

A run that never inserts the variable may still ask. A result that is too large is
shown as a word, and if an operator goes on with it, the word is a name like any
other, which stands for the value of the field. As long as all results are finite
nothing that is typed or shown has a letter in it, and nothing is asked.
-/

namespace DeskCalculator

/-- A key that does not insert the variable; a digit is a decimal one. -/
def Key.sparesVariable : Key → Bool
  | .insertVariable => false
  | .digit c => c.isDigit
  | .decimal | .operator _ | .equals | .delete | .clear | .fieldDigit _ | .fieldDelete => true

/-- What is shown of a session and kept of its expression. -/
structure Session.Appearance where
  tokens : List String
  pending : String
  phase : Phase
  error : Option EvalError
  display : String
  explanation : Explanation
  deriving DecidableEq, Repr

def Session.appearance (s : Session) : Session.Appearance where
  tokens := s.tokens
  pending := s.pending
  phase := s.phase
  error := s.error
  display := s.display
  explanation := s.explanation

namespace Calculator

/-- What a key answers, if it evaluates. -/
def answer? (desk : Calculator) : Key → Option (Outcome Binary64)
  | .equals => some desk.equals.outcome
  | _ => none

/-- What the keys of a run answer, one after another. -/
def answers (desk : Calculator) : List Key → List (Outcome Binary64)
  | [] => []
  | key :: rest => (desk.answer? key).toList ++ (desk.press key).answers rest

/-- How the session appears after each key of a run. -/
def appearances (desk : Calculator) : List Key → List Session.Appearance
  | [] => []
  | key :: rest => (desk.press key).session.appearance :: (desk.press key).appearances rest

theorem forall_mem_answers_cons {desk : Calculator} {key : Key} {rest : List Key}
    {property : Outcome Binary64 → Prop} :
    (∀ answer ∈ desk.answers (key :: rest), property answer)
      ↔ (∀ answer ∈ desk.answer? key, property answer)
        ∧ ∀ answer ∈ (desk.press key).answers rest, property answer := by
  simp only [answers, List.forall_mem_append, Option.mem_toList, Option.mem_def]

/-! ## Nothing is asked -/

/-- Only a key that asks reads the field. -/
theorem session_press_eq {desk other : Calculator} (hsession : other.session = desk.session)
    {key : Key} (hasked : ∀ answer ∈ desk.answer? key, answer.asked = []) :
    (other.press key).session = (desk.press key).session
      ∧ other.answer? key = desk.answer? key := by
  cases key with
  | equals =>
      -- an evaluation that asks for nothing is the same for every field
      rcases desk.session.equals_cases with ⟨reply, -, hreply⟩ | hasks
      · have hsame : other.equals = desk.equals := by
          rw [equals, equals, hsession, hreply, hreply]
        exact ⟨congrArg Session.Reply.session hsame,
          congrArg (fun reply : Session.Reply => some reply.outcome) hsame⟩
      · exact absurd (hasked _ rfl) (hasks desk.field.resolver).1
  | fieldDigit c => exact ⟨hsession, rfl⟩
  | fieldDelete => exact ⟨hsession, rfl⟩
  | clear => exact ⟨rfl, rfl⟩
  | digit c => exact ⟨congrArg (Session.digit c) hsession, rfl⟩
  | decimal => exact ⟨congrArg Session.decimal hsession, rfl⟩
  | operator op => exact ⟨congrArg (Session.operator op) hsession, rfl⟩
  | insertVariable => exact ⟨congrArg (Session.insert VariableField.variableName) hsession, rfl⟩
  | delete => exact ⟨congrArg Session.delete hsession, rfl⟩

/-- **A run that asks nothing does not depend on the field.** -/
theorem appearances_eq {keys : List Key} {desk other : Calculator}
    (hsession : other.session = desk.session)
    (hasked : ∀ answer ∈ desk.answers keys, answer.asked = []) :
    other.appearances keys = desk.appearances keys ∧ other.answers keys = desk.answers keys := by
  induction keys generalizing desk other with
  | nil => exact ⟨rfl, rfl⟩
  | cons key rest ih =>
      obtain ⟨hnow, hrest⟩ := forall_mem_answers_cons.mp hasked
      obtain ⟨hpress, hanswer⟩ := session_press_eq hsession hnow
      obtain ⟨happear, hanswers⟩ := ih hpress hrest
      exact ⟨by rw [appearances, appearances, hpress, happear],
        by rw [answers, answers, hanswer, hanswers]⟩

end Calculator

/-! ## Something is asked -/

namespace VariableField

/-- The field starts with a stem and goes on with digits, of which some can be spared. -/
def GoesOn (stem : List Char) (spare : Nat) (field : VariableField) : Prop :=
  ∃ digits, field.text.toList = stem ++ digits ∧ (∀ c ∈ digits, c.isDigit) ∧ spare ≤ digits.length

/-- The field that starts with a stem and goes on with zeros. -/
def ofStem (stem : List Char) (spare : Nat) : VariableField :=
  ⟨String.ofList (stem ++ List.replicate spare '0')⟩

theorem goesOn_ofStem (stem : List Char) (spare : Nat) : (ofStem stem spare).GoesOn stem spare := by
  refine ⟨List.replicate spare '0', String.toList_ofList, fun c hc => ?_, ?_⟩
  · rw [List.eq_of_mem_replicate hc]
    decide
  · rw [List.length_replicate]

variable {stem : List Char} {spare : Nat} {field : VariableField}

theorem GoesOn.mono (h : field.GoesOn stem (spare + 1)) : field.GoesOn stem spare := by
  obtain ⟨digits, htext, hdigits, hspare⟩ := h
  exact ⟨digits, htext, hdigits, Nat.le_of_succ_le hspare⟩

/-- A digit is added at the end, for the stem is more than a lone zero. -/
theorem GoesOn.digit (hstem : 2 ≤ stem.length) (h : field.GoesOn stem spare) {c : Char}
    (hc : c.isDigit) : (field.digit c).GoesOn stem spare := by
  obtain ⟨digits, htext, hdigits, hspare⟩ := h
  have hlong : 2 ≤ field.text.length := by
    rw [← String.length_toList, htext, List.length_append]
    omega
  -- two characters are more than the lone zero that a digit replaces
  have hkept : ¬(field.text = "" ∨ field.text = "0") := by
    rintro (hempty | hzero)
    · rw [hempty] at hlong
      exact absurd hlong (by decide)
    · rw [hzero] at hlong
      exact absurd hlong (by decide)
  refine ⟨digits ++ [c], ?_, ?_, ?_⟩
  · rw [VariableField.digit, if_neg hkept, String.toList_push, htext, List.append_assoc]
  · exact List.forall_mem_append.mpr ⟨hdigits, List.forall_mem_singleton.mpr hc⟩
  · rw [List.length_append]
    exact Nat.le_trans hspare (Nat.le_add_right _ _)

theorem GoesOn.delete (hstem : 2 ≤ stem.length) (h : field.GoesOn stem (spare + 1)) :
    field.delete.GoesOn stem spare := by
  obtain ⟨digits, htext, hdigits, hspare⟩ := h
  have hlong : ¬field.text.length ≤ 1 := by
    rw [← String.length_toList, htext, List.length_append]
    omega
  have hne : digits ≠ [] := List.ne_nil_of_length_pos (by omega)
  refine ⟨digits.dropLast, ?_, fun c hc => hdigits c ((List.dropLast_sublist _).subset hc), ?_⟩
  · rw [VariableField.delete, if_neg hlong, Text.toList_dropLast, htext,
      List.dropLast_append_of_ne_nil hne]
  · rw [List.length_dropLast]
    omega

/-- Zero with an exponent: a number whatever digits the exponent has. -/
def knownStem : List Char := ['0', 'e']

/-- A word, and no number whatever digits come behind it. -/
def refusedStem : List Char := ['n', 'o']

theorem GoesOn.isBlank_eq_false (h : field.GoesOn stem spare)
    (hstem : stem.any Text.isBlank = false) :
    ∀ c ∈ field.text.toList, Text.isBlank c = false := by
  obtain ⟨digits, htext, hdigits, -⟩ := h
  rw [htext]
  refine List.forall_mem_append.mpr ⟨fun c hc => ?_, fun c hc => ?_⟩
  · exact Bool.eq_false_iff.mpr (List.any_eq_false.mp hstem c hc)
  · exact Numeral.isBlank_eq_false (Or.inl (hdigits c hc))

/-- The exponent of a zero may have any digits. -/
theorem exists_parse?_knownStem {digits : List Char} (hdigits : ∀ c ∈ digits, c.isDigit)
    (hne : digits ≠ []) :
    ∃ exponent, Literal.parse? (knownStem ++ digits) = some ⟨false, ['0'], [], exponent⟩ := by
  obtain ⟨c, rest, rfl⟩ := List.exists_cons_of_ne_nil hne
  have hsign := Numeral.splitSign_of_isDigit (hdigits c List.mem_cons_self) rest
  have hexponent : Literal.parseExponent? ('e' :: c :: rest)
      = some (Literal.natOfDigits (c :: rest) : Int) := by
    simp only [Literal.parseExponent?, true_or, if_true, hsign, Literal.exponentDigits?]
    rw [if_pos ⟨hne, List.all_eq_true.mpr hdigits⟩]
    rfl
  -- whatever digits follow, they are the exponent of a zero
  refine ⟨Literal.natOfDigits (c :: rest), ?_⟩
  show (Literal.parseExponent? ('e' :: c :: rest)).map _ = _
  rw [hexponent]
  rfl

theorem GoesOn.knowsAll (h : field.GoesOn knownStem 1) : field.resolver.KnowsAll := by
  have hblank := h.isBlank_eq_false (by decide)
  obtain ⟨digits, htext, hdigits, hspare⟩ := h
  obtain ⟨exponent, hparse⟩ :=
    exists_parse?_knownStem hdigits (List.ne_nil_of_length_pos hspare)
  -- the exponent cannot make a zero anything else
  have hread : readNumber? field.text = some (.zero false) := by
    rw [readNumber?_eq, Text.trim_eq_self hblank, htext, hparse]
    rfl
  have hne : field.text.toList ≠ [] := by
    rw [htext]
    exact List.cons_ne_nil _ _
  intro before name
  refine ⟨.zero false, ?_, rfl⟩
  rw [resolver, valueOf, Text.trim_eq_self hblank, if_neg hne, hread]

theorem GoesOn.refusesAll (h : field.GoesOn refusedStem spare) : field.resolver.RefusesAll := by
  have hblank := h.isBlank_eq_false (by decide)
  obtain ⟨digits, htext, hdigits, -⟩ := h
  -- no digit behind a letter turns the text into a literal
  have hparse : Literal.parse? field.text.toList = none := by
    rw [htext]
    exact Literal.parse?_eq_none (Literal.splitSign_of_isAlpha (by decide) _) (by decide)
  have hread : readNumber? field.text = none := by
    rw [readNumber?_eq, Text.trim_eq_self hblank, hparse]
    rfl
  have hne : field.text.toList ≠ [] := by
    rw [htext]
    exact List.cons_ne_nil _ _
  intro before name
  rw [resolver, valueOf, Text.trim_eq_self hblank, if_neg hne, hread]

end VariableField

namespace Calculator

/-- Keys take off or add one character of the field at most. -/
theorem goesOn_press {stem : List Char} (hstem : 2 ≤ stem.length) {spare : Nat}
    {desk : Calculator} (h : desk.field.GoesOn stem (spare + 1)) {key : Key}
    (hkey : ∀ c, key = .fieldDigit c → c.isDigit) : (desk.press key).field.GoesOn stem spare := by
  cases key with
  | fieldDigit c => exact h.mono.digit hstem (hkey c rfl)
  | fieldDelete => exact h.delete hstem
  | digit | decimal | operator | insertVariable | equals | delete | clear => exact h.mono

/-- **A key that asks shows whether the field is a number.** -/
theorem appearance_press_ne {desk other : Calculator} (hsession : other.session = desk.session)
    (hknows : desk.field.resolver.KnowsAll) (hrefuses : other.field.resolver.RefusesAll) {key : Key}
    (hasks : ¬∀ answer ∈ desk.answer? key, answer.asked = []) :
    (other.press key).session.appearance ≠ (desk.press key).session.appearance := by
  -- only an evaluation asks for anything
  have hequals : key = .equals := by
    by_contra hne
    cases key <;> first | exact hne rfl | exact hasks nofun
  subst hequals
  rcases desk.session.equals_cases with ⟨reply, hasked, hreply⟩ | hcases
  · refine absurd (fun answer hanswer => ?_) hasks
    rw [← Option.some.inj hanswer, equals, hreply]
    exact hasked
  · obtain ⟨name, hname⟩ := (hcases other.field.resolver).2.1 hrefuses
    -- one field refuses the name and shows the error, the other does not
    intro hsame
    have herror : other.equals.session.error = desk.equals.session.error :=
      congrArg Session.Appearance.error hsame
    rw [equals, equals, hsession, hname] at herror
    exact (hcases desk.field.resolver).2.2 hknows name herror.symm

/-- **A run that asks shows whether the field is a number.** -/
theorem appearances_ne {keys : List Key} (hdigits : ∀ c, .fieldDigit c ∈ keys → c.isDigit)
    {desk other : Calculator} (hsession : other.session = desk.session)
    (hknown : desk.field.GoesOn VariableField.knownStem keys.length)
    (hrefused : other.field.GoesOn VariableField.refusedStem keys.length)
    (hasks : ¬∀ answer ∈ desk.answers keys, answer.asked = []) :
    other.appearances keys ≠ desk.appearances keys := by
  induction keys generalizing desk other with
  | nil => exact absurd nofun hasks
  | cons key rest ih =>
      rw [List.length_cons] at hknown hrefused
      intro hsame
      obtain ⟨hhead, htail⟩ := List.cons.inj hsame
      -- up to the first evaluation that asks, both sessions stay the same
      by_cases hnow : ∀ answer ∈ desk.answer? key, answer.asked = []
      · have hkey : ∀ c, key = .fieldDigit c → c.isDigit :=
          fun c hc => hdigits c (hc ▸ List.mem_cons_self)
        have hknownNext : (desk.press key).field.GoesOn VariableField.knownStem rest.length :=
          goesOn_press (by decide) hknown hkey
        have hrefusedNext : (other.press key).field.GoesOn VariableField.refusedStem rest.length :=
          goesOn_press (by decide) hrefused hkey
        refine ih (fun c hc => hdigits c (List.mem_cons_of_mem key hc))
          (session_press_eq hsession hnow).1 hknownNext hrefusedNext (fun hrest => hasks ?_) htail
        exact forall_mem_answers_cons.mpr ⟨hnow, hrest⟩
      · refine appearance_press_ne hsession (VariableField.GoesOn.knowsAll ?_)
          hrefused.refusesAll hnow hhead
        obtain ⟨digits, htext, hdecimal, hspare⟩ := hknown
        exact ⟨digits, htext, hdecimal, Nat.le_trans (Nat.le_add_left 1 rest.length) hspare⟩

end Calculator

/-! ## Finite results -/

/-- A text without a character that could start a name. -/
def Nameless (text : String) : Prop := ∀ c ∈ text.toList, Token.isNameStart c = false

theorem keptByEdits_nameless : KeptByEdits Nameless where
  nothingTyped := List.forall_mem_singleton.mpr rfl
  digit hdigit := by
    simpa [Nameless] using Numeral.not_isNameStart hdigit
  addDigit htext hdigit := by
    rw [Nameless, String.toList_push]
    exact List.forall_mem_append.mpr
      ⟨htext, List.forall_mem_singleton.mpr (Numeral.not_isNameStart hdigit)⟩
  addPoint htext _ := by
    rw [Nameless, String.toList_push]
    exact List.forall_mem_append.mpr ⟨htext, List.forall_mem_singleton.mpr rfl⟩
  dropLast htext _ := by
    rw [Nameless, Text.toList_dropLast]
    exact fun c hc => htext c ((List.dropLast_sublist _).subset hc)

/-- **A finite result is shown without a letter.** -/
theorem nameless_result {v : Binary64} (h : v.isFinite) : Nameless (Display.text v) := by
  match v with
  | .finite negative rank =>
      unfold Display.text
      split
      · exact keptByEdits_nameless.nothingTyped
      · -- a finite result is a sign and a numeral, in which no letter occurs
        rw [Binary64.text_finite, Nameless, Numeral.toList_signedText]
        refine List.forall_mem_append.mpr ⟨?_, fun c hc => ?_⟩
        · cases negative with
          | false => exact List.forall_mem_nil _
          | true => exact List.forall_mem_singleton.mpr rfl
        · rcases Numeral.isDigit_or_point hc with hdigit | rfl
          · exact Numeral.not_isNameStart hdigit
          · rfl

theorem Nameless.classify?_ne {text : String} (h : Nameless text) (name : String) :
    Token.classify? text ≠ some (.operand (.name name)) := by
  intro hclass
  rcases Token.classify?_cases hclass with ⟨_, _, heq⟩ | ⟨_, hname, _⟩ | ⟨_, _, _, heq⟩
  · cases heq
  · obtain ⟨hshape, -⟩ := Bool.and_eq_true_iff.mp hname
    cases hchars : text.toList with
    | nil =>
        rw [hchars] at hshape
        cases hshape
    | cons first rest =>
        rw [hchars] at hshape
        have hfirst := h first (by rw [hchars]; exact List.mem_cons_self)
        rw [Token.isNameShape, hfirst] at hshape
        cases hshape
  · cases heq

namespace Calculator

theorem asked_eq_nil_of_nameless {desk : Calculator} (h : desk.session.MadeOf Nameless) :
    desk.equals.outcome.asked = [] := by
  refine List.eq_nil_iff_forall_not_mem.mpr fun name hname => ?_
  obtain ⟨hmem, hclass⟩ := classify?_of_mem_asked (mem_asked_evaluate hname)
  rcases (h.commit keptByEdits_nameless).tokens name hmem with hnameless | ⟨op, rfl⟩
  · exact hnameless.classify?_ne name hclass
  · rw [Token.classify?_text] at hclass
    cases hclass

/-- **A run with finite results asks nothing** if it does not insert the variable. -/
theorem asked_eq_nil_of_finite {keys : List Key} (hkeys : ∀ key ∈ keys, key.sparesVariable)
    {desk : Calculator} (h : desk.session.MadeOf Nameless)
    (hfinite : ∀ answer ∈ desk.answers keys, ∀ v, answer.result = .ok v → v.isFinite) :
    ∀ answer ∈ desk.answers keys, answer.asked = [] := by
  induction keys generalizing desk with
  | nil => exact nofun
  | cons key rest ih =>
      obtain ⟨hkey, hrest⟩ := List.forall_mem_cons.mp hkeys
      obtain ⟨hnow, hlater⟩ := forall_mem_answers_cons.mp hfinite
      -- the texts stay nameless, and only an evaluation could ask
      refine forall_mem_answers_cons.mpr ⟨fun answer hanswer => ?_, ih hrest ?_ hlater⟩
      · cases key with
        | equals => exact Option.some.inj hanswer ▸ asked_eq_nil_of_nameless h
        | _ => cases hanswer
      · refine madeOf_press keptByEdits_nameless h ?_ ?_ ?_
        · rintro c rfl
          exact hkey
        · rintro rfl
          cases hkey
        · rintro rfl v hv
          exact nameless_result (hnow _ rfl v hv)

/--
**A run that never inserts the variable depends on its field exactly when it asks.**

If nothing is asked, the run shows the same for all texts in the field, after
every key. If the digits that are added to the field are decimal, the converse
holds too. And as long as all results are finite, nothing is asked.
-/
theorem appearances_eq_iff_nothing_asked {keys : List Key}
    (hkeys : ∀ key ∈ keys, key.sparesVariable) (field : VariableField) :
    let desk : Calculator := { field }
    ((∀ answer ∈ desk.answers keys, answer.asked = []) →
        ∀ other : VariableField, ({ field := other } : Calculator).appearances keys
          = desk.appearances keys)
      ∧ ((∀ c, .fieldDigit c ∈ keys → c.isDigit) →
        (∀ one other : VariableField, ({ field := one } : Calculator).appearances keys
          = ({ field := other } : Calculator).appearances keys) →
        ∀ answer ∈ desk.answers keys, answer.asked = [])
      ∧ ((∀ answer ∈ desk.answers keys, ∀ v, answer.result = .ok v → v.isFinite) →
        ∀ answer ∈ desk.answers keys, answer.asked = []) := by
  intro desk
  refine ⟨fun hasked other => ?_, fun hdigits hsame => ?_, fun hfinite => ?_⟩
  · have hsession : ({ field := other } : Calculator).session = desk.session := rfl
    exact (appearances_eq hsession hasked).1
  · by_contra hasks
    let known : Calculator := { field := .ofStem VariableField.knownStem keys.length }
    let refused : Calculator := { field := .ofStem VariableField.refusedStem keys.length }
    have hstart : refused.session = known.session := rfl
    refine appearances_ne hdigits hstart (VariableField.goesOn_ofStem _ _)
      (VariableField.goesOn_ofStem _ _) (fun hnone => hasks ?_) (hsame _ _)
    -- a run that asks nothing with one field asks nothing with another
    have hsession : desk.session = known.session := rfl
    rw [(appearances_eq hsession hnone).2]
    exact hnone
  · exact asked_eq_nil_of_finite hkeys (Session.madeOf_start keptByEdits_nameless) hfinite

/-- The variable stays out of `7 * 6 = + 1 =`, whatever is typed into its field in between. -/
theorem appearances_eq_reusedResult :
    let keys : List Key := [.digit '7', .operator .mul, .digit '6', .fieldDigit '5', .equals,
      .operator .add, .digit '1', .equals]
    (∀ key ∈ keys, key.sparesVariable)
      ∧ ∀ other : VariableField, ({ field := other } : Calculator).appearances keys
        = ({} : Calculator).appearances keys := by
  intro keys
  have hkeys : ∀ key ∈ keys, key.sparesVariable := by decide
  exact ⟨hkeys, (appearances_eq_iff_nothing_asked hkeys ⟨""⟩).1 (by decide +kernel)⟩

/-- The product of equal factors that are written with nines, and then the result and one. -/
def overflowKeys (digits factors : Nat) : List Key :=
  (List.replicate factors (List.replicate digits (.digit '9') ++ [.operator .mul])).flatten
    ++ [.digit '1', .equals, .operator .add, .digit '1', .equals]

/-- A result that is too large is asked as a name: the run shows what the field holds, and one. -/
theorem overflow_reads_field :
    let keys := overflowKeys 20 16
    (∀ key ∈ keys, key.sparesVariable)
      ∧ (({ field := ⟨""⟩ } : Calculator).pressAll keys).session.pending = "1"
      ∧ (({ field := ⟨"5"⟩ } : Calculator).pressAll keys).session.pending = "6" := by
  decide +kernel

end Calculator

end DeskCalculator
