import DeskCalculator.Proofs.PadRuns
import Mathlib.Data.List.Chain

/-!
# Where operators stand in a committed row

A row can be evaluated only if every operator has an operand before it, and the
session sees to that while the row is typed: an operator replaces one that was
typed just before, and a `0` is committed where an operand is due. This works as
long as no operator is pending, for a pending text is committed without a look at
what it is.

One text that the pad can make is an operator: the minus sign of a negative
result, once `delete` has taken off all that stood behind it. That is the only
way. So the operators of a run stand in their places in every state, unless
`delete` is pressed when a minus sign and one more character are pending.
-/

namespace DeskCalculator

/-! ## Rows in which operators stand apart -/

/-- No operator comes first, and none comes next to another. -/
structure OperatorsApart (row : List String) : Prop where
  first : ∀ text ∈ row.head?, ¬Token.isOperatorText text
  chain : row.IsChain fun a b => ¬(Token.isOperatorText a ∧ Token.isOperatorText b)

theorem operatorsApart_nil : OperatorsApart [] := ⟨nofun, List.IsChain.nil⟩

/-- **An operator may be added behind a text that is none**, and any other text may be added. -/
theorem operatorsApart_concat {row : List String} {text : String} :
    OperatorsApart (row ++ [text]) ↔ OperatorsApart row
      ∧ (Token.isOperatorText text → ∃ last ∈ row.getLast?, ¬Token.isOperatorText last) := by
  refine ⟨fun h => ?_, fun ⟨h, hlast⟩ => ?_⟩
  · -- the new text is the first one, or it stands behind the last
    obtain ⟨hrow, -, hjoin⟩ := List.isChain_append.mp h.chain
    cases row with
    | nil => exact ⟨operatorsApart_nil, fun hop => absurd hop (h.first text rfl)⟩
    | cons head rest =>
        obtain ⟨last, hgetLast⟩ := Option.isSome_iff_exists.mp (List.getLast?_isSome.mpr
          (List.cons_ne_nil head rest))
        exact ⟨⟨h.first, hrow⟩, fun hop => ⟨last, hgetLast, fun hlast =>
          hjoin last hgetLast text rfl ⟨hlast, hop⟩⟩⟩
  · refine ⟨?_, List.isChain_append.mpr ⟨h.chain, List.isChain_singleton text, ?_⟩⟩
    · cases row with
      | nil =>
          intro t ht hop
          obtain rfl := Option.some.inj ht
          obtain ⟨last, hmem, -⟩ := hlast hop
          cases hmem
      | cons head rest => exact h.first
    · intro last hmem t ht hboth
      obtain rfl := Option.some.inj ht
      obtain ⟨last', hmem', hnot⟩ := hlast hboth.2
      exact hnot (Option.some.inj (hmem'.symm.trans hmem) ▸ hboth.1)

/-! ## Texts that are not operators -/

namespace Token

/-- A character that is no symbol makes a text no operator. -/
theorem not_isOperatorText_of_mem {text : String} {c : Char} (hmem : c ∈ text.toList)
    (hc : ∀ op : Operator, c ≠ op.symbol) : ¬isOperatorText text := by
  intro hop
  obtain ⟨op, rfl⟩ := isOperatorText_iff.mp hop
  rw [Operator.text, String.toList_singleton, List.mem_singleton] at hmem
  exact hc op hmem

theorem not_isOperatorText_of_digit {text : String} {c : Char} (hmem : c ∈ text.toList)
    (hc : c.isDigit) : ¬isOperatorText text :=
  not_isOperatorText_of_mem hmem fun op heq => op.not_isDigit_symbol (heq ▸ hc)

theorem not_isOperatorText_of_point {text : String} (hmem : '.' ∈ text.toList) :
    ¬isOperatorText text :=
  not_isOperatorText_of_mem hmem fun op => by cases op <;> decide

theorem not_isOperatorText_of_operand {text : String} (h : isOperandText text) :
    ¬isOperatorText text := by
  intro hop
  obtain ⟨op, rfl⟩ := isOperatorText_iff.mp hop
  rw [isOperandText_text] at h
  cases h

theorem not_isOperatorText_nothingTyped : ¬isOperatorText Session.nothingTyped := by decide

/-- **No result is shown as an operator.** -/
theorem not_isOperatorText_result (v : Binary64) : ¬isOperatorText (Display.text v) := by
  match v with
  | .finite negative rank =>
      unfold Display.text
      split
      · decide
      · refine not_isOperatorText_of_operand ?_
        rw [isOperandText, isNumeric, Binary64.readNumber?_text_finite]
        rfl
  | .infinite false => decide
  | .infinite true => decide
  | .nan => decide

end Token

theorem IsPadText.ne_nil {chars : List Char} (h : IsPadText chars) : chars ≠ [] := by
  cases h with
  | digit _ => exact List.cons_ne_nil _ []
  | word _ _ hne => exact hne
  | addDigit _ _ => exact List.append_ne_nil_of_right_ne_nil _ (List.cons_ne_nil _ [])
  | addPoint _ _ => exact List.append_ne_nil_of_right_ne_nil _ (List.cons_ne_nil _ [])

/-- **The only operator that the pad can make pending is the minus sign.** -/
theorem IsPadText.eq_sign_of_operator {text : String} (h : IsPadText text.toList)
    (hop : Token.isOperatorText text) : text = "-" := by
  obtain ⟨op, rfl⟩ := Token.isOperatorText_iff.mp hop
  have hletter : ¬op.text.toList.any Char.isAlpha := by
    cases op <;> decide
  rcases h.eq_sign_of_parse?_eq_none hletter (Literal.parse?_operator op) with hsign | hpoint
  · exact String.toList_inj.mp hsign
  · cases op <;> exact absurd hpoint (by decide)

namespace Session

theorem lastIs_iff {property : String → Bool} {s : Session} :
    s.lastIs property = true ↔ ∃ last ∈ s.tokens.getLast?, property last := by
  unfold lastIs
  cases s.tokens.getLast? with
  | none => simp
  | some last => simp

/-- A minus sign and one more character are pending, so that `delete` would bare the sign. -/
def AtSign (s : Session) : Prop :=
  s.pending.toList.length = 2 ∧ s.pending.toList.head? = some '-'

instance (s : Session) : Decidable s.AtSign := inferInstanceAs (Decidable (_ ∧ _))

theorem atSign_iff {s : Session} : s.AtSign ↔ ∃ c, s.pending.toList = ['-', c] := by
  refine ⟨fun ⟨hlength, hhead⟩ => ?_, fun ⟨c, hpending⟩ => ?_⟩
  · obtain ⟨sign, c, hpending⟩ := List.length_eq_two.mp hlength
    rw [hpending] at hhead
    exact ⟨c, by rw [hpending, Option.some.inj hhead]⟩
  · rw [AtSign, hpending]
    exact ⟨rfl, rfl⟩

/-- No operator is pending, and those that are committed stand apart. -/
structure InPlace (s : Session) : Prop where
  pending : ¬Token.isOperatorText s.pending
  tokens : OperatorsApart s.tokens

theorem inPlace_start : ({} : Session).InPlace :=
  ⟨Token.not_isOperatorText_nothingTyped, operatorsApart_nil⟩

theorem inPlace_fail (error : EvalError) : (fail error).InPlace :=
  ⟨Token.not_isOperatorText_nothingTyped, operatorsApart_nil⟩

theorem pending_delete_of_atSign {s : Session} (h : s.AtSign) : s.delete.pending = "-" := by
  obtain ⟨c, hpending⟩ := atSign_iff.mp h
  have hlong : 1 < s.pending.length := by
    rw [← String.length_toList, hpending]
    exact Nat.lt_add_one 1
  have hdelete : s.delete.pending = Text.dropLast s.pending := if_pos hlong
  rw [hdelete]
  refine String.toList_inj.mp ?_
  rw [Text.toList_dropLast, hpending]
  rfl

namespace InPlace

variable {s : Session}

/-- What is committed ends with a text that is no operator. -/
theorem tokens_commit (h : s.InPlace) (hne : s.pending ≠ "") :
    OperatorsApart s.commit.tokens
      ∧ ∃ last ∈ s.commit.tokens.getLast?, ¬Token.isOperatorText last := by
  unfold Session.commit
  rw [if_neg hne]
  split
  · split
    · next hoperand =>
      -- the pending `0` is dropped, and the last text is an operand
      obtain ⟨last, hlast, hoperand⟩ := lastIs_iff.mp hoperand
      exact ⟨h.tokens, last, hlast, Token.not_isOperatorText_of_operand hoperand⟩
    · refine ⟨operatorsApart_concat.mpr ⟨h.tokens, ?_⟩, nothingTyped, List.getLast?_concat, ?_⟩
      · exact fun hop => absurd hop Token.not_isOperatorText_nothingTyped
      · exact Token.not_isOperatorText_nothingTyped
  · refine ⟨operatorsApart_concat.mpr ⟨h.tokens, ?_⟩, s.pending, List.getLast?_concat, h.pending⟩
    exact fun hop => absurd hop h.pending

theorem digit (h : s.InPlace) {c : Char} (hc : c.isDigit) : (s.digit c).InPlace := by
  have hsingle : ¬Token.isOperatorText (String.singleton c) :=
    Token.not_isOperatorText_of_digit (by simp) hc
  unfold Session.digit
  split
  · exact ⟨hsingle, operatorsApart_nil⟩
  · refine ⟨?_, h.tokens⟩
    dsimp only
    split
    · exact hsingle
    · exact Token.not_isOperatorText_of_digit (by simp) hc

theorem decimal (h : s.InPlace) : s.decimal.InPlace := by
  have hpoint : ¬Token.isOperatorText "0." := Token.not_isOperatorText_of_point (by decide)
  unfold Session.decimal
  split
  · exact ⟨hpoint, operatorsApart_nil⟩
  · refine ⟨?_, h.tokens⟩
    dsimp only
    split
    · exact h.pending
    · exact Token.not_isOperatorText_of_point (by simp)

/-- Before the new operator there is a result, an operand, or what the replaced one stood behind. -/
theorem operator (h : s.InPlace) (hne : s.pending ≠ "") (op : Operator) :
    (s.operator op).InPlace := by
  refine ⟨Token.not_isOperatorText_nothingTyped, operatorsApart_concat.mpr ?_⟩
  split
  · -- a result is committed in front, and it is no operator
    have hresult : OperatorsApart ([] ++ [s.pending]) :=
      operatorsApart_concat.mpr ⟨operatorsApart_nil, fun hop => absurd hop h.pending⟩
    exact ⟨hresult, fun _ => ⟨s.pending, rfl, h.pending⟩⟩
  · split
    · next hawaits =>
      -- the operator that is replaced stood in the same place
      obtain ⟨hlastIs, -⟩ := Bool.and_eq_true_iff.mp hawaits
      obtain ⟨last, hlast, hop⟩ := lastIs_iff.mp hlastIs
      obtain ⟨before, hbefore⟩ := List.getLast?_eq_some_iff.mp hlast
      have htokens := h.tokens
      rw [hbefore] at htokens ⊢
      rw [List.dropLast_concat]
      obtain ⟨hapart, hbehind⟩ := operatorsApart_concat.mp htokens
      exact ⟨hapart, fun _ => hbehind hop⟩
    · obtain ⟨hapart, hlast⟩ := h.tokens_commit hne
      exact ⟨hapart, fun _ => hlast⟩

theorem insert (h : s.InPlace) (hne : s.pending ≠ "") :
    (s.insert VariableField.variableName).InPlace := by
  have hvariable : ¬Token.isOperatorText VariableField.variableName := by decide
  unfold Session.insert
  split
  · exact ⟨hvariable, operatorsApart_nil⟩
  · refine ⟨Token.not_isOperatorText_nothingTyped, operatorsApart_concat.mpr ⟨?_, ?_⟩⟩
    · split
      · exact h.tokens
      · exact (h.tokens_commit hne).1
    · exact fun hop => absurd hop hvariable

/-- Taking off a character leaves an operator only behind a sign. -/
theorem delete (h : s.InPlace) (hpad : s.FromPad) (hsign : ¬s.AtSign) : s.delete.InPlace := by
  refine ⟨fun hop => hsign (atSign_iff.mpr ?_), ?_⟩
  · -- the only operator that can be left is a sign with its number gone
    have hminus := hpad.delete.pending.eq_sign_of_operator hop
    by_cases hlong : 1 < s.pending.length
    · have hdelete : s.delete.pending = Text.dropLast s.pending := if_pos hlong
      rw [hdelete, ← String.toList_inj, Text.toList_dropLast] at hminus
      have hne : s.pending.toList ≠ [] :=
        List.ne_nil_of_length_pos (by rw [String.length_toList]; omega)
      have hparts := List.dropLast_append_getLast hne
      rw [hminus] at hparts
      exact ⟨s.pending.toList.getLast hne, hparts.symm⟩
    · have hdelete : s.delete.pending = nothingTyped := if_neg hlong
      rw [hdelete] at hop
      exact absurd hop Token.not_isOperatorText_nothingTyped
  · show OperatorsApart (if s.phase = .evaluated then [] else s.tokens)
    split
    · exact operatorsApart_nil
    · exact h.tokens

theorem equals (h : s.InPlace) (hne : s.pending ≠ "") (resolve : Resolver) :
    (s.equals resolve).session.InPlace := by
  unfold Session.equals
  split
  · exact h
  · dsimp only
    split
    · exact ⟨Token.not_isOperatorText_result _, (h.tokens_commit hne).1⟩
    · exact inPlace_fail _

end InPlace

theorem FromPad.pending_ne {s : Session} (h : s.FromPad) : s.pending ≠ "" :=
  fun hempty => h.pending.ne_nil (congrArg String.toList hempty)

end Session

namespace Calculator

theorem pressAll_concat (desk : Calculator) (keys : List Key) (key : Key) :
    desk.pressAll (keys ++ [key]) = (desk.pressAll keys).press key :=
  desk.pressAll_append keys [key]

/-- **Every key keeps the operators in place**, but `delete` must not bare a sign. -/
theorem inPlace_press {desk : Calculator} (h : desk.session.InPlace) (hpad : desk.session.FromPad)
    {key : Key} (hkey : key.isOnPad) (hsign : key = .delete → ¬desk.session.AtSign) :
    (desk.press key).session.InPlace := by
  cases key with
  | digit c => exact h.digit hkey
  | decimal => exact h.decimal
  | operator op => exact h.operator hpad.pending_ne op
  | insertVariable => exact h.insert hpad.pending_ne
  | equals => exact h.equals hpad.pending_ne desk.field.resolver
  | delete => exact h.delete hpad (hsign rfl)
  | clear => exact Session.inPlace_start
  | fieldDigit c => cases hkey
  | fieldDelete => cases hkey

theorem inPlace_pressAll {keys : List Key} (hkeys : ∀ key ∈ keys, key ∈ padKeys)
    {desk : Calculator} (h : desk.session.InPlace) (hpad : desk.session.FromPad)
    (hsign : ∀ before, before ++ [.delete] <+: keys → ¬(desk.pressAll before).session.AtSign) :
    (desk.pressAll keys).session.InPlace := by
  induction keys using List.reverseRecOn with
  | nil => exact h
  | append_singleton keys key ih =>
      obtain ⟨hbefore, hlast⟩ := List.forall_mem_append.mp hkeys
      rw [pressAll_concat]
      refine inPlace_press ?_ (fromPad_pressAll hbefore hpad)
        (isOnPad_of_mem (hlast key List.mem_cons_self)) ?_
      · -- a delete in the shorter run is one in the longer run as well
        exact ih hbefore fun before hdelete => hsign before (hdelete.trans (List.prefix_append _ _))
      · rintro rfl
        exact hsign keys (List.prefix_refl _)

/--
**Operators stand in their places unless a sign is bared.**

In all states of a run of the pad no operator is pending, and the committed
operators stand neither first nor next to each other, exactly when `delete` is
never pressed with a minus sign and one more character pending. In no run is any
other operator pending than the minus sign.
-/
theorem operatorsApart_iff_not_atSign {keys : List Key} (hkeys : ∀ key ∈ keys, key ∈ padKeys)
    (field : VariableField) :
    let after (before : List Key) := (({ field } : Calculator).pressAll before).session
    ((∀ before, before <+: keys →
        ¬Token.isOperatorText (after before).pending ∧ OperatorsApart (after before).tokens)
      ↔ ∀ before, before ++ [.delete] <+: keys → ¬(after before).AtSign)
      ∧ ∀ before, before <+: keys → Token.isOperatorText (after before).pending →
        (after before).pending = "-" := by
  intro after
  have honPad {before : List Key} (h : before <+: keys) : ∀ key ∈ before, key ∈ padKeys :=
    fun key hkey => hkeys key (h.subset hkey)
  refine ⟨⟨fun hplace before hdelete hsign => ?_, fun hsign before hbefore => ?_⟩,
    fun before hbefore hop => ?_⟩
  · -- the bare sign would be pending after `delete`
    refine (hplace (before ++ [.delete]) hdelete).1 ?_
    have hpending : (after (before ++ [.delete])).pending = "-" := by
      show (({ field } : Calculator).pressAll (before ++ [.delete])).session.pending = "-"
      rw [pressAll_concat]
      exact Session.pending_delete_of_atSign hsign
    rw [hpending]
    decide
  · have hrun : (after before).InPlace :=
      inPlace_pressAll (honPad hbefore) Session.inPlace_start Session.fromPad_start
        fun shorter hshorter => hsign shorter (hshorter.trans hbefore)
    exact ⟨hrun.pending, hrun.tokens⟩
  · have hpad : (after before).FromPad :=
      fromPad_pressAll (honPad hbefore) Session.fromPad_start
    exact hpad.pending.eq_sign_of_operator hop

/-- The buttons `1 - 2 0 = DEL + 5`. -/
def shortenedResult : List Key :=
  [.digit '1', .operator .sub, .digit '2', .digit '0', .equals, .delete, .operator .add, .digit '5']

/-- The result -19 is cut to -1, and no sign is bared. -/
theorem operatorsApart_shortenedResult :
    (∀ key ∈ shortenedResult, key ∈ padKeys)
      ∧ (({} : Calculator).pressAll shortenedResult).session.tokens = ["-1", "+"]
      ∧ ∀ before, before <+: shortenedResult →
        ¬Token.isOperatorText (({} : Calculator).pressAll before).session.pending
          ∧ OperatorsApart (({} : Calculator).pressAll before).session.tokens := by
  have hkeys : ∀ key ∈ shortenedResult, key ∈ padKeys := by decide
  have hsign : ∀ before ∈ shortenedResult.inits, before ++ [.delete] <+: shortenedResult →
      ¬(({} : Calculator).pressAll before).session.AtSign := by decide +kernel
  refine ⟨hkeys, by decide +kernel, (operatorsApart_iff_not_atSign hkeys {}).1.mpr ?_⟩
  intro before hdelete
  exact hsign before ((List.mem_inits _ _).mpr ((List.prefix_append _ _).trans hdelete)) hdelete

/-- The buttons `1 - 2 = DEL`. -/
def baredSign : List Key := [.digit '1', .operator .sub, .digit '2', .equals, .delete]

/-- After `1 - 2 = DEL` the minus sign is pending, and `+` is committed next to it. -/
theorem not_operatorsApart_baredSign :
    let desk := ({} : Calculator).pressAll baredSign
    (∀ key ∈ baredSign, key ∈ padKeys)
      ∧ Token.isOperatorText desk.session.pending
      ∧ (desk.press (.operator .add)).session.tokens = ["-", "+"]
      ∧ ¬OperatorsApart ["-", "+"] :=
  ⟨by decide, by decide +kernel, by decide +kernel, fun h => h.first "-" rfl rfl⟩

end Calculator

end DeskCalculator
