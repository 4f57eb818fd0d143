import DeskCalculator.Window
import DeskCalculator.Proofs.KeyOrder

/-!
# Frames that are joined or cut

What is typed or struck arrives in frames, and where one frame ends and the next
begins is not up to the user. The strokes of a frame come before its texts, so a
cut between two frames is felt in two ways.

* **Texts last.** A text that came before a stroke comes after it once the two are
  in one frame.
* **Texts ignored.** A stroke that means a digit for the field takes all the texts of
  its own frame along, those too that it did not spell, and no others.

The field never feels a cut, for its keys are struck only and a frame keeps the
strokes in order. The session does not feel a cut at which no text is ignored and
what is typed before the cut may as well come after the strokes behind it: anything
but equals after a delete in the field, and equals after equals. Such a cut is
`Seamless`. Of two frames with any other cut there are parts, a key each, that leave
another session once they are joined.
-/

namespace DeskCalculator

/-! ## The keys of two frames -/

namespace Keyboard

/-- The keys that a frame means by its strokes. -/
def strokes (frame : List Event) : List Key := frame.filterMap Event.stroke?

/-- The keys that a frame means by its texts, whether they count or not. -/
def typed (frame : List Event) : List Key := frame.flatMap Event.typedKeys

/-- A frame with a stroke for the field ignores its texts. -/
def ignoresTexts (frame : List Event) : Bool := (strokes frame).any isFieldDigit

/-- The keys that a frame means by its texts, unless it ignores them. -/
def counted (frame : List Event) : List Key := if ignoresTexts frame then [] else typed frame

/-- A cut between two frames that makes no difference. -/
structure Seamless (first second : List Event) : Prop where
  /-- What is typed before the cut may as well come after the strokes behind it. -/
  passes : ∀ key ∈ counted first, ∀ stroke ∈ strokes second, key.Passes stroke
  /-- A stroke before the cut does not take the texts behind it along. -/
  counts : ignoresTexts first → counted second = []

instance (first second : List Event) : Decidable (Seamless first second) :=
  decidable_of_iff
    ((∀ key ∈ counted first, ∀ stroke ∈ strokes second, key.Passes stroke)
      ∧ (ignoresTexts first → counted second = []))
    ⟨fun h => ⟨h.1, h.2⟩, fun h => ⟨h.passes, h.counts⟩⟩

/-- A frame that means some of the keys of another frame, in the same order. -/
structure PartOf (part frame : List Event) : Prop where
  strokes : (strokes part).Sublist (strokes frame)
  counted : (counted part).Sublist (counted frame)

variable {first second part rest frame : List Event} {key stroke : Key}

theorem PartOf.refl (frame : List Event) : PartOf frame frame :=
  ⟨List.Sublist.refl _, List.Sublist.refl _⟩

theorem frameKeys_eq (frame : List Event) : frameKeys frame = strokes frame ++ counted frame := by
  unfold frameKeys counted ignoresTexts strokes typed
  dsimp only
  split
  · rw [List.append_nil]
  · rfl

theorem strokes_append (first second : List Event) :
    strokes (first ++ second) = strokes first ++ strokes second :=
  List.filterMap_append

theorem typed_append (first second : List Event) :
    typed (first ++ second) = typed first ++ typed second :=
  List.flatMap_append

theorem ignoresTexts_append (first second : List Event) :
    ignoresTexts (first ++ second) = (ignoresTexts first || ignoresTexts second) := by
  rw [ignoresTexts, strokes_append, List.any_append, ignoresTexts, ignoresTexts]

theorem counted_append (first second : List Event) :
    counted (first ++ second) = if ignoresTexts first = ignoresTexts second
      then counted first ++ counted second else [] := by
  simp only [counted, ignoresTexts_append, typed_append]
  cases ignoresTexts first <;> cases ignoresTexts second <;> rfl

/-- With one stroke and one typed key in a frame, the stroke comes first or is all there is. -/
theorem frameKeys_of_one (hstrokes : strokes frame = [stroke]) (htyped : typed frame = [key]) :
    frameKeys frame = if isFieldDigit stroke then [stroke] else [stroke, key] := by
  rw [frameKeys_eq, counted, ignoresTexts, hstrokes, htyped, List.any_cons, List.any_nil,
    Bool.or_false]
  cases isFieldDigit stroke <;> rfl

theorem exists_of_mem_counted (h : key ∈ counted frame) : ∃ c, Key.ofChar? c = some key := by
  unfold counted at h
  split at h
  · cases h
  · obtain ⟨event, -, hkey⟩ := List.mem_flatMap.mp h
    cases event with
    | typed text =>
        obtain ⟨c, -, hc⟩ := List.mem_filterMap.mp hkey
        exact ⟨c, hc⟩
    | pressed | released => cases hkey

theorem isTyped_of_mem_counted (h : key ∈ counted frame) : key.isTyped := by
  obtain ⟨c, hc⟩ := exists_of_mem_counted h
  exact Key.isTyped_ofChar? hc

theorem exists_of_mem_strokes (h : stroke ∈ strokes frame) :
    ∃ cap held, strokeKey? cap held = some stroke := by
  obtain ⟨event, -, hstroke⟩ := List.mem_filterMap.mp h
  cases event with
  | pressed cap held => exact ⟨cap, held, hstroke⟩
  | typed | released => cases hstroke

theorem session_press_fieldDigit (h : isFieldDigit stroke) (desk : Calculator) :
    (desk.press stroke).session = desk.session := by
  cases stroke with
  | fieldDigit c => rfl
  | digit | decimal | operator | insertVariable | equals | delete | clear | fieldDelete => cases h

/-- A typed key is missed behind a digit for the field, and before one as well. -/
theorem exists_session_missed (hdigit : isFieldDigit stroke) (htyped : key.isTyped) :
    ∃ desk : Calculator,
      (desk.pressAll [stroke]).session ≠ (desk.pressAll [key, stroke]).session
        ∧ (desk.pressAll [stroke]).session ≠ (desk.pressAll [stroke, key]).session := by
  have hspared : ∀ desk : Calculator, (desk.press stroke).session = desk.session :=
    session_press_fieldDigit hdigit
  obtain ⟨s, hseen⟩ := Calculator.exists_session_press_ne_self htyped
  refine ⟨{ session := s }, fun hsame => ?_, fun hsame => ?_⟩
  · exact hseen { session := s } rfl
      ((hspared _).symm.trans (hsame.symm.trans (hspared { session := s })))
  · exact hseen (Calculator.press { session := s } stroke) (hspared _)
      (hsame.symm.trans (hspared { session := s }))

/-- Equals is the only key that can be both struck and typed. -/
theorem eq_equals_of_strokeKey? {cap : KeyCap} {held : Modifiers}
    (h : strokeKey? cap held = some stroke) (htyped : stroke.isTyped) : stroke = .equals := by
  cases cap with
  | digit c =>
      rw [strokeKey?] at h
      split at h <;> cases h
      cases htyped
  | backspace =>
      rw [strokeKey?] at h
      split at h <;> cases h <;> cases htyped
  | enter => exact (Option.some.inj h).symm
  | escape =>
      cases h
      cases htyped
  | other => cases h

/-- At a seamless cut neither frame takes texts of the other along. -/
theorem Seamless.counted_append (h : Seamless first second) :
    counted (first ++ second) = counted first ++ counted second := by
  rw [Keyboard.counted_append]
  split
  · rfl
  · next hother =>
      cases hfirst : ignoresTexts first with
      | true => rw [h.counts hfirst, counted, if_pos hfirst, List.append_nil]
      | false =>
          -- the stroke in the second frame is one that no text passes
          have hsecond : ignoresTexts second = true :=
            eq_true_of_ne_false fun hnot => hother (hfirst.trans hnot.symm)
          obtain ⟨stroke, hmem, hdigit⟩ := List.any_eq_true.mp hsecond
          have hnone : counted first = [] := by
            refine List.eq_nil_iff_forall_not_mem.mpr fun key hkey => ?_
            rcases h.passes key hkey stroke hmem with ⟨-, rfl⟩ | ⟨-, rfl⟩ <;> cases hdigit
          rw [hnone, counted, if_pos hsecond, List.append_nil]

theorem Seamless.mono (hpart : PartOf part first) (hrest : PartOf rest second)
    (h : Seamless first second) : Seamless part rest where
  passes key hkey stroke hstroke :=
    h.passes key (hpart.counted.subset hkey) stroke (hrest.strokes.subset hstroke)
  counts hignores := by
    obtain ⟨stroke, hmem, hdigit⟩ := List.any_eq_true.mp hignores
    have hfirst : ignoresTexts first :=
      List.any_eq_true.mpr ⟨stroke, hpart.strokes.subset hmem, hdigit⟩
    have hnone := hrest.counted
    rw [h.counts hfirst] at hnone
    exact List.sublist_nil.mp hnone

/-- **At a seamless cut the same becomes of a calculator.** -/
theorem Seamless.pressAll_eq (h : Seamless first second) (desk : Calculator) :
    desk.pressAll (frameKeys (first ++ second))
      = desk.pressAll (frameKeys first ++ frameKeys second) := by
  have hswap : ∀ before : Calculator, before.pressAll (counted first ++ strokes second)
      = before.pressAll (strokes second ++ counted first) :=
    Calculator.pressAll_comm fun key hkey stroke hstroke =>
      Calculator.press_comm (isTyped_of_mem_counted hkey) (h.passes key hkey stroke hstroke)
  -- the two words in the middle change places, what is around them stays
  calc desk.pressAll (frameKeys (first ++ second))
      = ((desk.pressAll (strokes first)).pressAll (strokes second ++ counted first)).pressAll
          (counted second) := by
        rw [frameKeys_eq, strokes_append, h.counted_append, ← Calculator.pressAll_append,
          ← Calculator.pressAll_append]
        simp only [List.append_assoc]
    _ = ((desk.pressAll (strokes first)).pressAll (counted first ++ strokes second)).pressAll
          (counted second) := by
        rw [hswap]
    _ = desk.pressAll (frameKeys first ++ frameKeys second) := by
        rw [frameKeys_eq, frameKeys_eq, ← Calculator.pressAll_append,
          ← Calculator.pressAll_append]
        simp only [List.append_assoc]

/-- The strokes of a frame, in order, are all that the field gets of it. -/
theorem field_pressAll_frameKeys (frame : List Event) (desk : Calculator) :
    (desk.pressAll (frameKeys frame)).field = (desk.pressAll (strokes frame)).field := by
  rw [frameKeys_eq, Calculator.pressAll_append]
  exact Calculator.field_pressAll_typed (fun _ => isTyped_of_mem_counted) _

/-- **The field never feels a cut.** -/
theorem field_pressAll_append (first second : List Event) (desk : Calculator) :
    (desk.pressAll (frameKeys (first ++ second))).field
      = (desk.pressAll (frameKeys first ++ frameKeys second)).field := by
  rw [Calculator.pressAll_append, field_pressAll_frameKeys, field_pressAll_frameKeys,
    strokes_append, Calculator.pressAll_append]
  exact Calculator.field_pressAll_congr (field_pressAll_frameKeys first desk).symm _

/-- Frames of which each is cut off seamlessly from all that follows. -/
def SeamlessAll : List (List Event) → Prop
  | [] => True
  | frame :: rest => Seamless frame rest.flatten ∧ SeamlessAll rest

theorem SeamlessAll.pressAll_eq {frames : List (List Event)} (h : SeamlessAll frames)
    (desk : Calculator) :
    desk.pressAll (frameKeys frames.flatten) = desk.pressAll (frames.flatMap frameKeys) := by
  induction frames generalizing desk with
  | nil => rfl
  | cons frame rest ih =>
      rw [List.flatten_cons, h.1.pressAll_eq, Calculator.pressAll_append, ih h.2,
        List.flatMap_cons, Calculator.pressAll_append]

/-! ## Frames of one key -/

/-- A frame with one text of one character. -/
def textFrame (c : Char) : List Event := [.typed (String.singleton c)]

/-- A frame with one stroke. -/
def strokeFrame (cap : KeyCap) (held : Modifiers) : List Event := [.pressed cap held]

section OneKey
variable {c : Char} {cap : KeyCap} {held : Modifiers}

theorem typed_textFrame (h : Key.ofChar? c = some key) : typed (textFrame c) = [key] := by
  show [Event.typed (String.singleton c)].flatMap Event.typedKeys = [key]
  rw [List.flatMap_singleton, Event.typedKeys, String.toList_singleton, List.filterMap_cons_some h,
    List.filterMap_nil]

theorem counted_textFrame (h : Key.ofChar? c = some key) : counted (textFrame c) = [key] :=
  typed_textFrame h

theorem strokes_strokeFrame (h : strokeKey? cap held = some stroke) :
    strokes (strokeFrame cap held) = [stroke] :=
  List.filterMap_cons_some h

theorem counted_strokeFrame (cap : KeyCap) (held : Modifiers) :
    counted (strokeFrame cap held) = [] :=
  ite_self _

theorem partOf_textFrame (h : Key.ofChar? c = some key) (hmem : key ∈ counted frame) :
    PartOf (textFrame c) frame where
  strokes := List.nil_sublist _
  counted := by
    rw [counted_textFrame h]
    exact List.singleton_sublist.mpr hmem

theorem partOf_strokeFrame (h : strokeKey? cap held = some stroke) (hmem : stroke ∈ strokes frame) :
    PartOf (strokeFrame cap held) frame where
  strokes := by
    rw [strokes_strokeFrame h]
    exact List.singleton_sublist.mpr hmem
  counted := by
    rw [counted_strokeFrame]
    exact List.nil_sublist _

theorem frameKeys_textFrame (h : Key.ofChar? c = some key) : frameKeys (textFrame c) = [key] := by
  rw [frameKeys_eq, counted_textFrame h]
  rfl

theorem frameKeys_strokeFrame (h : strokeKey? cap held = some stroke) :
    frameKeys (strokeFrame cap held) = [stroke] := by
  rw [frameKeys_eq, strokes_strokeFrame h, counted_strokeFrame]
  rfl

theorem frameKeys_text_stroke (htext : Key.ofChar? c = some key)
    (hstroke : strokeKey? cap held = some stroke) :
    frameKeys (textFrame c ++ strokeFrame cap held)
      = if isFieldDigit stroke then [stroke] else [stroke, key] := by
  apply frameKeys_of_one
  · rw [strokes_append, strokes_strokeFrame hstroke]
    rfl
  · rw [typed_append, typed_textFrame htext]
    rfl

theorem frameKeys_stroke_text (htext : Key.ofChar? c = some key)
    (hstroke : strokeKey? cap held = some stroke) :
    frameKeys (strokeFrame cap held ++ textFrame c)
      = if isFieldDigit stroke then [stroke] else [stroke, key] := by
  apply frameKeys_of_one
  · rw [strokes_append, strokes_strokeFrame hstroke]
    rfl
  · rw [typed_append, typed_textFrame htext]
    rfl

end OneKey

end Keyboard

/-! ## What becomes of the window -/

namespace Window

open Keyboard

/-- The window after some actions, one after another. -/
def actAll (w : Window) (actions : List Action) : Window :=
  actions.foldl (fun w action => (w.act action).1) w

/-- The window after some keys from the keyboard. -/
def pressAll (w : Window) (keys : List Key) : Window :=
  { w with calculator := w.calculator.pressAll keys }

/-- Two frames leave the session that they would leave as one. -/
def Unfelt (first second : List Event) : Prop :=
  ∀ w : Window, w.fieldFocused = false →
    (w.act (.frame (first ++ second))).1.calculator.session
      = (w.actAll [.frame first, .frame second]).calculator.session

variable {w : Window} {first second : List Event}

theorem act_frame (hfocus : w.fieldFocused = false) (frame : List Event) :
    (w.act (.frame frame)).1 = w.pressAll (frameKeys frame) := by
  rw [act, if_neg (by rw [hfocus]; exact Bool.false_ne_true)]
  rfl

/-- **Frames one after another press their keys one after another.** -/
theorem actAll_frames (hfocus : w.fieldFocused = false) (frames : List (List Event)) :
    w.actAll (frames.map .frame) = w.pressAll (frames.flatMap frameKeys) := by
  induction frames generalizing w with
  | nil => rfl
  | cons frame rest ih =>
      calc w.actAll ((frame :: rest).map .frame)
          = (w.pressAll (frameKeys frame)).actAll (rest.map .frame) := by
            rw [← act_frame hfocus]
            rfl
        _ = (w.pressAll (frameKeys frame)).pressAll (rest.flatMap frameKeys) := ih hfocus
        _ = w.pressAll ((frame :: rest).flatMap frameKeys) := by
            rw [List.flatMap_cons, pressAll, pressAll, pressAll, Calculator.pressAll_append]

theorem actAll_pair (hfocus : w.fieldFocused = false) (first second : List Event) :
    w.actAll [.frame first, .frame second] = w.pressAll (frameKeys first ++ frameKeys second) := by
  have hframes := actAll_frames hfocus [first, second]
  rwa [List.flatMap_cons, List.flatMap_singleton] at hframes

/-- **However many the seamless cuts, one frame does as well.** -/
theorem act_flatten {frames : List (List Event)} (hfocus : w.fieldFocused = false)
    (hcuts : SeamlessAll frames) :
    (w.act (.frame frames.flatten)).1 = w.actAll (frames.map .frame) := by
  rw [act_frame hfocus, actAll_frames hfocus, pressAll, hcuts.pressAll_eq]
  rfl

theorem unfelt_iff : Unfelt first second ↔ ∀ desk : Calculator,
    (desk.pressAll (frameKeys (first ++ second))).session
      = (desk.pressAll (frameKeys first ++ frameKeys second)).session := by
  constructor
  · intro h desk
    have hfocus : ({ calculator := desk } : Window).fieldFocused = false := rfl
    have hsession := h { calculator := desk } hfocus
    rw [act_frame hfocus, actAll_pair hfocus] at hsession
    exact hsession
  · intro h w hfocus
    rw [act_frame hfocus, actAll_pair hfocus]
    exact h w.calculator

section OneKey
variable {c : Char} {cap : KeyCap} {held : Modifiers} {key stroke : Key}

/-- **A text and a stroke behind it** go unfelt only if the text may as well come last. -/
theorem passes_of_unfelt (htext : Key.ofChar? c = some key)
    (hstroke : strokeKey? cap held = some stroke)
    (h : Unfelt (textFrame c) (strokeFrame cap held)) : key.Passes stroke := by
  rw [unfelt_iff, frameKeys_text_stroke htext hstroke, frameKeys_textFrame htext,
    frameKeys_strokeFrame hstroke] at h
  have htyped := Key.isTyped_ofChar? htext
  by_contra hnot
  cases hdigit : isFieldDigit stroke with
  | true =>
      -- the text is lost, whatever it is
      rw [hdigit, if_pos rfl] at h
      obtain ⟨desk, hmissed, -⟩ := exists_session_missed hdigit htyped
      exact hmissed (h desk)
  | false =>
      rw [hdigit, if_neg Bool.false_ne_true] at h
      have hother : ∀ d, stroke ≠ .fieldDigit d := by
        rintro d rfl
        cases hdigit
      exact hnot ((Calculator.passes_iff htyped (eq_equals_of_strokeKey? hstroke) hother).mpr h)

/-- **A stroke and a text behind it** go unfelt only if the stroke is none for the field. -/
theorem not_isFieldDigit_of_unfelt (htext : Key.ofChar? c = some key)
    (hstroke : strokeKey? cap held = some stroke)
    (h : Unfelt (strokeFrame cap held) (textFrame c)) : isFieldDigit stroke = false := by
  rw [unfelt_iff, frameKeys_stroke_text htext hstroke, frameKeys_textFrame htext,
    frameKeys_strokeFrame hstroke] at h
  cases hdigit : isFieldDigit stroke with
  | true =>
      rw [hdigit, if_pos rfl] at h
      obtain ⟨desk, -, hmissed⟩ := exists_session_missed hdigit (Key.isTyped_ofChar? htext)
      exact absurd (h desk) hmissed
  | false => rfl

end OneKey

/--
**The field never feels a cut, and the session feels all but the seamless ones.**

The field does not have the focus. Its text is the same after one frame as after the
two parts of it one after another, wherever it is cut. Where the cut is seamless, so
is the session, and it stays so whatever keys are left out. Where it is not, some
keys of the two frames are enough for another session.
-/
theorem frame_append_iff_seamless (first second : List Event) :
    (∀ w : Window, w.fieldFocused = false →
      (w.act (.frame (first ++ second))).1.calculator.field
        = (w.actAll [.frame first, .frame second]).calculator.field)
    ∧ ((∀ part rest, PartOf part first → PartOf rest second → Unfelt part rest)
      ↔ Seamless first second) := by
  refine ⟨fun w hfocus => ?_, fun h => ⟨fun key hkey stroke hstroke => ?_, fun hignores => ?_⟩,
    fun h part rest hpart hrest => ?_⟩
  · rw [act_frame hfocus, actAll_pair hfocus]
    exact field_pressAll_append first second w.calculator
  · -- a text and a stroke that are out of place are a part of each frame
    obtain ⟨c, hc⟩ := exists_of_mem_counted hkey
    obtain ⟨cap, held, hheld⟩ := exists_of_mem_strokes hstroke
    exact passes_of_unfelt hc hheld
      (h _ _ (partOf_textFrame hc hkey) (partOf_strokeFrame hheld hstroke))
  · -- and so are a digit for the field and a text that is lost with it
    obtain ⟨stroke, hstroke, hdigit⟩ := List.any_eq_true.mp hignores
    obtain ⟨cap, held, hheld⟩ := exists_of_mem_strokes hstroke
    refine List.eq_nil_iff_forall_not_mem.mpr fun key hkey => ?_
    obtain ⟨c, hc⟩ := exists_of_mem_counted hkey
    have hother := not_isFieldDigit_of_unfelt hc hheld
      (h _ _ (partOf_strokeFrame hheld hstroke) (partOf_textFrame hc hkey))
    rw [hother] at hdigit
    cases hdigit
  · rw [unfelt_iff]
    exact fun desk => congrArg Calculator.session ((h.mono hpart hrest).pressAll_eq desk)

/-- Delete in the field may come in one frame with the digit before it, or in the next. -/
theorem frame_append_fieldDelete :
    let digit : List Event := [.pressed (.digit '5') {}, .typed "5"]
    let fieldDelete : List Event := [.pressed .backspace { command := true, alt := true }]
    Seamless digit fieldDelete ∧ Unfelt digit fieldDelete := by
  intro digit fieldDelete
  have hcut : Seamless digit fieldDelete := by decide +kernel
  exact ⟨hcut, (frame_append_iff_seamless digit fieldDelete).2.mpr hcut digit fieldDelete
    (PartOf.refl digit) (PartOf.refl fieldDelete)⟩

/--
Two cuts that are felt. A digit is lost if a digit for the field comes in its frame,
although the one is no text of the other; and Enter in the frame of a digit comes
before it, although an equals sign does not.
-/
theorem frame_append_fieldDigit :
    let digit : List Event := [.pressed (.digit '5') {}, .typed "5"]
    let fieldDigit : List Event := [.pressed (.digit '3') { shift := true }, .typed "#"]
    let enter : List Event := [.pressed .enter {}]
    (({} : Window).act (.frame (digit ++ fieldDigit))).1.calculator.session = {}
      ∧ (({} : Window).actAll [.frame digit, .frame fieldDigit]).calculator.session
        = { pending := "5", phase := .entry }
      ∧ (({} : Window).act (.frame (digit ++ enter))).1.calculator.session
        ≠ (({} : Window).actAll [.frame digit, .frame enter]).calculator.session := by
  decide +kernel

end Window

end DeskCalculator
