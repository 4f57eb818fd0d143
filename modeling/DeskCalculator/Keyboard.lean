import DeskCalculator.Key

/-!
# The keyboard

Between two drawings of the window the keyboard delivers a *frame*: a list of
events, each a stroke or a typed text. A stroke is a physical key going down or
up with some modifiers held, and a typed text is what the strokes spelled. The
two overlap, so each has its own part: digits, points, operators, X and the
equals sign are taken from texts, and the keys that spell nothing from strokes.

* Escape clears, Enter is equals, Backspace deletes, and with command and alt
  held it deletes in the field of the variable.
* Shift and a digit is a digit for the field of the variable. The same stroke
  also spells a punctuation mark, so a frame with such a stroke has its texts
  ignored.

The strokes of a frame come before its texts.
-/

namespace DeskCalculator.Keyboard

/-- A physical key, as far as the calculator knows it. -/
inductive KeyCap where
  | digit (c : Char)
  | backspace
  | enter
  | escape
  | other
  deriving DecidableEq, Repr

/-- The modifiers held during a stroke. -/
structure Modifiers where
  shift : Bool := false
  /-- The modifier of shortcuts: the command key where there is one, the control key elsewhere. -/
  command : Bool := false
  alt : Bool := false
  deriving DecidableEq, Repr

inductive Event where
  | typed (text : String)
  | pressed (cap : KeyCap) (held : Modifiers)
  | released (cap : KeyCap) (held : Modifiers)
  deriving DecidableEq, Repr

def strokeKey? (cap : KeyCap) (held : Modifiers) : Option Key :=
  match cap with
  | .digit c => if held.shift then some (.fieldDigit c) else none
  | .backspace => if held.command && held.alt then some .fieldDelete else some .delete
  | .enter => some .equals
  | .escape => some .clear
  | .other => none

/-- The key that an event means as a stroke. -/
def Event.stroke? : Event → Option Key
  | .pressed cap held => strokeKey? cap held
  | _ => none

/-- The keys that an event means as a typed text. -/
def Event.typedKeys : Event → List Key
  | .typed text => text.toList.filterMap Key.ofChar?
  | _ => []

def Event.typedText : Event → String
  | .typed text => text
  | _ => ""

/-- A stroke that means a digit for the field of the variable. -/
def isFieldDigit : Key → Bool
  | .fieldDigit _ => true
  | _ => false

/-- The keys that a frame of events means, in the order in which they are pressed. -/
def frameKeys (frame : List Event) : List Key :=
  let strokes := frame.filterMap Event.stroke?
  if strokes.any isFieldDigit then strokes
  else strokes ++ frame.flatMap Event.typedKeys

end DeskCalculator.Keyboard
