/-!
# Editing a text at its end

Fields are edited by a key at a time: a character is added at the end, or the last
one is taken off again. Taking off undoes adding.
-/

namespace DeskCalculator.Text

/-- A text without its last character. -/
def dropLast (text : String) : String := String.ofList text.toList.dropLast

@[simp] theorem toList_dropLast (text : String) :
    (dropLast text).toList = text.toList.dropLast := by
  simp [dropLast]

@[simp] theorem dropLast_push (text : String) (c : Char) : dropLast (text.push c) = text := by
  simp [dropLast]

end DeskCalculator.Text
