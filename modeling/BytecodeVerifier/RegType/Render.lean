import BytecodeVerifier.RegType

/-!
# The text of a register type
-/

namespace BytecodeVerifier

/-- The descriptor of the class; a question mark if there is none. -/
def ClassName.render : ClassName → String
  | .named d => d.text
  | .unissued _ => "?"

/-- The word for a wide kind. -/
def WideKind.word : WideKind → String
  | .long => "Long"
  | .double => "Double"
  | .constant => "Wide Constant"

namespace RegType

/-- What precedes the text of a precise type. -/
def precision (precise : Bool) : String := if precise then "Precise " else ""

/-- The text of a type. -/
def render : RegType → String
  | .undefined => "Undefined"
  | .conflict | .unissued _ => "Conflict"
  | .boolean => "Boolean"
  | .byte => "Byte"
  | .char => "Char"
  | .short => "Short"
  | .int => "Integer"
  | .float => "Float"
  | .low k => k.word ++ " (Low Half)"
  | .high k => k.word ++ " (High Half)"
  | .constant lo hi precise =>
    let value :=
      if lo = hi then toString lo.toInt else toString lo.toInt ++ "..=" ++ toString hi.toInt
    precision precise ++ "Constant: " ++ value
  | .reference c precise => precision precise ++ "Reference: " ++ c.render
  | .unresolved c => "Unresolved Reference: " ++ c.render
  | .unresolvedMerged => "Unresolved Merged References"
  | .uninitialized c allocation =>
    "Uninitialized Reference: " ++ c.render ++ " Allocation PC: " ++ toString allocation
  | .uninitializedThis c => "Uninitialized This Reference: " ++ c.render

end RegType

end BytecodeVerifier
