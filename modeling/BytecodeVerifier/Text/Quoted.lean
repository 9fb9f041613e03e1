import BytecodeVerifier.Text.Hex
import BytecodeVerifier.Text.Unprintable

/-!
# Quoted text

A text between double quotes on one line, in which every character can be seen. Quote and backslash
are escaped by a backslash, four control characters have a letter of their own, and any other
character that would not show is written as its code point.
-/

namespace BytecodeVerifier.Text

/-- How one character stands in a quoted text. -/
def quoteChar (c : Char) : String :=
  match c with
  | '\x00' => "\\0"
  | '\t' => "\\t"
  | '\n' => "\\n"
  | '\r' => "\\r"
  | '"' => "\\\""
  | '\\' => "\\\\"
  | c => if isUnprintable c then "\\u\x7b" ++ hex c.toNat ++ "\x7d" else c.toString

/-- The text between double quotes. -/
def quote (s : String) : String := "\"" ++ String.join (s.toList.map quoteChar) ++ "\""

end BytecodeVerifier.Text
