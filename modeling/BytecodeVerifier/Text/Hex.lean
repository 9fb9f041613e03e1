/-!
# Hexadecimal numbers
-/

namespace BytecodeVerifier.Text

/-- A number in lower case hexadecimal digits, without leading zeros. -/
def hex (n : Nat) : String := String.ofList (Nat.toDigits 16 n)

end BytecodeVerifier.Text
