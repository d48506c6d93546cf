/-
# Quoted text

A quoted text stands between double quotes.  Quote and backslash are preceded by a
backslash, four control characters have a letter of their own, and any other
character without a printed form is given by its number.
-/
import CallbackBridge.Text.Unprintable
namespace CallbackBridge.Quoted

/-- The digits of a number to base sixteen. -/
def hexDigits (n : Nat) : List Char := Nat.toDigits 16 n

/-- A character as it stands between the quotes. -/
def escape (c : Char) : List Char :=
  if c = '\x00' then ['\\', '0']
  else if c = '\t' then ['\\', 't']
  else if c = '\r' then ['\\', 'r']
  else if c = '\n' then ['\\', 'n']
  else if c = '"' then ['\\', '"']
  else if c = '\\' then ['\\', '\\']
  else if Unprintable.holds c then
    ['\\', 'u', '\x7b'] ++ hexDigits c.toNat ++ ['\x7d']
  else [c]

/-- A text between quotes. -/
def encode (text : String) : String :=
  String.ofList ('"' :: (text.toList.flatMap escape ++ ['"']))

/-- A text that may be absent. -/
def encodeOption : Option String → String
  | none => "None"
  | some text => "Some(" ++ encode text ++ ")"

end CallbackBridge.Quoted
