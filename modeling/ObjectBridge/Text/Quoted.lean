import ObjectBridge.Text.Printable

/-!
# Quoted text

A text between double quotes, on one line and free of characters that a reader cannot see: quote and
backslash stand behind a backslash, NUL, tab, line feed and carriage return have a letter, and any
other unprintable character is written by its code point in hexadecimal.
-/

namespace ObjectBridge.Text

/-- The lower-case hexadecimal digits of a number, without leading zeros. -/
def hexDigits (n : Nat) : String := String.ofList (Nat.toDigits 16 n)

def quotedChar (c : Char) : String :=
  if c = '"' then "\\\""
  else if c = '\\' then "\\\\"
  else if c = '\x00' then "\\0"
  else if c = '\t' then "\\t"
  else if c = '\n' then "\\n"
  else if c = '\r' then "\\r"
  else if isPrintable c then c.toString
  else "\\u\x7b" ++ hexDigits c.toNat ++ "\x7d"

def quoted (s : String) : String := "\"" ++ String.join (s.toList.map quotedChar) ++ "\""

end ObjectBridge.Text
