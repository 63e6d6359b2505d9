import SecureCoap.Text.Unprintable

/-!
# Quoted texts

A text or a character between quotes, with a backslash in front of what would end the quote or
start an escape, short names for the common control characters, and the number of any other
character that shows nothing.
-/

namespace SecureCoap

namespace Quoted

def escape (quote c : Char) : String :=
  if c = '\x00' then "\\0"
  else if c = '\t' then "\\t"
  else if c = '\r' then "\\r"
  else if c = '\n' then "\\n"
  else if c = '\\' ∨ c = quote then String.ofList ['\\', c]
  else if isUnprintable c then
    "\\u\x7b" ++ String.ofList (Nat.toDigits 16 c.toNat) ++ "\x7d"
  else c.toString

def text (s : String) : String := "\"" ++ String.join (s.toList.map (escape '"')) ++ "\""

def char (c : Char) : String := "'" ++ escape '\'' c ++ "'"

end Quoted

end SecureCoap
