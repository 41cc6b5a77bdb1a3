import Cose.Text.Hidden

/-!
# Quoted text

A quoted text stands between double quotes on one line. Quotes and backslashes are escaped, four controls have
names, and every other character that does not show is given by its code point in hexadecimal.
-/

set_option autoImplicit false

namespace Cose

namespace Text

def codePoint (c : Char) : String := "\\u\x7b" ++ String.ofList (Nat.toDigits 16 c.toNat) ++ "\x7d"

def quoteChar (c : Char) : String :=
  if c = '\x00' then "\\0"
  else if c = '\t' then "\\t"
  else if c = '\r' then "\\r"
  else if c = '\n' then "\\n"
  else if c = '"' then "\\\""
  else if c = '\\' then "\\\\"
  else if isHidden c then codePoint c
  else String.singleton c

def quote (s : String) : String := "\"" ++ String.join (s.toList.map quoteChar) ++ "\""

end Text

end Cose
