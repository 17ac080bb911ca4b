import ResourceAccess.Text.Printed

/-!
# Quoted text in messages

A text is shown between double quotes. Quotes, backslashes, line ends, tabs and the NUL character are escaped by a
letter, characters without a form of their own by their number.
-/

namespace ResourceAccess.Text

def spelled (c : Char) : List Char :=
  if c = '"' then ['\\', '"']
  else if c = '\\' then ['\\', '\\']
  else if c = '\n' then ['\\', 'n']
  else if c = '\r' then ['\\', 'r']
  else if c = '\t' then ['\\', 't']
  else if c.toNat = 0 then ['\\', '0']
  else if isPrinted c then [c]
  else ['\\', 'u', '\x7b'] ++ Nat.toDigits 16 c.toNat ++ ['\x7d']

def quotedChars (cs : List Char) : List Char := '"' :: cs.flatMap spelled ++ ['"']

def quoted (s : String) : String := String.ofList (quotedChars s.toList)

end ResourceAccess.Text
