import EntitySearch.Text.Visible

/-!
# Texts quoted in a message

`quotedText` puts a text between quotes so that its ends and all of its characters can be seen:
quotes and backslashes are escaped, and a character that is not visible is given by its code point.
-/

namespace EntitySearch

def quotedChar (c : Char) : List Char :=
  if c = '\x00' then ['\\', '0']
  else if c = '\t' then ['\\', 't']
  else if c = '\n' then ['\\', 'n']
  else if c = '\r' then ['\\', 'r']
  else if c = '"' then ['\\', '"']
  else if c = '\\' then ['\\', '\\']
  else if isVisible c then [c]
  else '\\' :: 'u' :: '{' :: Nat.toDigits 16 c.toNat ++ ['}']

def quotedText (s : String) : String := .ofList ('"' :: s.toList.flatMap quotedChar ++ ['"'])

end EntitySearch
