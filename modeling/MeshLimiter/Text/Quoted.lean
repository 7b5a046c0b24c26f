import MeshLimiter.Text.Printable
/-!
# Quoted texts

How a text or a single character is shown inside a message: between quotes, with the characters
that would not show written as escapes. The same form writes the values of label signatures, so a
quoted text can be read back without doubt.
-/

namespace MeshLimiter.Text

/-- The escape `\u{hex}` of a character, with lower case digits and no leading zero. -/
def unicodeEscape (c : Char) : List Char :=
  '\\' :: 'u' :: '\x7b' :: Nat.toDigits 16 c.toNat ++ ['\x7d']

/-- A character as it stands between two marks `quote`: the mark, the backslash and the usual
controls after a backslash, characters that do not show by their number, all others as they are. -/
def escaped (quote c : Char) : List Char :=
  if c = '\x00' then ['\\', '0']
  else if c = '\t' then ['\\', 't']
  else if c = '\r' then ['\\', 'r']
  else if c = '\n' then ['\\', 'n']
  else if c = '\\' then ['\\', '\\']
  else if c = quote then ['\\', quote]
  else if isExtender c || !hasShape c then unicodeEscape c
  else [c]

def quoted (s : String) : String :=
  String.ofList ('"' :: s.toList.flatMap (escaped '"') ++ ['"'])

def quotedChar (c : Char) : String :=
  String.ofList ('\'' :: escaped '\'' c ++ ['\''])

end MeshLimiter.Text
