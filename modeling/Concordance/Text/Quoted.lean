import Concordance.Text.Unprintable

/-!
# Quoted texts

A text is shown between quotes, in such a way that what it consists of can be seen:
quotes and backslashes have a backslash in front of them, and characters that
cannot be seen on their own are shown by a letter or by their code point.
-/

namespace Concordance

namespace Quoted

/-- How a character is shown by its code point. -/
def byCode (c : Char) : List Char :=
  ['\\', 'u', '\x7b'] ++ Nat.toDigits 16 c.toNat ++ ['\x7d']

/-- How a character is shown inside quotes. -/
def escape (c : Char) : List Char :=
  if c = '"' then ['\\', '"']
  else if c = '\\' then ['\\', '\\']
  else if c = '\n' then ['\\', 'n']
  else if c = '\r' then ['\\', 'r']
  else if c = '\t' then ['\\', 't']
  else if c.toNat = 0 then ['\\', '0']
  else if isUnprintable c then byCode c
  else [c]

/-- A text between quotes. -/
def quote (text : String) : String :=
  String.ofList ('"' :: text.toList.flatMap escape ++ ['"'])

end Quoted

end Concordance
