import CilBind.Text.Printable
import CilBind.Text.Hex

/-!
# `CilBind.Text.Quoted`: strings written between double quotes

A string is written between double quotes. Inside, the backslash, the double
quote, tab, carriage return, line feed and NUL are written as `\\`, `\"`, `\t`,
`\r`, `\n` and `\0`; a character that extends a grapheme, or does not print, is
written as its code point in lowercase hexadecimal between `\u` and braces; every
other character, the single quote among them, stands for itself.
-/

set_option autoImplicit false

namespace CilBind.Quoted

/-- The written form of one character inside the quotes. -/
def escapeChar (c : Char) : List Char :=
  if c = '\\' then ['\\', '\\']
  else if c = '"' then ['\\', '"']
  else if c = '\t' then ['\\', 't']
  else if c = '\r' then ['\\', 'r']
  else if c = '\n' then ['\\', 'n']
  else if c = '\x00' then ['\\', '0']
  else if Printable.isGraphemeExtend c || !Printable.isPrintable c then
    ['\\', 'u', '\x7b'] ++ Hex.digits c.toNat ++ ['\x7d']
  else [c]

/-- The quoted form of a string. -/
def quote (s : String) : String :=
  String.ofList ('"' :: s.toList.flatMap escapeChar ++ ['"'])

end CilBind.Quoted
