import Phenotyping.Text.GraphemeExtend
/-! # Quoted text

A text is shown between double quotes for a reader. Null, tab, carriage return and line feed
are written `\0`, `\t`, `\r` and `\n`, a backslash or double quote is preceded by a
backslash, and a grapheme extender or a character that is not printable is written as
`\u` with its code point in lowercase hexadecimal between braces. A grapheme extender is
escaped even when printable, since alone it would attach to the quote or character before it.
Every other character, the single quote among them, stands as itself.
-/
namespace Phenotyping.Text
set_option autoImplicit false

def quotedChar (c : Char) : String :=
  if c = '\x00' then "\\0" else if c = '\t' then "\\t" else if c = '\r' then "\\r"
  else if c = '\n' then "\\n" else if c = '\\' then "\\\\" else if c = '"' then "\\\""
  else if isGraphemeExtend c || !isPrintable c then
    "\\u\x7b" ++ String.ofList (Nat.toDigits 16 c.toNat) ++ "\x7d"
  else c.toString

/-- A text in double quotes, escaped. -/
def quoted (s : String) : String := "\"" ++ String.join (s.toList.map quotedChar) ++ "\""

end Phenotyping.Text
