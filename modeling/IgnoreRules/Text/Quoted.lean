import IgnoreRules.Text.Hex
import IgnoreRules.Text.Printable

/-!
# Quoted text

Text is quoted with apostrophes, or with double quotes when it holds an apostrophe and no
double quote. The quote in use and the backslash are escaped, tab, line feed and carriage
return have escapes of their own, and any other character that is not printable is
written by its code point in hexadecimal, with two, four or eight digits.
-/

namespace IgnoreRules.Text

/-- The quote that a text is put in. -/
def quoteFor (text : List Char) : Char :=
  if text.contains '\'' && !text.contains '"' then '"' else '\''

/-- How a character is written between two quotes. -/
def quotedChar (quote c : Char) : List Char :=
  if c = quote ∨ c = '\\' then ['\\', c]
  else if c = '\t' then ['\\', 't']
  else if c = '\n' then ['\\', 'n']
  else if c = '\r' then ['\\', 'r']
  else if isPrintable c then [c]
  else if c.toNat < 0x100 then '\\' :: 'x' :: hexDigits 2 c.toNat
  else if c.toNat < 0x10000 then '\\' :: 'u' :: hexDigits 4 c.toNat
  else '\\' :: 'U' :: hexDigits 8 c.toNat

def quoted (text : List Char) : List Char :=
  let quote := quoteFor text
  quote :: text.flatMap (quotedChar quote) ++ [quote]

end IgnoreRules.Text
