import YieldVault.Text.Glyph
import YieldVault.Text.Numeral

/-!
# Quoted text

A text between double quotes, as it appears inside messages. The quote, the backslash and the common
controls have short escapes; every other character that does not show is written by its code point.
-/

namespace YieldVault.Text

/-- The escape by code point, in lowercase hexadecimal digits. -/
def codePointEscape (c : Char) : List Char :=
  ['\\', 'u', Char.ofNat 0x7b] ++ hexDigits c.toNat ++ [Char.ofNat 0x7d]

def quotedChar (c : Char) : List Char :=
  if c = '"' ∨ c = '\\' then ['\\', c]
  else if c = '\n' then ['\\', 'n']
  else if c = '\r' then ['\\', 'r']
  else if c = '\t' then ['\\', 't']
  else if c.toNat = 0 then ['\\', '0']
  else if isHidden c then codePointEscape c
  else [c]

def quoted (s : String) : String := String.ofList (['"'] ++ s.toList.flatMap quotedChar ++ ['"'])

end YieldVault.Text
