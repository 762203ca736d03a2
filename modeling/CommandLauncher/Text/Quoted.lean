/-
  QUOTED TEXTS — a text as it is shown inside a message, between double quotes.

  Quotes, backslashes and the common control characters are written with a backslash.  Any other
  character that would not be visible on its own, because it has no glyph or attaches to the
  character before it, is written by its code point.
-/
import CommandLauncher.Text.Graphic

namespace CommandLauncher.Text

/-- The hexadecimal digits of a number, without leading zeros. -/
def hexDigits (n : Nat) : List Char := Nat.toDigits 16 n

/-- A character inside double quotes. -/
def quotedChar (c : Char) : List Char :=
  if c = '"' then ['\\', '"']
  else if c = '\\' then ['\\', '\\']
  else if c = '\n' then ['\\', 'n']
  else if c = '\r' then ['\\', 'r']
  else if c = '\t' then ['\\', 't']
  else if c = '\x00' then ['\\', '0']
  else if isGraphic c then [c]
  else ['\\', 'u', '{'] ++ hexDigits c.toNat ++ ['}']

/-- A text between double quotes. -/
def quoted (s : String) : String :=
  String.ofList ('"' :: s.toList.flatMap quotedChar ++ ['"'])

/-! ## Running it -/

example : quoted "a\"b\u200b" = "\"a\\\"b\\u\x7b200b\x7d\"" := by decide +kernel

end CommandLauncher.Text
