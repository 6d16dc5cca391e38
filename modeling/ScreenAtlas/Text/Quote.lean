import ScreenAtlas.Text.Printable

/-!
# Quoted text in messages

A message shows a text between quotation marks so that its exact characters can
be read off: single marks, or double marks when the text holds single ones only.
Line breaks and tabulators have short escapes, other characters without a visible
form are given by their position in two, four or eight hexadecimal figures.
-/
namespace ScreenAtlas.Text

/-- A number in hexadecimal figures, padded with zeros to a width. -/
def hexadecimal (width n : Nat) : List Char :=
  let figures := Nat.toDigits 16 n
  List.replicate (width - figures.length) '0' ++ figures

/-- One character as it is shown between the given quotation marks. -/
def showChar (mark c : Char) : List Char :=
  if c == mark || c == '\\' then ['\\', c]
  else if c == '\n' then ['\\', 'n']
  else if c == '\r' then ['\\', 'r']
  else if c == '\t' then ['\\', 't']
  else if isPrintable c then [c]
  else if c.toNat < 0x100 then '\\' :: 'x' :: hexadecimal 2 c.toNat
  else if c.toNat < 0x10000 then '\\' :: 'u' :: hexadecimal 4 c.toNat
  else '\\' :: 'U' :: hexadecimal 8 c.toNat

/-- A text between quotation marks. -/
def showText (text : List Char) : List Char :=
  let mark := if text.contains '\'' && !text.contains '"' then '"' else '\''
  mark :: (text.flatMap (showChar mark) ++ [mark])

end ScreenAtlas.Text
