/-!
# Code points

Text from outside comes in code points. All of them are characters except the halves of
pairs, which mean a character only two at a time. The texts of this library are made of
characters, so they hold no half that stands alone: where an escape names one, the
replacement character is read in its place. Only the path by which a file is asked for keeps
its lone halves, because such a path is refused in a way of its own.
-/
namespace ScreenAtlas.Text

/-- The character that stands for what is no character. -/
def replacement : Char := Char.ofNat 0xFFFD

/-- The character at a position. Half a pair is no character and gives the replacement. -/
def charAt (position : Nat) : Char :=
  if 0xD800 ≤ position && position ≤ 0xDFFF then replacement else Char.ofNat position

/-- A code point: a character, or half of a pair, counted from the first half on. -/
inductive Point where
  | char (c : Char)
  | half (index : Fin 0x800)
  deriving DecidableEq, Repr

namespace Point

/-- The code point as a character; half a pair is shown as the replacement. -/
def shown : Point → Char
  | char c => c
  | half _ => replacement

/-- The bytes of a code point in a file name. Halves in the row of 128 that stands for bytes
outside of any character are written as these bytes; no bytes are written for other halves. -/
def bytes? : Point → Option (List UInt8)
  | char c => some (String.utf8EncodeChar c)
  | half index =>
    if 0x480 ≤ index.val && index.val ≤ 0x4FF then some [UInt8.ofNat (index.val - 0x400)] else none

end Point

end ScreenAtlas.Text
