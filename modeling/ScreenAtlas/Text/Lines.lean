/-!
# Lines

Files are read with one kind of line break: a carriage return, alone or together
with the line feed behind it, becomes a line feed. Rule files are then cut at
every character that ends a line in some script, and an unfinished last line
counts.
-/
namespace ScreenAtlas.Text

/-- The text with every line break written as a line feed. -/
def unifyBreaks : List Char → List Char
  | [] => []
  | '\r' :: '\n' :: rest => '\n' :: unifyBreaks rest
  | '\r' :: rest => '\n' :: unifyBreaks rest
  | c :: rest => c :: unifyBreaks rest

/-- The character ends a line in some script. -/
def endsLine (c : Char) : Bool :=
  ['\n', '\r', '\x0b', '\x0c', '\x1c', '\x1d', '\x1e', '\u0085', '\u2028', '\u2029'].contains c

/-- Collects lines; `current` holds the line being read, last character first. -/
def linesFrom (current : List Char) : List Char → List (List Char)
  | [] => if current.isEmpty then [] else [current.reverse]
  | '\r' :: '\n' :: rest => current.reverse :: linesFrom [] rest
  | c :: rest =>
    if endsLine c then current.reverse :: linesFrom [] rest else linesFrom (c :: current) rest

/-- The lines of a text without their breaks. -/
def lines (text : List Char) : List (List Char) := linesFrom [] text

end ScreenAtlas.Text
