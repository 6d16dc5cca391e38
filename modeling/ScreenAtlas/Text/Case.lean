import ScreenAtlas.Text.CaseTable

/-!
# Capital and small letters

Capitals are written character by character, and one character may become
several. Small letters are written the same way with one exception that looks at
the neighbours: the capital sigma becomes its final form at the end of a word.
The seven-bit letters are mapped by rule, everything else by table.
-/
namespace ScreenAtlas.Text

/-- Applies a case table to one character. -/
def mapCase (rows : List CaseRow) (sequences : List (Nat × List Nat)) (c : Char) : List Char :=
  match sequences.lookup c.toNat with
  | some positions => positions.map Char.ofNat
  | none =>
    match rows.find? fun row => row.covers c.toNat with
    | some row => [Char.ofNat (Int.toNat (c.toNat + row.shift))]
    | none => [c]

/-- The capital form of one character. -/
def capitalOf (c : Char) : List Char :=
  if c.toNat < 128 then [c.toUpper] else mapCase capitalRows capitalSequences c

/-- The small form of one character, apart from the final sigma. -/
def smallOf (c : Char) : List Char :=
  if c.toNat < 128 then [c.toLower] else mapCase smallRows smallSequences c

/-- The character is a capital letter. -/
def isCapital (c : Char) : Bool :=
  if c.toNat < 128 then c.isUpper else capitalLetterRows.any fun row => row.covers c.toNat

/-- The character is a letter with a capital and a small form. -/
def isCased (c : Char) : Bool :=
  if c.toNat < 128 then c.isAlpha else inRanges casedRanges c

/-- Casing looks through the character to its neighbours. -/
def isCaseIgnorable (c : Char) : Bool :=
  if c.toNat < 128 then ['\'', '.', ':', '^', '`'].contains c else inRanges caseIgnorableRanges c

/-- The first character that casing does not look through is a cased letter. -/
def meetsCased (text : List Char) : Bool :=
  match text.dropWhile isCaseIgnorable with
  | [] => false
  | c :: _ => isCased c

/-- Writes a text in small letters; `before` holds what precedes it, nearest
character first. -/
def smallFrom (before : List Char) : List Char → List Char
  | [] => []
  | c :: rest =>
    let written :=
      if c == 'Σ' then
        if meetsCased before && !meetsCased rest then ['ς'] else ['σ']
      else smallOf c
    written ++ smallFrom (c :: before) rest

/-- The text in small letters. -/
def small (text : List Char) : List Char := smallFrom [] text

/-- The text in capitals. -/
def capital (text : List Char) : List Char := text.flatMap capitalOf

/-- Two letters agree when case is disregarded. The pattern's letter is a small
seven-bit one; besides its two cases it stands for the long s, the dotless and
the dotted i and the sign of the unit kelvin where those fold to it. -/
def sameLetter (pattern c : Char) : Bool :=
  c == pattern || c.toLower == pattern ||
    (pattern == 's' && c == 'ſ') || (pattern == 'k' && c == 'K') ||
    (pattern == 'i' && (c == 'ı' || c == 'İ'))

end ScreenAtlas.Text
