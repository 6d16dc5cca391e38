import Mathlib.Data.List.TakeWhile
import ScreenAtlas.Proofs.RouteMarkup

/-!
# Scanning a written route tree

The text scan of a written forest finds exactly the declarations that the forest
lays out on the line: one for every route with a path, from its opening tag to its
closing tag. Names are read as far as the scan reads names: they must start with
a letter of the seven-bit range, an underscore or a dollar sign, and end before
the first character that is neither a word character, a point nor a dollar sign.
Other names are not read, or not read to their end.
-/
namespace ScreenAtlas.Route.Markup

open ScreenAtlas.Text

/-- The part of a name that the text scan reads, if it reads any. -/
def Name.scanned (name : Name) : Option String :=
  (dottedName? name.chars).map fun found => String.ofList found.1

/-- The name starts with a letter of the seven-bit range, an underscore or a dollar
sign, and goes on with word characters, points and dollar signs. -/
def Name.isPlain (name : Name) : Bool :=
  startsName name.head.first && name.chars.tail.all fun c => isWord c || c == '.' || c == '$'

/-- All names of the element are plain, the wrapper's included. -/
def Element.isPlain : Element → Bool
  | plain component => component.isPlain
  | wrapped wrapper component => wrapper.isPlain && component.isPlain

/-- Exactly the plain names are read as they are written. Any other name is cut or not read at
all, so the scan never gives back the whole of it. -/
theorem Name.scanned_eq_declared_iff (name : Name) :
    name.scanned = name.declared ↔ name.isPlain = true := by
  obtain ⟨more, shown, _⟩ := name.chars_eq
  by_cases starts : startsName name.head.first = true
  · simp [scanned, declared, isPlain, dottedName?, nameOf?, shown, starts, String.ofList_inj,
      List.takeWhile_eq_self_iff]
  · simp [scanned, declared, isPlain, dottedName?, nameOf?, shown, starts]

/-- The names of an element with plain names are read as they are written, that of the component
and that of a wrapper. -/
theorem Element.names_scanned {element : Element} (plain : element.isPlain = true) :
    element.names Name.scanned = element.names Name.declared := by
  cases element with
  | plain component =>
    simp only [names, component.scanned_eq_declared_iff.mpr plain]
  | wrapped wrapper component =>
    obtain ⟨outer, inner⟩ := (Bool.and_eq_true _ _).mp plain
    simp only [names, wrapper.scanned_eq_declared_iff.mpr outer,
      component.scanned_eq_declared_iff.mpr inner]

/-- Written elements hold only brackets, slashes, blanks, points and the characters of their
names, so that braces and quotation marks are not among them. -/
theorem Element.not_mem (element : Element) (c : Char) (excluded : isIdentifierChar c = false)
    (other : c ∉ ['.', '<', '>', '/', ' ']) : c ∉ element.chars := by
  simp only [List.mem_cons, not_or] at other
  obtain ⟨point, opens, closes, slash, blank, _⟩ := other
  have outside : ∀ name : Name, c ∉ name.chars := fun name => name.not_mem c excluded point
  cases element with
  | plain component => simp [Element.chars, leafTag, outside, opens, closes, slash, blank]
  | wrapped wrapper component =>
    simp [Element.chars, leafTag, outside, opens, closes, slash, blank]

/-- The inside of an opening tag between its angle brackets. -/
def Label.body (label : Label) (leaf : Bool) : List Char :=
  ['R', 'o', 'u', 't', 'e'] ++ label.attributes ++ (if leaf then [' ', '/'] else [])

/-- An opening tag is its body between angle brackets, with the slash of a route without children
in the body. -/
theorem Label.openTag_eq (label : Label) (leaf : Bool) :
    label.openTag leaf = '<' :: label.body leaf ++ ['>'] := by
  cases leaf <;> simp [openTag, body, ending]

/-- A name can be passed over by the scan of a tag, because it holds no brace, no quotation mark
and no closing bracket. -/
theorem Name.body (name : Name) : Tag.Body name.chars := by
  apply Tag.body_of_plain
  exact ⟨name.not_mem _ (by decide) (by decide), name.not_mem _ (by decide) (by decide),
    name.not_mem _ (by decide) (by decide), name.not_mem _ (by decide) (by decide)⟩

/-- A path attribute can be passed over by the scan of a tag: its quotation marks and braces are
balanced, also where the path holds a bracket. -/
theorem Label.pathAttribute_body (label : Label) : Tag.Body label.pathAttribute := by
  unfold pathAttribute
  split
  · exact .nil
  · next path spelling _ =>
    refine Tag.Body.append (Tag.body_of_plain _ (by decide)) ?_
    by_cases braced : spelling.braced = true
    · have inside := Tag.balanced_of_plain (spelling.literal path.chars)
        (spelling.not_mem_literal path _ (by decide) (by decide))
        (spelling.not_mem_literal path _ (by decide) (by decide))
      simpa [Spelling.write, braced] using Tag.Body.group _ [] inside .nil
    · have quote : spelling.mark = '"' ∨ spelling.mark = '\'' := by
        cases spelling <;> simp_all [Spelling.mark, Spelling.braced]
      simpa [Spelling.write, braced, Spelling.literal] using
        Tag.Body.quoted _ path.chars [] quote (spelling.mark_not_mem path) .nil

/-- The attribute with the rendered element can be passed over by the scan of a tag, since the
brackets of the element stand in braces. -/
theorem Label.elementAttribute_body (label : Label) : Tag.Body label.elementAttribute := by
  have inside : Tag.Balanced label.element.chars :=
    Tag.balanced_of_plain _ (label.element.not_mem _ (by decide) (by decide))
      (label.element.not_mem _ (by decide) (by decide))
  have word : Tag.Body [' ', 'e', 'l', 'e', 'm', 'e', 'n', 't', '='] :=
    Tag.body_of_plain _ (by decide)
  simpa [elementAttribute] using word.append (Tag.Body.group _ [] inside .nil)

/-- The body of an opening tag can be passed over as a whole, whichever of the two attributes
comes first. -/
theorem Label.body_passable (label : Label) (leaf : Bool) : Tag.Body (label.body leaf) := by
  have attributes : Tag.Body label.attributes := by
    unfold Label.attributes
    split
    · exact label.elementAttribute_body.append label.pathAttribute_body
    · exact label.pathAttribute_body.append label.elementAttribute_body
  refine Tag.Body.append (Tag.Body.append (Tag.body_of_plain _ (by decide)) attributes) ?_
  cases leaf <;> exact Tag.body_of_plain _ (by decide)

/-- The attributes of a route do not end in a slash, so a tag with children is not taken for one
that closes itself. -/
theorem Label.lastOr_attributes (label : Label) (before : Option Char) :
    lastOr before label.attributes ≠ some '/' := by
  have element (before : Option Char) : lastOr before label.elementAttribute = some '\x7d' :=
    lastOr_concat before _ _
  unfold attributes
  split
  · rw [lastOr_append, element]
    unfold pathAttribute
    split
    · simp [lastOr]
    · next path spelling _ =>
      unfold Spelling.write
      split
      · rw [← List.append_assoc, lastOr_concat]
        decide
      · rw [Spelling.literal, ← List.append_assoc, lastOr_concat]
        cases spelling <;> decide
  · rw [lastOr_append, element]
    decide

/-- The scan of an opening tag ends right behind it and says whether it closes itself, wherever
the tag stands in the text. -/
theorem scan_openTag (front : List Char) (label : Label) (leaf : Bool) (rest : List Char) :
    Tag.scan (front ++ label.openTag leaf ++ rest) front.length =
      (front.length + (label.openTag leaf).length, leaf) := by
  have slash : (lastOr (some '<') (label.body leaf) == some '/') = leaf := by
    cases leaf with
    | true =>
      rw [Label.body, lastOr_append]
      rfl
    | false =>
      rw [Label.body, lastOr_append, lastOr_append]
      simpa [lastOr] using label.lastOr_attributes (some 'e')
  have found := Tag.scan_tag front (label.body_passable leaf) rest
  rw [slash] at found
  rw [label.openTag_eq leaf]
  simpa [Nat.add_assoc] using found

/-- A literal path with what is in its braces blanked out. -/
def Spelling.masked (spelling : Spelling) (path : List Char) : List Char :=
  if spelling.braced then
    '\x7b' :: List.replicate (spelling.literal path).length ' ' ++ ['\x7d']
  else spelling.literal path

/-- The path attribute with what is in its braces blanked out. -/
def Label.maskedPath (label : Label) : List Char :=
  match label.path with
  | none => []
  | some (path, spelling) => [' ', 'p', 'a', 't', 'h', '='] ++ spelling.masked path.chars

/-- The attribute with the rendered element, with what is in its braces blanked out. -/
def Label.maskedElement (label : Label) : List Char :=
  [' ', 'e', 'l', 'e', 'm', 'e', 'n', 't', '=', '\x7b'] ++
    List.replicate label.element.chars.length ' ' ++ ['\x7d']

/-- Masking blanks a literal path out if it stands in braces and leaves it otherwise. What follows
is masked by itself. -/
theorem mask_write (spelling : Spelling) (path : PathText) (rest : List Char) :
    Tag.mask 0 (spelling.write path.chars ++ rest) =
      spelling.masked path.chars ++ Tag.mask 0 rest := by
  have opens := spelling.not_mem_literal path '\x7b' (by decide) (by decide)
  have closes := spelling.not_mem_literal path '\x7d' (by decide) (by decide)
  by_cases braced : spelling.braced = true
  · simpa [Spelling.write, Spelling.masked, braced] using Tag.mask_group _ rest opens closes
  · simpa [Spelling.write, Spelling.masked, braced] using Tag.mask_plain _ rest opens closes

/-- Masking a path attribute blanks out what is in its braces and keeps its name. A route without
a path has nothing to mask. -/
theorem mask_pathAttribute (label : Label) (rest : List Char) :
    Tag.mask 0 (label.pathAttribute ++ rest) = label.maskedPath ++ Tag.mask 0 rest := by
  cases given : label.path with
  | none => simp [Label.pathAttribute, Label.maskedPath, given]
  | some spelled =>
    simp only [Label.pathAttribute, Label.maskedPath, given]
    rw [List.append_assoc, Tag.mask_plain _ _ (by decide) (by decide), mask_write,
      List.append_assoc]

/-- Masking the attribute with the rendered element blanks the element out, whose brackets and
names could be mistaken for attributes. -/
theorem mask_elementAttribute (label : Label) (rest : List Char) :
    Tag.mask 0 (label.elementAttribute ++ rest) = label.maskedElement ++ Tag.mask 0 rest := by
  have group := Tag.mask_group label.element.chars rest
    (label.element.not_mem _ (by decide) (by decide))
    (label.element.not_mem _ (by decide) (by decide))
  have word := Tag.mask_plain [' ', 'e', 'l', 'e', 'm', 'e', 'n', 't', '=']
    ('\x7b' :: label.element.chars ++ '\x7d' :: rest) (by decide) (by decide)
  rw [group] at word
  simpa [Label.elementAttribute, Label.maskedElement] using word

/-- The letters of the path attribute, in the form in which tags are written. -/
theorem path_letters : "path".toList = ['p', 'a', 't', 'h'] := by simp

/-- The letters of the element attribute, in the form in which tags are written. -/
theorem element_letters : "element".toList = ['e', 'l', 'e', 'm', 'e', 'n', 't'] := by simp

/-- The masked path attribute holds no element attribute: a quoted path could
hold the word, but its closing mark stands before the next equals sign. -/
theorem maskedPath_avoids (label : Label) (rest : List Char) :
    Avoids (Tag.attribute? "element") label.maskedPath rest := by
  cases given : label.path with
  | none => simp [Label.maskedPath, given, Avoids]
  | some spelled =>
    obtain ⟨path, spelling⟩ := spelled
    simp only [Label.maskedPath, given]
    refine avoids_append.mpr
      ⟨avoids_of_not_mem (Tag.attribute?_needs element_letters) (by decide) _, ?_⟩
    by_cases braced : spelling.braced = true
    · apply avoids_of_not_mem (Tag.attribute?_needs element_letters)
      simp [Spelling.masked, braced]
    · simp only [Spelling.masked, braced, Bool.false_eq_true, ↓reduceIte, Spelling.literal]
      apply Tag.avoids_barred rest
      · have equals : '=' ≠ spelling.mark := by cases spelling <;> decide
        simp [equals, path.not_mem '=' (by decide)]
      · rw [element_letters]
        cases spelling <;> decide
      · cases spelling <;> decide
      · exact spelling.mark_solid

/-- What stands behind the name of the tag starts with a blank, with a path attribute and without
one. -/
theorem Label.maskedPath_append (label : Label) (rest : List Char) :
    ∃ more, label.maskedPath ++ ' ' :: rest = ' ' :: more := by
  cases given : label.path with
  | none => exact ⟨rest, by simp [maskedPath, given]⟩
  | some spelled =>
    simp only [maskedPath, given]
    exact ⟨_, rfl⟩

/-- What follows the path attribute in the opening tag. -/
def Label.afterPath (label : Label) (leaf : Bool) : List Char :=
  (if label.elementFirst then [] else label.elementAttribute) ++ ending leaf

/-- What follows the rendered element's brace in the opening tag. -/
def Label.afterElement (label : Label) (leaf : Bool) : List Char :=
  (if label.elementFirst then label.pathAttribute else []) ++ ending leaf

/-- What stands before the rendered element's brace in the opening tag. -/
def Label.beforeElement (label : Label) : List Char :=
  ['<', 'R', 'o', 'u', 't', 'e'] ++ (if label.elementFirst then [] else label.pathAttribute) ++
    [' ', 'e', 'l', 'e', 'm', 'e', 'n', 't', '=']

/-- The opening tag is what stands before the rendered element, the element in its braces and what
stands behind, in either order of the attributes. -/
theorem Label.openTag_element (label : Label) (leaf : Bool) :
    label.openTag leaf = label.beforeElement ++
      '\x7b' :: label.element.chars ++ '\x7d' :: label.afterElement leaf := by
  by_cases first : label.elementFirst = true
  · simp [openTag, attributes, beforeElement, afterElement, elementAttribute, first]
  · simp [openTag, attributes, beforeElement, afterElement, elementAttribute, first]

/-- No angle bracket opens in a path attribute, since paths hold none and the marks around them
are others. -/
theorem Label.angle_not_mem_pathAttribute (label : Label) : '<' ∉ label.pathAttribute := by
  unfold pathAttribute
  split
  · simp
  · next path spelling _ =>
    have literal := spelling.not_mem_literal path '<' (by decide) (by decide)
    unfold Spelling.write
    split <;> simp [literal]

/-- No angle bracket opens behind the rendered element, where at most the path attribute and the
end of the tag stand. -/
theorem Label.angle_not_mem_afterElement (label : Label) (leaf : Bool) :
    '<' ∉ label.afterElement leaf := by
  have ends : '<' ∉ ending leaf := by cases leaf <;> decide
  unfold afterElement
  split
  · simp [label.angle_not_mem_pathAttribute, ends]
  · simp [ends]

/-- A route without a path has no path attribute: neither the name of the tag nor the masked
element holds one. -/
theorem pathValue_none (label : Label) (leaf : Bool) (given : label.path = none) :
    Tag.attributeValue? "path" (label.openTag leaf) = none := by
  have shown : Tag.mask 0 (label.openTag leaf) =
      ['<', 'R', 'o', 'u', 't', 'e'] ++ label.maskedElement ++ Label.ending leaf := by
    have attributes : label.attributes = label.elementAttribute := by
      simp [Label.attributes, Label.pathAttribute, given]
    have tail : Tag.mask 0 (Label.ending leaf) = Label.ending leaf := by
      cases leaf <;> rfl
    rw [Label.openTag, attributes, List.append_assoc,
      Tag.mask_plain _ _ (by decide) (by decide), mask_elementAttribute, tail, List.append_assoc]
  have avoided : Avoids (Tag.attribute? "path")
      (['<', 'R', 'o', 'u', 't', 'e'] ++ label.maskedElement ++ Label.ending leaf) [] := by
    apply avoids_of_not_mem (Tag.attribute?_needs path_letters)
    cases leaf <;> simp [Label.maskedElement, Label.ending]
  rw [Tag.attributeValue?, shown, first?_eq_none avoided]
  rfl

/-- The value of an attribute that stands behind a blank, with at most the other attribute
before it, when that one does not hold such an attribute itself. -/
theorem attributeValue?_behind {name : String} {letters other masked value : List Char}
    (spelled : name.toList = letters) (unbraced : '\x7b' ∉ letters ∧ '\x7d' ∉ letters)
    (shown : ∀ rest, Tag.mask 0 (other ++ rest) = masked ++ Tag.mask 0 rest)
    (avoided : Avoids (Tag.attribute? name) (['<', 'R', 'o', 'u', 't', 'e'] ++ masked ++ [' '])
      (letters ++ '=' :: Tag.mask 0 value))
    (solid : skipBlanks (Tag.mask 0 value) = Tag.mask 0 value) :
    Tag.attributeValue? name ((['<', 'R', 'o', 'u', 't', 'e'] ++ other ++ [' ']) ++
      (letters ++ '=' :: value)) = some value := by
  refine Tag.attributeValue?_found spelled ?_ avoided ?_ solid
  · have named : Tag.mask 0 (letters ++ '=' :: value) = letters ++ '=' :: Tag.mask 0 value :=
      Tag.mask_plain letters _ unbraced.1 unbraced.2
    simp only [List.append_assoc]
    rw [Tag.mask_plain _ _ (by decide) (by decide), shown, Tag.mask_plain [' '] _ (by decide)
      (by decide), named]
  · rw [lastOr_concat]
    decide

/-- The value of the path attribute starts with the literal path, also behind the rendered
element, which is blanked out while the attribute is looked for. -/
theorem pathValue_some (label : Label) (leaf : Bool) {path : PathText} {spelling : Spelling}
    (given : label.path = some (path, spelling)) :
    Tag.attributeValue? "path" (label.openTag leaf) =
      some (spelling.write path.chars ++ label.afterPath leaf) := by
  let value := spelling.write path.chars ++ label.afterPath leaf
  have solid : skipBlanks (Tag.mask 0 value) = Tag.mask 0 value := by
    simp only [value, mask_write, Spelling.masked]
    split
    · exact skipBlanks_cons (by decide) _
    · exact skipBlanks_cons spelling.mark_solid _
  have tag : label.openTag leaf = (['<', 'R', 'o', 'u', 't', 'e'] ++
      (if label.elementFirst then label.elementAttribute else []) ++ [' ']) ++
        (['p', 'a', 't', 'h'] ++ '=' :: value) := by
    by_cases first : label.elementFirst = true <;>
      simp [Label.openTag, Label.attributes, first, value, Label.afterPath, Label.pathAttribute,
        given]
  have shown (rest : List Char) :
      Tag.mask 0 ((if label.elementFirst then label.elementAttribute else []) ++ rest) =
        (if label.elementFirst then label.maskedElement else []) ++ Tag.mask 0 rest := by
    split
    · exact mask_elementAttribute label rest
    · rfl
  rw [tag]
  refine attributeValue?_behind path_letters (by decide) shown ?_ solid
  apply avoids_of_not_mem (Tag.attribute?_needs path_letters)
  split <;> simp [Label.maskedElement]

/-- No element attribute starts in the name of the tag, whose letters do not spell one. -/
theorem opening_avoids (rest : List Char) :
    Avoids (Tag.attribute? "element") ['<', 'R', 'o', 'u', 't', 'e'] (' ' :: rest) := by
  show Avoids _ (['<', 'R', 'o', 'u', 't'] ++ ['e']) _
  refine avoids_append.mpr
    ⟨avoids_of_not_mem (Tag.attribute?_needs element_letters) (by decide) _, ?_, trivial⟩
  intro before
  simp [Tag.attribute?, literal?, after?]

/-- The value of the element attribute starts with the rendered element in its braces, whether or
not the path attribute stands before it. -/
theorem elementValue (label : Label) (leaf : Bool) :
    Tag.attributeValue? "element" (label.openTag leaf) =
      some ('\x7b' :: label.element.chars ++ '\x7d' :: label.afterElement leaf) := by
  let value := '\x7b' :: label.element.chars ++ '\x7d' :: label.afterElement leaf
  have tag : label.openTag leaf = (['<', 'R', 'o', 'u', 't', 'e'] ++
      (if label.elementFirst then [] else label.pathAttribute) ++ [' ']) ++
        (['e', 'l', 'e', 'm', 'e', 'n', 't'] ++ '=' :: value) := by
    rw [label.openTag_element]
    simp [Label.beforeElement, value]
  have shown (rest : List Char) :
      Tag.mask 0 ((if label.elementFirst then [] else label.pathAttribute) ++ rest) =
        (if label.elementFirst then [] else label.maskedPath) ++ Tag.mask 0 rest := by
    split
    · rfl
    · exact mask_pathAttribute label rest
  have gap (rest : List Char) : Avoids (Tag.attribute? "element") [' '] rest :=
    avoids_of_not_mem (Tag.attribute?_needs element_letters) (by decide) rest
  rw [tag]
  refine attributeValue?_behind element_letters (by decide) shown ?_ (skipBlanks_cons (by decide) _)
  split
  · exact avoids_append.mpr ⟨opening_avoids _, gap _⟩
  · refine avoids_append.mpr ⟨avoids_append.mpr ⟨?_, maskedPath_avoids label _⟩, gap _⟩
    obtain ⟨more, blank⟩ := label.maskedPath_append _
    exact blank ▸ opening_avoids more

/-- A name that is followed by something that cannot continue it is read as far as the scan reads
it, independent of what follows. -/
theorem Name.dottedName?_written (name : Name) {stop : Char} (rest : List Char)
    (ends : (isWord stop || stop == '.' || stop == '$') = false) :
    (dottedName? (skipBlanks (name.chars ++ stop :: rest))).map
      (fun found => String.ofList found.1) = name.scanned := by
  obtain ⟨more, shown, solid⟩ := name.chars_eq
  have unblanked : skipBlanks (name.chars ++ stop :: rest) = name.chars ++ stop :: rest := by
    rw [shown, List.cons_append, skipBlanks_cons solid]
  have read := Tag.dottedName?_append rest (by simp [shown] : name.chars ≠ []) ends
  have spelled := congrArg (Option.map String.ofList) read
  rw [unblanked]
  simp only [Option.map_map] at spelled
  exact spelled

/-- The element of an attribute is named by the first name in its braces, and the rest of the text
is kept from this name on. -/
theorem elementName?_written (name : Name) {stop : Char} (rest : List Char)
    (ends : (isWord stop || stop == '.' || stop == '$') = false) :
    (elementName? ('\x7b' :: '<' :: name.chars ++ stop :: rest)).map
        (fun found => (String.ofList found.1, found.2)) =
      name.scanned.map fun read => (read, name.chars ++ stop :: rest) := by
  have opens (text : List Char) : skipBlanks ('<' :: text) = '<' :: text :=
    skipBlanks_cons (by decide) text
  have read := name.dottedName?_written rest ends
  simp only [elementName?, List.cons_append, opens, skipMark, beq_iff_eq, Char.reduceEq,
    ↓reduceIte, ← read, Option.map_map]
  rfl

/-- A written name does not end in a slash, which no name holds. The induction is on its
characters. -/
theorem Name.lastOr_chars (name : Name) (before : Option Char) :
    lastOr before name.chars ≠ some '/' := by
  have last : ∀ (text : List Char) (before : Option Char), before ≠ some '/' → '/' ∉ text →
      lastOr before text ≠ some '/' := by
    intro text
    induction text with
    | nil => exact fun before other _ => other
    | cons c text inductionHypothesis =>
      intro before _ absent
      simp only [List.mem_cons, not_or] at absent
      exact inductionHypothesis (some c) (by simpa using Ne.symm absent.1) absent.2
  obtain ⟨more, shown, _⟩ := name.chars_eq
  have absent := name.not_mem '/' (by decide) (by decide)
  rw [shown] at absent ⊢
  simp only [List.mem_cons, not_or] at absent
  exact last more _ (by simpa using Ne.symm absent.1) absent.2

/-- The names that the scan reads in an opening tag: that of the rendered element,
and, unless its tag closes itself, the first one behind that tag. -/
theorem elementNames_openTag (label : Label) (leaf : Bool) (rest : List Char) {name : Name}
    {stop : Char} {more : List Char} (ends : (isWord stop || stop == '.' || stop == '$') = false)
    (shown : label.element.chars = '<' :: name.chars ++ stop :: more) :
    elementNames (label.openTag leaf ++ rest) (label.openTag leaf).length =
      match name.scanned with
      | none => (none, none)
      | some read =>
        let found := Tag.scan (label.openTag leaf ++ rest) (label.beforeElement.length + 1)
        (some read,
          if found.2 || (label.openTag leaf).length ≤ found.1 then none
          else (first? Tag.name? ((label.openTag leaf).drop found.1)).map
            fun hit => String.ofList hit.value) := by
  let behind := name.chars ++ stop :: (more ++ '\x7d' :: label.afterElement leaf)
  have value : Tag.attributeValue? "element" (label.openTag leaf) =
      some ('\x7b' :: '<' :: behind) := by
    rw [elementValue, shown]
    simp [behind]
  have start : (label.openTag leaf).length - behind.length - 1 =
      label.beforeElement.length + 1 := by
    rw [label.openTag_element, shown]
    simp only [behind, List.length_append, List.length_cons]
    omega
  have named := elementName?_written name (more ++ '\x7d' :: label.afterElement leaf) ends
  have tag : (label.openTag leaf ++ rest).take (label.openTag leaf).length =
      label.openTag leaf := List.take_left
  cases read : name.scanned with
  | none =>
    rw [read, Option.map_none, Option.map_eq_none_iff] at named
    have unnamed : elementName? ('\x7b' :: '<' :: behind) = none := named
    simp only [elementNames, tag, value, Option.bind_some, unnamed]
  | some spelled =>
    rw [read, Option.map_some, Option.map_eq_some_iff] at named
    obtain ⟨⟨top, following⟩, accepted, same⟩ := named
    obtain ⟨rfl, rfl⟩ := Prod.mk.inj same
    have accepted : elementName? ('\x7b' :: '<' :: behind) = some (top, behind) := accepted
    simp only [elementNames, tag, value, Option.bind_some, accepted, start]

/-- For a component by itself the scan reads its name and nothing inside: its tag closes itself.
-/
theorem elementNames_plain (label : Label) (leaf : Bool) (rest : List Char) {component : Name}
    (plain : label.element = .plain component) :
    elementNames (label.openTag leaf ++ rest) (label.openTag leaf).length =
      (component.scanned, none) := by
  have shown : label.element.chars = '<' :: component.chars ++ ' ' :: ['/', '>'] := by
    rw [plain]
    rfl
  have closes : (Tag.scan (label.openTag leaf ++ rest) (label.beforeElement.length + 1)).2 =
      true := by
    have passable : Tag.Body (component.chars ++ [' ', '/']) :=
      component.body.append (Tag.body_of_plain _ (by decide))
    have found := Tag.scan_tag (label.beforeElement ++ ['\x7b']) passable
      ('\x7d' :: label.afterElement leaf ++ rest)
    have text : label.openTag leaf ++ rest = label.beforeElement ++ ['\x7b'] ++
        '<' :: (component.chars ++ [' ', '/']) ++
        '>' :: ('\x7d' :: label.afterElement leaf ++ rest) := by
      rw [label.openTag_element, shown]
      simp
    rw [text]
    simp only [List.length_append, List.length_singleton] at found
    rw [found, lastOr_append]
    rfl
  rw [elementNames_openTag label leaf rest (by decide) shown]
  cases component.scanned <;> simp [closes]

/-- The search for the first name inside a wrapper reads the component's name, if nothing behind
the component is read as one. -/
theorem first?_name_leafTag (component : Name) {tail : List Char}
    (outside : Avoids Tag.name? tail []) :
    (first? Tag.name? (leafTag component ++ tail)).map (fun hit => String.ofList hit.value) =
      component.scanned := by
  have ends : (isWord ' ' || ' ' == '.' || ' ' == '$') = false := by decide
  have read := component.dottedName?_written (['/', '>'] ++ tail) ends
  have tag : leafTag component ++ tail =
      '<' :: (component.chars ++ ' ' :: (['/', '>'] ++ tail)) := by
    simp [leafTag]
  have here (before : Option Char) : Tag.name? before (leafTag component ++ tail) =
      dottedName? (skipBlanks (component.chars ++ ' ' :: (['/', '>'] ++ tail))) := by
    rw [tag]
    rfl
  cases found : dottedName? (skipBlanks (component.chars ++ ' ' :: (['/', '>'] ++ tail))) with
  | some name =>
    have hit : first? Tag.name? ([] ++ (leafTag component ++ tail)) = _ :=
      first?_append trivial ((here none).trans found) (by simp [leafTag])
    rw [List.nil_append] at hit
    rw [hit, ← read, found]
    rfl
  | none =>
    rw [found] at read
    rw [← read, first?_eq_none]
    · rfl
    refine avoids_append.mpr ⟨⟨fun before => ?_, ?_⟩, outside⟩
    · have refused := (here before).trans found
      rw [tag] at refused
      simpa [leafTag] using refused
    · apply avoids_of_not_mem Tag.name?_needs
      simp [component.not_mem '<' (by decide) (by decide)]

/-- The scan of a wrapped component reads both names, each as far as it reads names; without the
wrapper's name it does not look inside. -/
theorem elementNames_wrapped (label : Label) (leaf : Bool) (rest : List Char)
    {wrapper component : Name} (wrapped : label.element = .wrapped wrapper component) :
    elementNames (label.openTag leaf ++ rest) (label.openTag leaf).length =
      match wrapper.scanned with
      | none => (none, none)
      | some read => (some read, component.scanned) := by
  let closing := '<' :: '/' :: wrapper.chars ++ '>' :: '\x7d' :: label.afterElement leaf
  let front := label.beforeElement ++ ['\x7b']
  have shown : label.element.chars = '<' :: wrapper.chars ++
      '>' :: (leafTag component ++ '<' :: '/' :: wrapper.chars ++ ['>']) := by
    simp [wrapped, Element.chars]
  have tag : label.openTag leaf =
      (front ++ '<' :: wrapper.chars ++ ['>']) ++ (leafTag component ++ closing) := by
    rw [label.openTag_element, shown]
    simp [front, closing]
  have found : Tag.scan (label.openTag leaf ++ rest) (label.beforeElement.length + 1) =
      ((front ++ '<' :: wrapper.chars ++ ['>']).length, false) := by
    have scanned := Tag.scan_tag front wrapper.body (leafTag component ++ closing ++ rest)
    have slash : (lastOr (some '<') wrapper.chars == some '/') = false := by
      simpa using wrapper.lastOr_chars (some '<')
    have text : label.openTag leaf ++ rest = front ++ '<' :: wrapper.chars ++
        '>' :: (leafTag component ++ closing ++ rest) := by
      rw [tag]
      simp
    have start : label.beforeElement.length + 1 = front.length := by simp [front]
    rw [text, start, scanned, slash]
    simp only [List.length_append, List.length_cons, List.length_nil]
    rfl
  have inside : ¬ (label.openTag leaf).length ≤
      (front ++ '<' :: wrapper.chars ++ ['>']).length := by
    rw [tag]
    simp [leafTag]
  have outside : Avoids Tag.name? closing [] := by
    have opens : skipBlanks ('/' :: wrapper.chars ++ '>' :: '\x7d' :: label.afterElement leaf) =
        '/' :: wrapper.chars ++ '>' :: '\x7d' :: label.afterElement leaf :=
      skipBlanks_cons (by decide) _
    refine ⟨fun before => ?_, ?_⟩
    · rw [List.append_nil]
      show dottedName? (skipBlanks ('/' :: wrapper.chars ++ '>' :: '\x7d' ::
        label.afterElement leaf)) = none
      rw [opens]
      simp [dottedName?, nameOf?, startsName]
    · apply avoids_of_not_mem Tag.name?_needs
      simp [wrapper.not_mem '<' (by decide) (by decide), label.angle_not_mem_afterElement leaf]
  rw [elementNames_openTag label leaf rest (by decide) shown]
  cases wrapper.scanned with
  | none => rfl
  | some read =>
    simp only [found, inside, Bool.false_or, decide_false, Bool.false_eq_true, ↓reduceIte]
    rw [tag, List.drop_left, first?_name_leafTag component outside]

end ScreenAtlas.Route.Markup
