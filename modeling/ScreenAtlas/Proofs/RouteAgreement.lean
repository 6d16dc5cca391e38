import ScreenAtlas.Proofs.ParsedRoutes
import ScreenAtlas.Proofs.ScannedRoutes

/-!
# The two ways of recovering routes agree

Routes are recovered from the syntax tree of a source when it parses and from its
text otherwise. On a written route tree both give the walk of the tree. The text
scan also looks for route objects, but finds none: each of them starts with a
brace and a member's name, and every brace of a written route tree is followed by
a quotation mark or an angle bracket.
-/
namespace ScreenAtlas.Route.Markup

open ScreenAtlas.Script ScreenAtlas.Text

/-- A route object starts with a brace, so that none opens at any other character. -/
theorem flatObject?_needs (before : Option Char) (c : Char) (text : List Char)
    (other : c ≠ '\x7b') : flatObject? before (c :: text) = none := by
  simp [flatObject?, other]

/-- A brace that is followed by something else than a member's name opens no route
object. -/
theorem avoids_group {c : Char} (solid : isBlank c = false) (other : c ≠ 'p')
    {inner : List Char} (plain : '\x7b' ∉ c :: inner) (rest : List Char) :
    Avoids flatObject? ('\x7b' :: c :: inner) rest := by
  refine ⟨fun before => ?_, avoids_of_not_mem flatObject?_needs plain rest⟩
  simp [flatObject?, skipBlanks_cons solid, memberName?, literal?, after?, Ne.symm other]

/-- No route object opens in a path attribute: if there is a brace at all, a quotation mark
follows it. -/
theorem Label.pathAttribute_avoids (label : Label) (rest : List Char) :
    Avoids flatObject? label.pathAttribute rest := by
  unfold pathAttribute
  split
  · trivial
  · next path spelling _ =>
    have literal := spelling.not_mem_literal path '\x7b' (by decide) (by decide)
    have letter : spelling.mark ≠ 'p' := by cases spelling <;> decide
    refine avoids_append.mpr ⟨avoids_of_not_mem flatObject?_needs (by decide) _, ?_⟩
    unfold Spelling.write
    split
    · apply avoids_group spelling.mark_solid letter
      simpa [Spelling.literal] using literal
    · exact avoids_of_not_mem flatObject?_needs literal rest

/-- No route object opens in the attribute with the rendered element, as an angle bracket follows
its brace. -/
theorem Label.elementAttribute_avoids (label : Label) (rest : List Char) :
    Avoids flatObject? label.elementAttribute rest := by
  have plain := label.element.not_mem '\x7b' (by decide) (by decide)
  obtain ⟨inner, shown⟩ : ∃ inner, label.element.chars = '<' :: inner := by
    cases label.element <;> exact ⟨_, rfl⟩
  have split : label.elementAttribute = [' ', 'e', 'l', 'e', 'm', 'e', 'n', 't', '='] ++
      ('\x7b' :: '<' :: (inner ++ ['\x7d'])) := by
    simp [elementAttribute, shown]
  rw [split]
  refine avoids_append.mpr ⟨avoids_of_not_mem flatObject?_needs (by decide) _, ?_⟩
  rw [shown] at plain
  exact avoids_group (by decide) (by decide) (by simpa using plain) rest

/-- No route object opens in a written forest, whatever follows it. The induction is on the
forest, since attributes are all that holds braces. -/
theorem write_avoids (forest : Forest Label) (rest : List Char) :
    Avoids flatObject? (write forest) rest := by
  induction forest generalizing rest with
  | empty => trivial
  | node label children siblings below beside =>
    have attributes (rest : List Char) : Avoids flatObject? label.attributes rest := by
      unfold Label.attributes
      split
      · exact avoids_append.mpr ⟨label.elementAttribute_avoids _, label.pathAttribute_avoids _⟩
      · exact avoids_append.mpr ⟨label.pathAttribute_avoids _, label.elementAttribute_avoids _⟩
    have ending : '\x7b' ∉ Label.ending children.isEmpty := by
      cases children.isEmpty <;> decide
    have closing : '\x7b' ∉ (if children.isEmpty then [] else closeTag) := by
      split <;> decide
    have opening (rest : List Char) :
        Avoids flatObject? (label.openTag children.isEmpty) rest :=
      avoids_append.mpr ⟨avoids_append.mpr ⟨avoids_of_not_mem flatObject?_needs (by decide) _,
        attributes _⟩, avoids_of_not_mem flatObject?_needs ending _⟩
    exact avoids_append.mpr ⟨avoids_append.mpr ⟨avoids_append.mpr ⟨opening _, below _⟩,
      avoids_of_not_mem flatObject?_needs closing _⟩, beside _⟩

/-- A written list of routes holds no route object, whether or not there is an element around it.
-/
theorem flatTargets_writeList (layouts : List String) (basename : Option String)
    (enclosed : Bool) (forest : Forest Label) :
    flatTargets layouts basename (writeList enclosed forest) = [] := by
  have avoided : Avoids flatObject? (writeList enclosed forest) [] := by
    unfold writeList
    split
    · exact avoids_append.mpr ⟨avoids_append.mpr ⟨avoids_of_not_mem flatObject?_needs (by decide) _,
        write_avoids forest _⟩, avoids_of_not_mem flatObject?_needs (by decide) _⟩
    · exact write_avoids forest []
  rw [flatTargets, hits_eq_nil avoided]
  rfl

/-- The text of a source is a written list of its routes, with an element around it unless it is a
single route. -/
theorem Source.text_eq (source : Source) :
    ∃ enclosed, source.text = writeList enclosed source.forest := by
  cases source with
  | single label children => exact ⟨false, rfl⟩
  | list forest => exact ⟨true, rfl⟩

/-- From the tree of a source its routes are recovered with the names that are
written. -/
theorem Source.recover_tree (fragments : Fragments) (source : Source) (layouts : List String) :
    recover (some { root := source.tree fragments, bytes := encode source.text }) layouts
        (String.ofList source.text) =
      source.forest.routes (Label.entry Name.declared layouts) (findBasename source.text) := by
  obtain ⟨offset, found⟩ := source.treeDeclarations_tree fragments layouts
  simp only [recover, String.toList_ofList, found, Forest.Layout.resolve_declarations]

/-- From the text of a source its routes are recovered with the names as far as the scan reads
them. -/
theorem Source.recover_text (source : Source) (layouts : List String) :
    recover none layouts (String.ofList source.text) =
      source.forest.routes (Label.entry Name.scanned layouts) (findBasename source.text) := by
  obtain ⟨enclosed, text⟩ := source.text_eq
  obtain ⟨offset, found⟩ := scanDeclarations_writeList layouts enclosed source.forest
  simp only [recover, String.toList_ofList, scanTargets]
  rw [text, flatTargets_writeList, found, Forest.Layout.resolve_declarations]
  rfl

/-- Parsing and scanning recover the same routes from every source that declares a
route tree, when its names are plain. In every case parsing gives the walk of the
tree with the names that are written, and scanning the walk with the names as far
as the scan reads them.

Proof: both passes find the spans that the tree lays out, one in bytes and one in
characters, and resolving either is walking the tree. The walks can differ in the
names only, and plain names are read as they are written. -/
theorem parsed_and_scanned_routes_agree (fragments : Fragments) (source : Source)
    (layouts : List String) :
    recover (some { root := source.tree fragments, bytes := encode source.text }) layouts
        (String.ofList source.text) =
        source.forest.routes (Label.entry Name.declared layouts) (findBasename source.text) ∧
      recover none layouts (String.ofList source.text) =
        source.forest.routes (Label.entry Name.scanned layouts) (findBasename source.text) ∧
      ((∀ label ∈ source.forest.labels, label.element.isPlain = true) →
        recover (some { root := source.tree fragments, bytes := encode source.text }) layouts
            (String.ofList source.text) =
          recover none layouts (String.ofList source.text)) := by
  refine ⟨source.recover_tree fragments layouts, source.recover_text layouts, fun plain => ?_⟩
  rw [source.recover_tree, source.recover_text]
  apply Forest.routes_congr
  intro label member
  simp only [Label.entry, Element.names_scanned (plain label member)]

/-- The inside of a literal without character references is a single fragment. -/
def oneFragment : Fragments := fun offset path =>
  if path.isEmpty then [] else [(.text, spanOf offset path)]

/-- A route with a template in braces as its path, inside a layout that has a path
in single quotes, both with names of several parts or scripts. -/
def sampleSource : Source :=
  .list (.node
    { path := some (.ofString "/ünter" (by decide), .single)
      element := .wrapped suspense
        { head := .ofString 'P' "é" (by decide) (by decide)
          members := [.ofString 'Ü' "" (by decide) (by decide)] }
      elementFirst := true }
    (.node
      { path := some (.ofString ":id" (by decide), .template)
        element := .plain (.single 'D' "etail" (by decide) (by decide))
        elementFirst := false }
      .empty .empty)
    .empty)

/-- The names of the sample are plain, so parsing and scanning recover the same two routes from
it, with accented letters behind the first. -/
theorem sampleSource_routes_agree :
    (∀ label ∈ sampleSource.forest.labels, label.element.isPlain = true) ∧
      recover (some { root := sampleSource.tree oneFragment, bytes := encode sampleSource.text }) []
          (String.ofList sampleSource.text) = recover none [] (String.ofList sampleSource.text) ∧
      recover none [] (String.ofList sampleSource.text) =
        [⟨"/ünter", some "Pé.Ü"⟩, ⟨"/ünter/:id", some "Detail"⟩] :=
  ⟨by decide +kernel,
    (parsed_and_scanned_routes_agree oneFragment sampleSource []).2.2 (by decide +kernel),
    (parsed_and_scanned_routes_agree oneFragment sampleSource []).2.1.trans (by decide +kernel)⟩

/-- A single route whose component starts with an accented letter. -/
def accentedSource : Source := .single accentedLabel .empty

/-- The two ways differ on the single route: parsing reads the name of its component, and scanning
does not. -/
theorem accentedSource_routes_differ :
    recover (some { root := accentedSource.tree oneFragment, bytes := encode accentedSource.text })
        [] (String.ofList accentedSource.text) = [⟨"/a", some "Écran"⟩] ∧
      recover none [] (String.ofList accentedSource.text) = [⟨"/a", none⟩] := by
  rw [Source.recover_tree, Source.recover_text]
  decide +kernel

end ScreenAtlas.Route.Markup
