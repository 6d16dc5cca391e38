import ScreenAtlas.Proofs.RouteScan

/-!
# Recovering a route tree from its text

The scan looks for the openings of `Route` tags and reads a declaration off each
of them. This module follows it over a written forest: the tags inside rendered
elements declare nothing, every opening tag of the forest declares its own route,
and the count of opening and closing tags finds the end of each route. So the
scan finds the spans of the forest, and resolving them is walking the forest.
-/
namespace ScreenAtlas.Route.Markup

open ScreenAtlas.Text

/-- The places of a text at which a `Route` tag opens. -/
def openings (offset : Nat) : List Char → List Nat
  | [] => []
  | c :: text =>
    if (routeOpening? none (c :: text)).isSome then offset :: openings (offset + 1) text
    else openings (offset + 1) text

/-- A recognised opening is its literal and what follows it, so the text can be split there. -/
theorem eq_append_of_routeOpening? {before : Option Char} {text rest : List Char}
    (found : routeOpening? before text = some ((), rest)) :
    text = ['<', 'R', 'o', 'u', 't', 'e'] ++ rest := by
  have letters : "<Route".toList = ['<', 'R', 'o', 'u', 't', 'e'] := by simp
  cases after : literal? "<Route" text with
  | none => simp [routeOpening?, after] at found
  | some behind =>
    simp only [routeOpening?, after, Option.bind_eq_bind, Option.bind_some] at found
    split at found
    · cases found
      rw [← letters]
      exact eq_append_of_after? after
    · cases found

/-- An opening starts with an angle bracket, and nothing is recognised at any other character. -/
theorem routeOpening?_needs (before : Option Char) (c : Char) (text : List Char)
    (other : c ≠ '<') : routeOpening? before (c :: text) = none := by
  simp [routeOpening?, literal?, after?, Ne.symm other]

/-- The hits of the search are the openings: what a hit covers holds no further
angle bracket, so that no opening is passed over. -/
theorem starts_hitsFrom (text : List Char) (skip offset : Nat) (before : Option Char)
    (plain : '<' ∉ text.take skip) :
    (hitsFrom routeOpening? skip offset before text).map Hit.start = openings offset text := by
  induction text generalizing skip offset before with
  | nil => rfl
  | cons c text inductionHypothesis =>
    cases skip with
    | succ skip =>
      simp only [List.take_succ_cons, List.mem_cons, not_or] at plain
      simp only [hitsFrom, openings, routeOpening?_needs none c text (Ne.symm plain.1),
        Option.isSome_none, Bool.false_eq_true, ↓reduceIte]
      exact inductionHypothesis skip (offset + 1) (some c) plain.2
    | zero =>
      have same : routeOpening? before (c :: text) = routeOpening? none (c :: text) := rfl
      cases found : routeOpening? none (c :: text) with
      | none =>
        simp only [hitsFrom, openings, same, found, Option.isSome_none, Bool.false_eq_true,
          ↓reduceIte]
        exact inductionHypothesis 0 (offset + 1) (some c) (by simp)
      | some hit =>
        obtain ⟨_, rest⟩ := hit
        have shown := eq_append_of_routeOpening? found
        have tail : text = ['R', 'o', 'u', 't', 'e'] ++ rest := (List.cons.inj shown).2
        have covered : (c :: text).length - rest.length - 1 = 5 := by
          rw [tail]
          simp only [List.length_cons, List.length_append, List.length_nil]
          omega
        simp only [hitsFrom, openings, same, found, Option.isSome_some, ↓reduceIte, List.map_cons,
          covered]
        rw [inductionHypothesis 5 (offset + 1) (some c) (by simp [tail])]

/-- The declarations that the scan reads at the openings behind a part of the
text. -/
def found (layouts : List String) (front rest : List Char) : List Declaration :=
  (openings front.length rest).filterMap (declarationAt? layouts (front ++ rest))

/-- The scan of a text reads a declaration at each of its openings, since the hits of its search
are the openings. -/
theorem scanDeclarations_eq_found (layouts : List String) (text : List Char) :
    scanDeclarations layouts text = found layouts [] text := by
  have starts := starts_hitsFrom text 0 0 none (by simp)
  rw [found, List.length_nil, ← starts, List.filterMap_map]
  rfl

/-- The scan passes over text without angle brackets, as nothing opens in it. The induction is on
this text. -/
theorem found_plain (layouts : List String) (front : List Char) {piece : List Char}
    (plain : '<' ∉ piece) (rest : List Char) :
    found layouts front (piece ++ rest) = found layouts (front ++ piece) rest := by
  have passed : ∀ offset, openings offset (piece ++ rest) =
      openings (offset + piece.length) rest := by
    induction piece with
    | nil => intro offset; rfl
    | cons c piece inductionHypothesis =>
      intro offset
      simp only [List.mem_cons, not_or] at plain
      simp only [List.cons_append, openings, routeOpening?_needs none c _ (Ne.symm plain.1),
        Option.isSome_none, Bool.false_eq_true, ↓reduceIte, inductionHypothesis plain.2,
        List.length_cons]
      congr 1
      omega
  simp only [found, passed, List.length_append, List.append_assoc]

/-- At an angle bracket, the scan reads a declaration if a `Route` tag opens there,
and goes on. -/
theorem found_angle (layouts : List String) (front rest : List Char) :
    found layouts front ('<' :: rest) =
      (if (routeOpening? none ('<' :: rest)).isSome then
        (declarationAt? layouts (front ++ '<' :: rest) front.length).toList else []) ++
      found layouts (front ++ ['<']) rest := by
  simp only [found, openings, List.append_assoc, List.singleton_append, List.length_append,
    List.length_singleton]
  split
  · cases here : declarationAt? layouts (front ++ '<' :: rest) front.length <;>
      simp [here]
  · rfl

/-- A tag without attributes declares nothing, because a declaration needs a path attribute and
this needs an equals sign. -/
theorem declarationAt?_bare (layouts : List String) (front : List Char) {body : List Char}
    (passable : Tag.Body body) (bare : '=' ∉ body) (rest : List Char) :
    declarationAt? layouts (front ++ '<' :: body ++ '>' :: rest) front.length = none := by
  have tag : ((front ++ '<' :: body ++ '>' :: rest).drop front.length).take
      (front.length + body.length + 2 - front.length) = '<' :: body ++ ['>'] := by
    have long : front.length + body.length + 2 - front.length = ('<' :: body ++ ['>']).length := by
      simp only [List.length_append, List.length_cons, List.length_nil]
      omega
    rw [long, List.append_assoc, List.drop_left]
    have split : '<' :: body ++ '>' :: rest = ('<' :: body ++ ['>']) ++ rest := by simp
    rw [split, List.take_left]
  have absent : Tag.attributeValue? "path" ('<' :: body ++ ['>']) = none :=
    Tag.attributeValue?_of_no_equals "path" (by simp [bare])
  simp only [declarationAt?, Tag.scan_tag front passable rest, tag, absent, Option.bind_eq_bind,
    Option.bind_none]

/-- The scan passes over a tag without attributes, whatever its name, even if that is the name of
routes. -/
theorem found_bare (layouts : List String) (front : List Char) {body : List Char}
    (passable : Tag.Body body) (bare : '=' ∉ body) (plain : '<' ∉ body) (rest : List Char) :
    found layouts front ('<' :: body ++ '>' :: rest) =
      found layouts (front ++ '<' :: body ++ ['>']) rest := by
  have nothing := declarationAt?_bare layouts front passable bare rest
  have split : body ++ '>' :: rest = (body ++ ['>']) ++ rest := by simp
  rw [List.append_assoc] at nothing
  rw [List.cons_append] at nothing ⊢
  rw [found_angle, nothing, Option.toList_none, ite_self, List.nil_append, split,
    found_plain layouts _ (by simp [plain])]
  simp

/-- The tag of a component declares nothing, since it has no attributes. The scan goes on behind
it. -/
theorem found_leafTag (layouts : List String) (front : List Char) (name : Name)
    (rest : List Char) :
    found layouts front (leafTag name ++ rest) = found layouts (front ++ leafTag name) rest := by
  have passable : Tag.Body (name.chars ++ [' ', '/']) :=
    name.body.append (Tag.body_of_plain _ (by decide))
  have passed := found_bare layouts front passable
    (by simp [name.not_mem '=' (by decide) (by decide)])
    (by simp [name.not_mem '<' (by decide) (by decide)]) rest
  simpa [leafTag] using passed

/-- A rendered element declares nothing: neither the tag of its component nor those of a wrapper
have attributes. -/
theorem found_element (layouts : List String) (front : List Char) (element : Element)
    (rest : List Char) :
    found layouts front (element.chars ++ rest) = found layouts (front ++ element.chars) rest := by
  cases element with
  | plain component => exact found_leafTag layouts front component rest
  | wrapped wrapper component =>
    have equals := wrapper.not_mem '=' (by decide) (by decide)
    have angle := wrapper.not_mem '<' (by decide) (by decide)
    have opening := found_bare layouts front wrapper.body equals angle
      (leafTag component ++ ('<' :: '/' :: wrapper.chars ++ '>' :: rest))
    have passable : Tag.Body ('/' :: wrapper.chars) :=
      .char '/' _ (by decide) (by decide) (by decide) (by decide) wrapper.body
    have closing := found_bare layouts
      (front ++ '<' :: wrapper.chars ++ ['>'] ++ leafTag component) passable
      (by simp [equals]) (by simp [angle]) rest
    have text : (Element.wrapped wrapper component).chars ++ rest = '<' :: wrapper.chars ++
        '>' :: (leafTag component ++ ('<' :: '/' :: wrapper.chars ++ '>' :: rest)) := by
      simp [Element.chars]
    rw [text, opening, found_leafTag, closing]
    simp [Element.chars]

/-- The attributes of a route stand behind a blank, so the name of its tag ends there. -/
theorem Label.attributes_eq (label : Label) : ∃ more, label.attributes = ' ' :: more := by
  unfold attributes
  split
  · exact ⟨_, rfl⟩
  · unfold pathAttribute
    split <;> exact ⟨_, rfl⟩

/-- An opening tag is recognised as one, and what is left are its attributes and its end. -/
theorem routeOpening?_openTag (before : Option Char) (label : Label) (leaf : Bool)
    (rest : List Char) : routeOpening? before (label.openTag leaf ++ rest) =
      some ((), label.attributes ++ Label.ending leaf ++ rest) := by
  obtain ⟨more, shown⟩ := label.attributes_eq
  have boundary : outsideWord (some ' ') = true := by decide
  simp [routeOpening?, Label.openTag, shown, literal?, after?, boundary]

/-- The scan reads exactly one declaration off an opening tag, at its angle bracket. The elements
in its attributes declare nothing. -/
theorem found_openTag (layouts : List String) (front : List Char) (label : Label) (leaf : Bool)
    (rest : List Char) :
    found layouts front (label.openTag leaf ++ rest) =
      (declarationAt? layouts (front ++ (label.openTag leaf ++ rest)) front.length).toList ++
        found layouts (front ++ label.openTag leaf) rest := by
  let opening := ['R', 'o', 'u', 't', 'e'] ++
    (if label.elementFirst then [] else label.pathAttribute) ++
      [' ', 'e', 'l', 'e', 'm', 'e', 'n', 't', '=', '\x7b']
  let closing := '\x7d' :: label.afterElement leaf
  have tag : label.openTag leaf ++ rest =
      '<' :: (opening ++ (label.element.chars ++ (closing ++ rest))) := by
    rw [label.openTag_element]
    simp [Label.beforeElement, opening, closing]
  have accepted : (routeOpening? none (label.openTag leaf ++ rest)).isSome = true := by
    rw [routeOpening?_openTag]
    rfl
  have before : '<' ∉ opening := by
    simp only [opening]
    split <;> simp [label.angle_not_mem_pathAttribute]
  have after : '<' ∉ closing := by simp [closing, label.angle_not_mem_afterElement]
  have passed : found layouts (front ++ ['<'])
      (opening ++ (label.element.chars ++ (closing ++ rest))) =
        found layouts (front ++ label.openTag leaf) rest := by
    rw [found_plain layouts _ before, found_element, found_plain layouts _ after]
    congr 1
    rw [label.openTag_element]
    simp [Label.beforeElement, opening, closing]
  rw [tag] at accepted ⊢
  rw [found_angle, accepted, passed]
  rfl

/-- The count goes on behind an opening that no closing precedes, one level deeper
unless the tag closes itself. -/
theorem elementEnd_opening {depth offset stop : Nat} {c : Char} {rest : List Char}
    {hit : Hit Unit} {selfClosing : Bool} (opening : first? routeOpening? (c :: rest) = some hit)
    (earlier : ∀ close, first? routeClosing? (c :: rest) = some close → hit.start ≤ close.start)
    (scanned : Tag.scan (c :: rest) hit.start = (stop, selfClosing)) :
    elementEnd (depth + 1) offset (c :: rest) =
      elementEnd (if selfClosing then depth + 1 else depth + 2) (offset + max stop 1)
        (rest.drop (stop - 1)) := by
  rw [elementEnd]
  cases closing : first? routeClosing? (c :: rest) with
  | none => simp only [opening, scanned]
  | some close =>
    simp only [opening, scanned, Nat.not_lt.mpr (earlier close closing), ↓reduceIte]

/-- The count goes on behind a closing that precedes every opening, one level up. -/
theorem elementEnd_closing {depth offset : Nat} {c : Char} {rest : List Char} {close : Hit Unit}
    (closing : first? routeClosing? (c :: rest) = some close)
    (earlier : ∀ hit, first? routeOpening? (c :: rest) = some hit → close.start < hit.start) :
    elementEnd (depth + 1) offset (c :: rest) =
      elementEnd depth (offset + max close.stop 1) (rest.drop (close.stop - 1)) := by
  rw [elementEnd]
  cases opening : first? routeOpening? (c :: rest) with
  | none => simp only [closing]
  | some hit => simp only [closing, earlier hit opening, ↓reduceIte]

/-- The count passes over an opening tag, which adds a level unless it closes
itself. -/
theorem elementEnd_openTag (depth offset : Nat) (label : Label) (leaf : Bool) (rest : List Char) :
    elementEnd (depth + 1) offset (label.openTag leaf ++ rest) =
      elementEnd (if leaf then depth + 1 else depth + 2)
        (offset + (label.openTag leaf).length) rest := by
  obtain ⟨tail, shown⟩ : ∃ tail, label.openTag leaf = '<' :: tail := ⟨_, rfl⟩
  have scanned : Tag.scan ('<' :: (tail ++ rest)) 0 = (tail.length + 1, leaf) := by
    have found := scan_openTag [] label leaf rest
    rw [shown] at found
    simpa using found
  have accepted : routeOpening? none ('<' :: (tail ++ rest)) =
      some ((), label.attributes ++ Label.ending leaf ++ rest) := by
    have found := routeOpening?_openTag none label leaf rest
    rwa [shown] at found
  obtain ⟨hit, opening, start⟩ :
      ∃ hit, first? routeOpening? ('<' :: (tail ++ rest)) = some hit ∧ hit.start = 0 := by
    simp only [first?, firstFrom, accepted]
    exact ⟨_, rfl, rfl⟩
  rw [shown, List.cons_append, elementEnd_opening opening (by omega) (start ▸ scanned),
    Nat.add_sub_cancel, List.drop_left, Nat.max_eq_left (Nat.le_add_left 1 _), List.length_cons]

/-- The count passes over a closing tag, which takes a level away. -/
theorem elementEnd_closeTag (depth offset : Nat) (rest : List Char) :
    elementEnd (depth + 1) offset (closeTag ++ rest) =
      elementEnd depth (offset + closeTag.length) rest := by
  obtain ⟨tail, shown⟩ : ∃ tail, closeTag = '<' :: tail := ⟨_, rfl⟩
  have accepted : routeClosing? none ('<' :: (tail ++ rest)) = some ((), rest) := by
    have gap : skipBlanks ('>' :: rest) = '>' :: rest := skipBlanks_cons (by decide) rest
    rw [← List.cons_append, ← shown]
    simp [routeClosing?, closeTag, literal?, after?, gap]
  have refused : routeOpening? none ('<' :: (tail ++ rest)) = none := by
    rw [← List.cons_append, ← shown]
    simp [routeOpening?, closeTag, literal?, after?]
  have closing : first? routeClosing? ('<' :: (tail ++ rest)) = some ⟨0, tail.length + 1, ()⟩ := by
    have long : ('<' :: (tail ++ rest)).length - rest.length = tail.length + 1 := by
      simp only [List.length_cons, List.length_append]
      omega
    simp only [first?, firstFrom, accepted, long]
  have later : ∀ hit, first? routeOpening? ('<' :: (tail ++ rest)) = some hit → 0 < hit.start := by
    intro hit found
    simp only [first?, firstFrom, refused] at found
    exact le_start_of_firstFrom found
  rw [shown, List.cons_append, elementEnd_closing closing later]
  simp only [Hit.stop, Nat.zero_add, Nat.add_sub_cancel, List.drop_left, List.length_cons,
    Nat.max_eq_left (Nat.le_add_left 1 _)]

/-- The count passes over a whole written forest and comes back to its level.

Proof: induction over the forest. A route's opening tag adds a level exactly when
a closing tag follows what is inside it, and that closing tag takes the level away
again. -/
theorem elementEnd_write (forest : Forest Label) (depth offset : Nat) (rest : List Char) :
    elementEnd (depth + 1) offset (write forest ++ rest) =
      elementEnd (depth + 1) (offset + (write forest).length) rest := by
  induction forest generalizing depth offset rest with
  | empty => rfl
  | node label children siblings below beside =>
    simp only [write, List.append_assoc, elementEnd_openTag]
    cases leaf : children.isEmpty with
    | true =>
      simp only [write_of_isEmpty leaf, ↓reduceIte, List.nil_append, beside, List.length_append,
        Nat.add_assoc]
    | false =>
      simp only [Bool.false_eq_true, ↓reduceIte, below, elementEnd_closeTag, beside,
        List.length_append, Nat.add_assoc]

/-- A declaration ends with its route: behind the opening tag if this closes itself, and behind
the closing tag otherwise. -/
theorem declarationEnd_route (front : List Char) (label : Label) (children : Forest Label)
    (rest : List Char) :
    declarationEnd (front ++ (label.openTag children.isEmpty ++ (write children ++
        ((if children.isEmpty then [] else closeTag) ++ rest)))) front.length =
      front.length + ((label.openTag children.isEmpty).length + (write children).length +
        (if children.isEmpty then [] else closeTag).length) := by
  have scanned := scan_openTag front label children.isEmpty
    (write children ++ ((if children.isEmpty then [] else closeTag) ++ rest))
  rw [List.append_assoc] at scanned
  simp only [declarationEnd, scanned]
  cases leaf : children.isEmpty with
  | true =>
    simp [write_of_isEmpty leaf]
  | false =>
    simp only [Bool.false_eq_true, ↓reduceIte]
    rw [← List.drop_drop, List.drop_left, List.drop_left, elementEnd_write,
      elementEnd_closeTag, elementEnd]
    omega

/-- The literal of a route's path is read back from any of its spellings, whatever follows it in
the tag. -/
theorem attributeText?_write (spelling : Spelling) (path : PathText) (rest : List Char) :
    Tag.attributeText? (spelling.write path.chars ++ rest) = some path.chars := by
  have quote := spelling.mark_quote
  have unquoted := spelling.mark_not_mem path
  by_cases braced : spelling.braced = true
  · have read := Tag.attributeText?_braced ('\x7d' :: rest) quote unquoted
    simpa [Spelling.write, braced, Spelling.literal] using read
  · have read := Tag.attributeText?_quoted rest quote unquoted
    simpa [Spelling.write, braced, Spelling.literal] using read

/-- The names in an opening tag are classified as the scan reads them. When the
name of a wrapper is not read, the name inside it does not matter. -/
theorem classify_elementNames (label : Label) (leaf : Bool) (rest : List Char)
    (layouts : List String) :
    classify (elementNames (label.openTag leaf ++ rest) (label.openTag leaf).length).1
        (elementNames (label.openTag leaf ++ rest) (label.openTag leaf).length).2 layouts =
      classify (label.element.names Name.scanned).1 (label.element.names Name.scanned).2
        layouts := by
  cases rendered : label.element with
  | plain component => rw [elementNames_plain label leaf rest rendered, Element.names]
  | wrapped wrapper component =>
    rw [elementNames_wrapped label leaf rest rendered, Element.names]
    cases wrapper.scanned <;> rfl

/-- The declaration that the scan reads off an opening tag is the entry of the label with the
names as the scan reads them, from the tag to its end. -/
theorem declarationAt?_openTag (layouts : List String) (front : List Char) (label : Label)
    (leaf : Bool) (rest : List Char) :
    declarationAt? layouts (front ++ (label.openTag leaf ++ rest)) front.length =
      (label.entry Name.scanned layouts).map fun entry =>
        { rawPath := entry.rawPath
          start := front.length
          stop := declarationEnd (front ++ (label.openTag leaf ++ rest)) front.length
          component := entry.component
          skip := entry.skip } := by
  have scanned := scan_openTag front label leaf rest
  have text : (front ++ (label.openTag leaf ++ rest)).drop front.length =
      label.openTag leaf ++ rest := List.drop_left
  rw [List.append_assoc] at scanned
  simp only [declarationAt?, scanned, text, Nat.add_sub_cancel_left, List.take_left,
    classify_elementNames]
  cases given : label.path with
  | none => simp [pathValue_none label leaf given, Label.entry, given]
  | some spelled =>
    obtain ⟨path, spelling⟩ := spelled
    simp [pathValue_some label leaf given, attributeText?_write, Label.entry, given]

/-- Every character counts as one, as the positions of the text scan do. -/
def characters : Forest.Layout Label := layout (fun _ => 1) fun _ => Nat.one_pos

/-- A route is as wide as its text, with its children and its closing tag if it has one. -/
theorem nodeWidth_characters (label : Label) (children : Forest Label) :
    characters.nodeWidth label children = (label.openTag children.isEmpty).length +
      (write children).length + (if children.isEmpty then [] else closeTag).length := by
  rw [characters, nodeWidth_write]
  simp [Nat.add_assoc]

/-- The scan of a written forest finds the declarations that the forest lays out,
counted in characters, and goes on behind it.

Proof: induction over the forest. The opening tag of the first route gives the
route's own declaration, if it has a path. What follows are the children, the
closing tag, which declares nothing, and the siblings. -/
theorem found_write (layouts : List String) (forest : Forest Label) (front rest : List Char) :
    found layouts front (write forest ++ rest) =
      characters.declarations (Label.entry Name.scanned layouts) front.length forest ++
        found layouts (front ++ write forest) rest := by
  induction forest generalizing front rest with
  | empty => simp [write, Forest.Layout.declarations]
  | node label children siblings below beside =>
    let closing : List Char := if children.isEmpty then [] else closeTag
    have passed (front rest : List Char) :
        found layouts front (closing ++ rest) = found layouts (front ++ closing) rest := by
      simp only [closing]
      split
      · simp
      · have passable : Tag.Body ['/', 'R', 'o', 'u', 't', 'e'] := Tag.body_of_plain _ (by decide)
        simpa [closeTag] using found_bare layouts front passable (by decide) (by decide) rest
    have text : write (.node label children siblings) ++ rest =
        label.openTag children.isEmpty ++
          (write children ++ (closing ++ (write siblings ++ rest))) := by
      simp [write, closing]
    have stop := declarationEnd_route front label children (write siblings ++ rest)
    have opening : characters.opening label children.isEmpty =
        (label.openTag children.isEmpty).length := by simp [characters, layout]
    have whole : (front ++ label.openTag children.isEmpty ++ write children ++ closing).length =
        front.length + characters.nodeWidth label children := by
      simp only [nodeWidth_characters, List.length_append, closing]
      omega
    have behind : front ++ label.openTag children.isEmpty ++ write children ++ closing ++
        write siblings = front ++ write (.node label children siblings) := by
      simp [write, closing]
    rw [text, found_openTag, below, passed, beside, declarationAt?_openTag, stop,
      ← nodeWidth_characters, whole, behind, List.length_append, ← opening]
    cases given : label.entry Name.scanned layouts with
    | none => simp [Forest.Layout.declarations, given]
    | some entry => simp [Forest.Layout.declarations, given]

/-- The scan of a whole list of routes finds its declarations, whether or not the
list stands inside a `Routes` element. -/
theorem scanDeclarations_writeList (layouts : List String) (enclosed : Bool)
    (forest : Forest Label) :
    ∃ offset, scanDeclarations layouts (writeList enclosed forest) =
      characters.declarations (Label.entry Name.scanned layouts) offset forest := by
  rw [scanDeclarations_eq_found]
  cases enclosed with
  | false =>
    have passed := found_write layouts forest [] []
    rw [List.append_nil, List.nil_append] at passed
    exact ⟨0, by simpa [writeList, found, openings] using passed⟩
  | true =>
    have opening : Tag.Body ['R', 'o', 'u', 't', 'e', 's'] := Tag.body_of_plain _ (by decide)
    have closing : Tag.Body ['/', 'R', 'o', 'u', 't', 'e', 's'] := Tag.body_of_plain _ (by decide)
    have text : writeList true forest = '<' :: ['R', 'o', 'u', 't', 'e', 's'] ++ '>' ::
        (write forest ++ ('<' :: ['/', 'R', 'o', 'u', 't', 'e', 's'] ++ '>' :: [])) := by
      simp [writeList]
    refine ⟨8, ?_⟩
    rw [text, found_bare layouts [] opening (by decide) (by decide), found_write,
      found_bare layouts _ closing (by decide) (by decide)]
    simp [found, openings]

/-- Scanning the text of a route tree and resolving what was found is walking the
tree, for trees of any depth and any spelling of their paths. The paths of the
walk are those of the tree in every case. The components are the names as far as
the scan reads them, and the names of the tree when these are plain.

Proof: the scan finds the spans that the tree lays out, counted in characters, and
spans laid out by a tree resolve to its walk. Plain names are read to their end,
so that every node contributes what it declares. -/
theorem scan_recovers_route_tree (layouts : List String) (enclosed : Bool)
    (forest : Forest Label) (basename : Option String) :
    resolve (scanDeclarations layouts (writeList enclosed forest)) basename =
        forest.routes (Label.entry Name.scanned layouts) basename ∧
      ((∀ label ∈ forest.labels, label.element.isPlain = true) →
        resolve (scanDeclarations layouts (writeList enclosed forest)) basename =
          forest.routes (Label.entry Name.declared layouts) basename) := by
  obtain ⟨offset, found⟩ := scanDeclarations_writeList layouts enclosed forest
  have walked : resolve (scanDeclarations layouts (writeList enclosed forest)) basename =
      forest.routes (Label.entry Name.scanned layouts) basename := by
    rw [found, Forest.Layout.resolve_declarations]
  refine ⟨walked, fun plain => ?_⟩
  rw [walked]
  apply Forest.routes_congr
  intro label member
  simp only [Label.entry, Element.names_scanned (plain label member)]

/-- The name of a component that only wraps others. -/
def suspense : Name := .single 'S' "uspense" (by decide) (by decide)

/-- A rooted route with a splat, a route without a path inside it that holds a
relative one, and a relative route beside it. -/
def sampleRoutes : Forest Label :=
  .node
    { path := some (.ofString " /admin/* " (by decide), .double)
      element := .wrapped suspense (.single 'A' "dmin" (by decide) (by decide))
      elementFirst := false }
    (.node
      { path := none
        element := .plain (.single 'L' "ayout" (by decide) (by decide))
        elementFirst := false }
      (.node
        { path := some (.ofString "users" (by decide), .template)
          element := .plain (.single 'U' "sers" (by decide) (by decide))
          elementFirst := true }
        .empty .empty)
      .empty)
    (.node
      { path := some (.ofString "late" (by decide), .single)
        element := .plain (.single 'L' "ate" (by decide) (by decide))
        elementFirst := false }
      .empty .empty)

/-- The sample has plain names only, so scanning its text gives its own walk: the splat is
dropped, the route without a path is passed through, and the relative route is joined to the
rooted one before it. -/
theorem scan_recovers_sample :
    (∀ label ∈ sampleRoutes.labels, label.element.isPlain = true) ∧
      resolve (scanDeclarations [] (writeList true sampleRoutes)) none =
        [⟨"/admin", some "Admin"⟩, ⟨"/admin/users", some "Users"⟩, ⟨"/admin/late", some "Late"⟩] :=
  ⟨by decide +kernel,
    ((scan_recovers_route_tree [] true sampleRoutes none).2 (by decide +kernel)).trans
      (by decide +kernel)⟩

/-- What is declared of a component that starts with an accented letter. -/
def accentedLabel : Label where
  path := some (.ofString "/a" (by decide), .double)
  element := .plain (.single 'É' "cran" (by decide) (by decide))
  elementFirst := false

/-- A route to such a component, without children. -/
def accentedRoute : Forest Label := .node accentedLabel .empty .empty

/-- The name of a component that starts with an accented letter is not read, although the walk of
the tree has it. -/
theorem scan_loses_accented_name :
    resolve (scanDeclarations [] (writeList false accentedRoute)) none = [⟨"/a", none⟩] ∧
      accentedRoute.routes (Label.entry Name.declared []) none = [⟨"/a", some "Écran"⟩] := by
  decide +kernel

end ScreenAtlas.Route.Markup
