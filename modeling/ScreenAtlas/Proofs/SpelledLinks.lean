import ScreenAtlas.Navigation.Link
import ScreenAtlas.Proofs.FirstOccurrences
import ScreenAtlas.Proofs.Search

/-!
# The links of a source in the order of their first places

Where a source is not parsed, seven patterns look for links in its text, each by itself. Their
captures overlap: the same target can be captured by several patterns, at one place or at
many. What they have in common is that a capture is everything from its place up to the next
quotation mark. So two captures at one place are the same capture, sorting by place leaves no
choice, and it does not matter which pattern is tried first.

A link is listed with its first capture. The captures are sorted, so that this is the one with
the smallest place.

In a tree no sorting is needed: the targets come in pre-order, and each is listed where it
occurs first.
-/
namespace ScreenAtlas.Navigation

open ScreenAtlas.Text ScreenAtlas.Script

/-! ## Quoted targets -/

/-- A target stands at a place of a text: it holds no quotation mark, and one follows it. -/
structure Stands (text : List Char) (place : Nat) (target : List Char) : Prop where
  clear : ∀ c ∈ target, isQuote c = false
  quoted : ∃ mark rest, isQuote mark = true ∧ text.drop place = target ++ mark :: rest

/-- At most one target stands at a place: both targets go on up to the first quotation mark behind
the place, and neither holds one. -/
theorem Stands.unique {text : List Char} {place : Nat} {left right : List Char}
    (first : Stands text place left) (second : Stands text place right) : left = right := by
  have taken {target : List Char} (stands : Stands text place target) :
      (text.drop place).takeWhile (fun c => !isQuote c) = target := by
    obtain ⟨mark, rest, quote, split⟩ := stands.quoted
    have inside : ∀ c ∈ target, (!isQuote c) = true := fun c member => by
      rw [stands.clear c member]
      rfl
    rw [split, List.takeWhile_append_of_pos inside]
    simp [quote]
  rw [← taken first, taken second]

/-- What is taken from a text ends with a quoted target, up to the rest that is left: behind
anything stand the target and a quotation mark, and the target holds none. -/
structure EndsQuoted (text target rest : List Char) : Prop where
  clear : ∀ c ∈ target, isQuote c = false
  ends : ∃ lead mark, isQuote mark = true ∧ text = lead ++ (target ++ mark :: rest)

/-- What ends with a quoted target still does when more text stands in front, since the target and
its mark are found at the end. -/
theorem EndsQuoted.of_suffix {text whole target rest : List Char}
    (ends : EndsQuoted text target rest) (suffix : text <:+ whole) :
    EndsQuoted whole target rest := by
  obtain ⟨front, rfl⟩ := suffix
  obtain ⟨lead, mark, quote, rfl⟩ := ends.ends
  exact ⟨ends.clear, front ++ lead, mark, quote, by simp⟩

/-- A quoted text ends with its target: the opening mark is the lead, and the span between the
marks holds no quotation mark. -/
theorem endsQuoted_of_quoted? {text target rest : List Char}
    (found : quoted? text = some (target, rest)) : EndsQuoted text target rest := by
  unfold quoted? at found
  split at found
  · cases found
  · next c text =>
    split at found
    · split at found
      · next content mark behind read =>
        obtain ⟨rfl, rfl⟩ := Prod.mk.inj (Option.some.inj found)
        unfold run? at read
        split at read
        · cases read
        · obtain ⟨taken, left⟩ := Prod.mk.inj (Option.some.inj read)
          have quote : isQuote mark = true := by
            simpa [left] using List.head?_dropWhile_not (fun d => !isQuote d) text
          refine ⟨?_, [c], mark, quote, ?_⟩
          · intro d member
            rw [← taken] at member
            simpa using List.mem_takeWhile_imp member
          · rw [← taken, ← left, List.takeWhile_append_dropWhile]
            rfl
      · cases found
    · cases found

/-- What follows a word that was read is the end of the text, because the word itself stood in
front of it. -/
theorem suffix_of_literal? {word : String} {text rest : List Char}
    (found : literal? word text = some rest) : rest <:+ text :=
  ⟨word.toList, (eq_append_of_after? found).symm⟩

/-- What follows the first of several words that fits is the end of the text, whichever of the
words it was. -/
theorem suffix_of_oneOf? {choices : List String} {text rest : List Char} {word : String}
    (found : oneOf? choices text = some (word, rest)) : rest <:+ text := by
  obtain ⟨choice, _, chosen⟩ := List.exists_of_findSome?_eq_some found
  obtain ⟨behind, read, same⟩ := Option.map_eq_some_iff.mp chosen
  obtain ⟨rfl, rfl⟩ := Prod.mk.inj same
  exact suffix_of_literal? read

/-- What follows a mark that may be missing is the end of the text, both when the mark is there
and when nothing is skipped. -/
theorem skipMark_suffix (mark : Char) (text : List Char) : skipMark mark text <:+ text := by
  unfold skipMark
  split
  · split
    · exact List.suffix_cons _ _
    · exact List.suffix_refl _
  · exact List.suffix_refl _

/-! ## Every pattern captures a quoted target -/

section Patterns

variable {before : Option Char} {text target rest : List Char}

/-- The first argument of a call, if it is quoted, ends with its target; the bracket and the
blanks before it belong to the lead. -/
theorem endsQuoted_of_quotedArgument? (found : quotedArgument? text = some (target, rest)) :
    EndsQuoted text target rest := by
  unfold quotedArgument? at found
  split at found
  · next behind opened =>
    refine (endsQuoted_of_quoted? found).of_suffix ?_
    calc skipBlanks behind <:+ behind := List.dropWhile_suffix isBlank
      _ <:+ '(' :: behind := List.suffix_cons _ _
      _ <:+ text := opened ▸ List.dropWhile_suffix isBlank
  · cases found

/-- A quoted value of an attribute ends with its target, with or without the brace that may open
it. -/
theorem endsQuoted_of_quotedValue? (found : quotedValue? text = some (target, rest)) :
    EndsQuoted text target rest :=
  (endsQuoted_of_quoted? found).of_suffix
    ((List.dropWhile_suffix isBlank).trans (skipMark_suffix _ _))

/-- A call of a method of some receiver ends with the target that is its first argument. All that
comes before the argument only moves the lead on. -/
theorem endsQuoted_of_methodCall? {receiver : String}
    (found : methodCall? receiver before text = some (target, rest)) :
    EndsQuoted text target rest := by
  obtain ⟨behind, received, found⟩ := Option.bind_eq_some_iff.mp found
  obtain ⟨⟨_, following⟩, called, found⟩ := Option.bind_eq_some_iff.mp found
  exact (endsQuoted_of_quotedArgument? found).of_suffix
    ((suffix_of_oneOf? called).trans (suffix_of_literal? received))

/-- A call of a function by its name ends with the target that is its first argument, as the name
is nothing but a lead. -/
theorem endsQuoted_of_functionCall? {name : String}
    (found : functionCall? name before text = some (target, rest)) :
    EndsQuoted text target rest := by
  unfold functionCall? at found
  split at found
  · obtain ⟨behind, named, found⟩ := Option.bind_eq_some_iff.mp found
    exact (endsQuoted_of_quotedArgument? found).of_suffix (suffix_of_literal? named)
  · cases found

/-- An attribute that holds an address ends with its value, because the name of the attribute and
the sign behind it are the lead. -/
theorem endsQuoted_of_addressAttribute?
    (found : addressAttribute? before text = some (target, rest)) :
    EndsQuoted text target rest := by
  obtain ⟨behind, named, found⟩ := Option.bind_eq_some_iff.mp found
  exact (endsQuoted_of_quotedValue? found).of_suffix (suffix_of_literal? named)

/-- The nearest target attribute in the tag of a link element ends with its value. The induction
is on the text of the tag, as the attribute is looked for at every place of it. -/
theorem endsQuoted_of_nearestTarget? (found : nearestTarget? text = some (target, rest)) :
    EndsQuoted text target rest := by
  induction text with
  | nil => cases found
  | cons c text inductionHypothesis =>
    rw [nearestTarget?] at found
    split at found
    · next here =>
      obtain rfl := Option.some.inj found
      split at here
      · obtain ⟨behind, named, valued⟩ := Option.bind_eq_some_iff.mp here
        exact (endsQuoted_of_quotedValue? valued).of_suffix
          ((suffix_of_literal? named).trans (List.suffix_cons _ _))
      · cases here
    · split at found
      · cases found
      · exact (inductionHypothesis found).of_suffix (List.suffix_cons _ _)

/-- A link element ends with the value of its nearest target attribute; the name of the element
and the attributes before belong to the lead. -/
theorem endsQuoted_of_linkElement? (found : linkElement? before text = some (target, rest)) :
    EndsQuoted text target rest := by
  obtain ⟨⟨_, behind⟩, opened, found⟩ := Option.bind_eq_some_iff.mp found
  dsimp only at found
  split at found
  · exact (endsQuoted_of_nearestTarget? found).of_suffix (suffix_of_oneOf? opened)
  · cases found

/-- Whatever one of the seven patterns accepts ends with a quoted target. This is all that the
order of the captures needs to know about a pattern. -/
theorem endsQuoted_of_pattern {pattern : Recogniser (List Char)} (listed : pattern ∈ patterns)
    (found : pattern before text = some (target, rest)) : EndsQuoted text target rest := by
  simp only [patterns, List.mem_cons, List.not_mem_nil, or_false] at listed
  rcases listed with rfl | rfl | rfl | rfl | rfl | rfl | rfl
  · exact endsQuoted_of_methodCall? found
  · exact endsQuoted_of_methodCall? found
  · exact endsQuoted_of_functionCall? found
  · exact endsQuoted_of_functionCall? found
  · exact endsQuoted_of_functionCall? found
  · exact endsQuoted_of_addressAttribute? found
  · exact endsQuoted_of_linkElement? found

end Patterns

/-! ## Captures and their places -/

/-- A pattern captures a target at a place: the target starts there, and one of the hits of
the pattern ends with it and one quotation mark. -/
def Captures (pattern : Recogniser (List Char)) (content : List Char) (place : Nat)
    (target : List Char) : Prop :=
  ∃ hit ∈ hits pattern content, hit.value = target ∧ hit.stop = place + target.length + 1

/-- A hit of a pattern has a place where its target stands in the text: the hit stops one
quotation mark behind the end of the target. -/
theorem exists_place_of_hit {pattern : Recogniser (List Char)} (listed : pattern ∈ patterns)
    {content : List Char} {hit : Hit (List Char)} (member : hit ∈ hits pattern content) :
    ∃ place, hit.stop = place + hit.value.length + 1 ∧ Stands content place hit.value := by
  obtain ⟨front, text, rest, target, _, accepted⟩ := occurs_of_mem_hitsFrom member
  have ends := endsQuoted_of_pattern listed accepted
  obtain ⟨lead, mark, quote, rfl⟩ := ends.ends
  refine ⟨(front ++ lead).length, ?_, ends.clear, mark, rest, quote, ?_⟩
  · simp only [Hit.stop, List.length_append, List.length_cons]
    omega
  · rw [← List.append_assoc, List.drop_left]

/-- A captured target stands in the text at the place where it is captured, for the place is fixed
by where the hit stops. -/
theorem Captures.stands {pattern : Recogniser (List Char)} (listed : pattern ∈ patterns)
    {content target : List Char} {place : Nat} (captures : Captures pattern content place target) :
    Stands content place target := by
  obtain ⟨hit, member, rfl, stops⟩ := captures
  obtain ⟨start, same, stands⟩ := exists_place_of_hit listed member
  obtain rfl : start = place := by omega
  exact stands

/-- The captures of a pattern, as the program lists them, are exactly what the pattern captures in
the sense of places and targets. -/
theorem mem_capturesOf {pattern : Recogniser (List Char)} (listed : pattern ∈ patterns)
    {content : List Char} {capture : Capture} :
    capture ∈ capturesOf pattern content ↔
      Captures pattern content capture.start capture.target := by
  obtain ⟨start, target⟩ := capture
  simp only [capturesOf, List.mem_map, Captures, Capture.mk.injEq]
  constructor
  · rintro ⟨hit, member, rfl, rfl⟩
    obtain ⟨place, stops, _⟩ := exists_place_of_hit listed member
    exact ⟨hit, member, rfl, by omega⟩
  · rintro ⟨hit, member, rfl, stops⟩
    exact ⟨hit, member, by omega, rfl⟩

/-! ## Patterns in any order -/

/-- The captures of some patterns, tried one after the other, in the order of their places. -/
def capturesBy (order : List (Recogniser (List Char))) (content : List Char) : List Capture :=
  (order.flatMap fun pattern => capturesOf pattern content).mergeSort
    fun left right => left.start ≤ right.start

/-- The links that a text spells out when the patterns are tried in a given order. -/
def spelledBy (order : List (Recogniser (List Char))) (content : String) : List String :=
  internalTargets (((capturesBy order content.toList).filter fun capture =>
    !holds "$\x7b" capture.target).map fun capture => String.ofList capture.target)

/-- The captures are sorted by their places, whatever the order in which the patterns are tried.
-/
theorem capturesBy_ordered (order : List (Recogniser (List Char))) (content : List Char) :
    (capturesBy order content).Pairwise fun left right => left.start ≤ right.start := by
  refine (List.pairwise_mergeSort ?_ ?_ _).imp of_decide_eq_true
  · intro first second third
    simp only [decide_eq_true_eq]
    omega
  · intro first second
    simp only [Bool.or_eq_true, decide_eq_true_eq]
    omega

/-- The sorted captures are exactly what one of the patterns captures, as long as all patterns are
among the seven. Sorting adds and drops none. -/
theorem mem_capturesBy {order : List (Recogniser (List Char))} (known : order ⊆ patterns)
    {content : List Char} {capture : Capture} :
    capture ∈ capturesBy order content ↔
      ∃ pattern ∈ order, Captures pattern content capture.start capture.target := by
  rw [capturesBy, List.mem_mergeSort, List.mem_flatMap]
  exact exists_congr fun pattern => and_congr_right fun member => mem_capturesOf (known member)

/-- There is only one capture at a place: its target stands there, and so does that of any other
capture at this place. -/
theorem eq_of_start {content : List Char} {left right : Capture}
    (first : left ∈ captures content) (second : right ∈ captures content)
    (same : left.start = right.start) : left = right := by
  obtain ⟨pattern, listed, captured⟩ := (mem_capturesBy (List.Subset.refl _)).mp first
  obtain ⟨other, present, caught⟩ := (mem_capturesBy (List.Subset.refl _)).mp second
  obtain ⟨start, target⟩ := left
  obtain ⟨place, text⟩ := right
  obtain rfl : start = place := same
  exact congrArg (Capture.mk start) ((captured.stands listed).unique (caught.stands present))

/-- The order of the patterns makes no difference to the captures.

Proof: two sorted lists of the same captures can only differ in the order of captures at one
place, and there is only one. -/
theorem capturesBy_perm {order : List (Recogniser (List Char))} (shuffled : order.Perm patterns)
    (content : List Char) : capturesBy order content = captures content := by
  have same : (capturesBy order content).Perm (captures content) :=
    (List.mergeSort_perm _ _).trans
      ((shuffled.flatMap_right _).trans (List.mergeSort_perm _ _).symm)
  refine same.eq_of_pairwise ?_ (capturesBy_ordered order content)
    (capturesBy_ordered patterns content)
  intro left right first second before behind
  exact eq_of_start (same.mem_iff.mp first) second (Nat.le_antisymm before behind)

/-! ## The links that a text spells out -/

/-- A link is captured at a place of a text. -/
def SpelledAt (content : String) (place : Nat) (link : String) : Prop :=
  ∃ pattern ∈ patterns, Captures pattern content.toList place link.toList

/-- The link is literal and leads to a path inside the application. -/
def isListed (link : String) : Bool := !holds "$\x7b" link.toList && isInternal link

/-- The link that a capture spells, as a text. -/
def Capture.link (capture : Capture) : String := String.ofList capture.target

/-- The captures whose links are listed, in the order of their places. -/
def listedCaptures (content : String) : List Capture :=
  (captures content.toList).filter fun capture => isListed capture.link

/-- Targets are gathered by themselves: each is added exactly when it is not listed yet, so that
it is listed once. -/
theorem gathersBy_addTarget : GathersBy id addTarget := by
  refine GathersBy.of_test (fun _ _ => rfl) ?_
  intro found target
  simp

/-- The links of a text are gathered from the captures whose links are listed, in the order of the
places. Both filters of the program look at the link alone, so they are one. -/
theorem spelledLinks_eq (content : String) :
    spelledLinks content = ((listedCaptures content).map Capture.link).foldl addTarget [] := by
  have spelled (capture : Capture) : capture.link.toList = capture.target := by
    simp [Capture.link]
  rw [spelledLinks, internalTargets, List.filter_map, List.filter_filter, listedCaptures]
  congr 2
  refine List.filter_congr fun capture _ => ?_
  rw [isListed, spelled, Bool.and_comm]
  rfl

/-- The captures that the links are listed for, each the first one of its link. -/
def firstCaptures (content : String) : List Capture :=
  (listedCaptures content).foldl (addBy Capture.link) []

/-- The links that a text spells out are those of the first captures, one for each, since
gathering links is the same as gathering captures by their links. -/
theorem spelledLinks_eq_map (content : String) :
    spelledLinks content = (firstCaptures content).map Capture.link := by
  rw [spelledLinks_eq]
  exact gathersBy_addTarget.foldl_image Capture.link (listedCaptures content)

/-- A link that may be listed is captured at a place exactly when one of the listed captures has
this link and this place. -/
theorem spelledAt_iff {content link : String} (listed : isListed link = true) (place : Nat) :
    SpelledAt content place link ↔
      ∃ capture ∈ listedCaptures content, capture.link = link ∧ capture.start = place := by
  constructor
  · rintro captured
    have member : (⟨place, link.toList⟩ : Capture) ∈ captures content.toList :=
      (mem_capturesBy (List.Subset.refl patterns)).mpr captured
    exact ⟨_, List.mem_filter.mpr ⟨member, by simpa [Capture.link] using listed⟩,
      by simp [Capture.link], rfl⟩
  · rintro ⟨capture, member, rfl, rfl⟩
    have captured := (mem_capturesBy (List.Subset.refl patterns)).mp (List.mem_filter.mp member).1
    simpa [SpelledAt, Capture.link] using captured

/-- A link may be listed exactly when it leads inside the application and no placeholder opens in
it. -/
theorem isListed_iff (link : String) :
    isListed link = true ↔ isInternal link = true ∧ ¬ "$\x7b".toList <:+: link.toList := by
  rw [isListed, Bool.and_eq_true, Bool.not_eq_true', ← Bool.not_eq_true,
    holds_iff_infix (by decide), and_comm]

/-- The links that a text spells out are exactly those that are captured somewhere, lead inside
the application and hold no placeholder. -/
theorem mem_spelledLinks (content link : String) :
    link ∈ spelledLinks content ↔
      (∃ place, SpelledAt content place link) ∧ isInternal link = true ∧
        ¬ "$\x7b".toList <:+: link.toList := by
  have gathered := gathersBy_addTarget.mem_keys [] ((listedCaptures content).map Capture.link) link
  simp only [List.map_id, List.not_mem_nil, false_or] at gathered
  rw [spelledLinks_eq, gathered, ← isListed_iff, List.mem_map]
  constructor
  · rintro ⟨capture, member, rfl⟩
    have listed := (List.mem_filter.mp member).2
    exact ⟨⟨capture.start, (spelledAt_iff listed _).mpr ⟨capture, member, rfl, rfl⟩⟩, listed⟩
  · rintro ⟨⟨place, captured⟩, listed⟩
    obtain ⟨capture, member, same, _⟩ := (spelledAt_iff listed place).mp captured
    exact ⟨capture, member, same⟩

/-- The captures whose links are listed are sorted by their places, as a part of captures that are
sorted. -/
theorem listedCaptures_ordered (content : String) :
    (listedCaptures content).Pairwise fun left right => left.start ≤ right.start :=
  (capturesBy_ordered patterns content.toList).sublist List.filter_sublist

/-- The first capture of a link is at the smallest place where the link is captured: it comes
before all others of this link, and the captures are sorted. -/
theorem isLeast_start {content : String} {capture : Capture}
    (first : capture ∈ firstCaptures content) :
    IsLeast {place | SpelledAt content place capture.link} capture.start := by
  have gathers := gathersBy_addBy Capture.link
  have member := gathers.gathers.foldl_subset _ first
  have listed := (List.mem_filter.mp member).2
  have least := gathers.isLeast_rank (listedCaptures_ordered content) first
  simpa only [spelledAt_iff listed] using least

/-- The links are listed in the order of the smallest places where they are captured. Two links
never share such a place, since there is one capture at a place. -/
theorem spelledLinks_ordered (content : String) :
    (spelledLinks content).Pairwise fun earlier later => ∃ first second,
      IsLeast {place | SpelledAt content place earlier} first ∧
        IsLeast {place | SpelledAt content place later} second ∧ first < second := by
  have gathers := gathersBy_addBy Capture.link
  have part : (firstCaptures content).Sublist (listedCaptures content) :=
    gathers.gathers.foldl_sublist _
  have ordered := (listedCaptures_ordered content).sublist part
  have distinct := List.pairwise_map.mp (gathers.nodup (listedCaptures content))
  rw [spelledLinks_eq_map, List.pairwise_map]
  refine (ordered.and distinct).imp_of_mem ?_
  rintro left right first second ⟨before, apart⟩
  refine ⟨left.start, right.start, isLeast_start first, isLeast_start second, ?_⟩
  refine Nat.lt_of_le_of_ne before fun same => apart ?_
  have known {capture : Capture} (kept : capture ∈ firstCaptures content) :
      capture ∈ captures content.toList := (List.mem_filter.mp (part.subset kept)).1
  rw [eq_of_start (known first) (known second) same]

/-! ## The links of a tree -/

/-- A node leads to a target: it is a call of a navigation function with the target as its
first argument, or it is an element whose first target attribute has the target as value. -/
inductive Leads (parsed : Parsed) (node : Node) (target : String) : Prop where
  | call (callee : String) (kind : node.kind = "call_expression")
      (calls : parsed.callee? node = some callee) (navigates : callee ∈ navigationFunctions)
      (literal : parsed.literal? node.firstArgument? = some target)
  | element (earlier later : List String) (name : String) (value : Option Node)
      (kind : node.isElement = true)
      (names : targetAttributes (String.ofList (parsed.elementName node)) =
        earlier ++ name :: later)
      (absent : ∀ other ∈ earlier, (parsed.attributes node).lookup other = none)
      (given : (parsed.attributes node).lookup name = some value)
      (literal : parsed.literal? value = some target)

/-- The target that the program finds for a node is where the node leads to, in both of the two
ways and in no other. -/
theorem target?_eq_some_iff (parsed : Parsed) (node : Node) (target : String) :
    target? parsed node = some target ↔ Leads parsed node target := by
  unfold target?
  constructor
  · intro found
    split at found
    · next kind =>
      obtain ⟨callee, calls, found⟩ := Option.bind_eq_some_iff.mp found
      obtain ⟨navigates, literal⟩ := Option.ite_none_right_eq_some.mp found
      exact .call callee (eq_of_beq kind) calls (by simpa using navigates) literal
    · obtain ⟨kind, found⟩ := Option.ite_none_right_eq_some.mp found
      obtain ⟨value, chosen, literal⟩ := Option.bind_eq_some_iff.mp found
      obtain ⟨earlier, name, later, names, given, absent⟩ := List.findSome?_eq_some_iff.mp chosen
      exact .element earlier later name value kind names absent given literal
  · rintro (⟨callee, kind, calls, navigates, literal⟩ |
      ⟨earlier, later, name, value, kind, names, absent, given, literal⟩)
    · simp [callTarget?, kind, calls, navigates, literal]
    · have other : (node.kind == "call_expression") = false := by
        rw [beq_eq_false_iff_ne]
        intro call
        simp [Node.isElement, call] at kind
      have chosen := List.findSome?_eq_some_iff.mpr ⟨earlier, name, later, names, given, absent⟩
      simp [elementTarget?, other, kind, chosen, literal]

/-- Some node of the tree leads to a path inside the application. -/
def Offers (parsed : Parsed) : Prop :=
  ∃ node ∈ parsed.root.preorder, ∃ target, Leads parsed node target ∧ isInternal target = true

/-- The internal targets of a tree in pre-order, repeated as often as they occur. -/
def treeTargets (parsed : Parsed) : List String :=
  (parsed.root.preorder.filterMap (target? parsed)).filter isInternal

/-- The links of a tree are gathered from its internal targets: what the program tests while it
gathers can be tested before. -/
theorem parsedLinks_eq (parsed : Parsed) :
    parsedLinks parsed = (treeTargets parsed).foldl addTarget [] := by
  rw [parsedLinks, internalTargets, Flow.nodes_eq_preorder, treeTargets]

/-- A tree has no links exactly when none of its nodes leads inside the application, because
gathering leaves nothing out but repetitions. -/
theorem parsedLinks_eq_nil_iff (parsed : Parsed) : parsedLinks parsed = [] ↔ ¬ Offers parsed := by
  rw [parsedLinks_eq, gathersBy_addTarget.foldl_eq_nil_iff, treeTargets, List.filter_eq_nil_iff]
  simp only [List.mem_filterMap, target?_eq_some_iff, Offers]
  constructor
  · rintro none ⟨node, member, target, leads, internal⟩
    exact none target ⟨node, member, leads⟩ internal
  · rintro none target ⟨node, member, leads⟩ internal
    exact none ⟨node, member, target, leads, internal⟩

/-- The links of a tree are its internal targets, each once, in the order in which they occur
first in pre-order. -/
theorem inFirstOrder_parsedLinks (parsed : Parsed) :
    Flow.InFirstOrder (treeTargets parsed) (parsedLinks parsed) := by
  simpa only [List.map_id, parsedLinks_eq] using
    gathersBy_addTarget.inFirstOrder (treeTargets parsed)

section Source

variable (reading : Reading) (path content : String)

/-- The source has no tree, or its tree offers no link. -/
def FallsBack : Prop :=
  reading.parsed? (dialectOf path) content = none ∨
    ∃ parsed, reading.parsed? (dialectOf path) content = some parsed ∧ ¬ Offers parsed

/-- A source that falls back has the links that its text spells out, both when it is not parsed
and when its tree gives no link. -/
theorem links_of_fallsBack (falls : FallsBack reading path content) :
    links reading path content = spelledLinks content := by
  unfold links linksOf
  rcases falls with broken | ⟨parsed, read, silent⟩
  · simp [broken]
  · simp [read, (parsedLinks_eq_nil_iff parsed).mpr silent]

/-- A source whose tree offers a link has exactly the links of the tree. The text is not searched,
so a link that only the text shows is not listed. -/
theorem links_of_offers {parsed : Parsed}
    (read : reading.parsed? (dialectOf path) content = some parsed) (offers : Offers parsed) :
    links reading path content = parsedLinks parsed := by
  have some : parsedLinks parsed ≠ [] := fun none => (parsedLinks_eq_nil_iff parsed).mp none offers
  rw [links, read, linksOf]
  split
  · next none => exact absurd none some
  · rfl

end Source

/-- The links of a source stand in the order of their first places.

* A text spells out exactly the links that one of the seven patterns captures and that are
  literal and internal, each once. They are ordered by the smallest place where they are
  captured, and what is captured at a place stands there, up to the next quotation mark.
* The patterns may be tried in any order.
* A source without a tree, or with a tree that leads nowhere inside the application, has the
  links that its text spells out. Any other source has the internal targets of its tree, each
  where it occurs first in pre-order.

Proof: two captures at one place are the same, because a capture goes on up to the next
quotation mark. So the sorted captures do not depend on the order of the patterns, and the
first capture of a link is the one with the smallest place. -/
theorem links_stand_in_order_of_first_places (content : String) :
    (∀ link, link ∈ spelledLinks content ↔
      (∃ place, SpelledAt content place link) ∧ isInternal link = true ∧
        ¬ "$\x7b".toList <:+: link.toList) ∧
    (spelledLinks content).Nodup ∧
    ((spelledLinks content).Pairwise fun earlier later => ∃ first second,
      IsLeast {place | SpelledAt content place earlier} first ∧
        IsLeast {place | SpelledAt content place later} second ∧ first < second) ∧
    (∀ place link, SpelledAt content place link → Stands content.toList place link.toList) ∧
    (∀ order, order.Perm patterns → spelledBy order content = spelledLinks content) ∧
    (∀ reading path,
      (FallsBack reading path content → links reading path content = spelledLinks content) ∧
      ∀ parsed, reading.parsed? (dialectOf path) content = some parsed → Offers parsed →
        ∃ leads : Node → Option String,
          (∀ node target, leads node = some target ↔ Leads parsed node target) ∧
          Flow.InFirstOrder ((parsed.root.preorder.filterMap leads).filter isInternal)
            (links reading path content)) := by
  have ordered := spelledLinks_ordered content
  refine ⟨mem_spelledLinks content, ?_, ordered, ?_, ?_, ?_⟩
  · refine ordered.imp ?_
    rintro earlier _ ⟨first, second, least, other, less⟩ rfl
    exact absurd (least.unique other) (Nat.ne_of_lt less)
  · rintro place link ⟨pattern, listed, captured⟩
    exact captured.stands listed
  · intro order shuffled
    rw [spelledBy, capturesBy_perm shuffled]
    rfl
  · intro reading path
    refine ⟨links_of_fallsBack reading path content, ?_⟩
    intro parsed read offers
    refine ⟨target? parsed, target?_eq_some_iff parsed, ?_⟩
    rw [links_of_offers reading path content read offers]
    exact inFirstOrder_parsedLinks parsed

/-- A source with a call that only a tree shows and a call that only the text spells out. -/
def pushSource : String := "push('/b'); navigate('/a')"

/-- The node of the first call, with its callee and its only argument. -/
def pushCall : Node :=
  .mk "call_expression" ⟨0, 10, 0, 0⟩ none true
    [.mk "identifier" ⟨0, 4, 0, 0⟩ (some "function") true [],
      .mk "arguments" ⟨4, 10, 0, 0⟩ (some "arguments") true
        [.mk "string" ⟨5, 9, 0, 0⟩ none true []]]

/-- The source with a tree that has the first call only. -/
def pushParsed : Parsed :=
  ⟨.mk "program" ⟨0, 26, 0, 0⟩ none true [pushCall], Text.encode pushSource.toList⟩

/-- The tree of the sample leads to the target of its first call, which is a path inside the
application. -/
theorem pushParsed_offers : Offers pushParsed := by
  refine ⟨pushCall, List.mem_cons_of_mem _ List.mem_cons_self, "/b", ?_, by decide +kernel⟩
  exact .call "push" rfl (by decide +kernel) (by decide) (by decide +kernel)

/-- The text of the sample captures the target of the second call at its place; the pattern for
the function accepts it there. -/
theorem pushSource_spelledAt : SpelledAt pushSource 22 "/a" := by
  refine ⟨functionCall? "navigate", by simp [patterns], ?_⟩
  unfold Captures
  decide +kernel

/-- The sample without its tree has the link that the text spells out, whatever the order of the
patterns. With its tree it has the link of the tree and no other. -/
theorem pushSource_links_in_order :
    Stands pushSource.toList 22 "/a".toList ∧
    spelledBy patterns.reverse pushSource = spelledLinks pushSource ∧
    links (fun _ _ => none) "a.tsx" pushSource = spelledLinks pushSource ∧
    spelledLinks pushSource = ["/a"] ∧
    (∃ leads : Node → Option String,
      (∀ node target, leads node = some target ↔ Leads pushParsed node target) ∧
      Flow.InFirstOrder ((pushParsed.root.preorder.filterMap leads).filter isInternal)
        (links (fun _ _ => some pushParsed.root) "a.tsx" pushSource)) ∧
    links (fun _ _ => some pushParsed.root) "a.tsx" pushSource = ["/b"] := by
  obtain ⟨_, _, _, stands, shuffled, sources⟩ := links_stand_in_order_of_first_places pushSource
  refine ⟨stands 22 "/a" pushSource_spelledAt, shuffled _ (List.reverse_perm patterns),
    (sources _ _).1 (Or.inl rfl), by decide +kernel, ?_, by decide +kernel⟩
  exact (sources (fun _ _ => some pushParsed.root) "a.tsx").2 pushParsed rfl pushParsed_offers

end ScreenAtlas.Navigation
