import ScreenAtlas.Proofs.PathSegments
import ScreenAtlas.Proofs.Search
import ScreenAtlas.Route.FilePath

/-!
# The route of a file, segment by segment

The route of a file is computed by replacements in its whole place: groupings are cut out
together with the slash behind them, the path is brought into normal form, a final `index`
is cut off, and parameters are replaced by their names. Between the slashes this is a
translation of segments. Groupings go first, so an `index` that only groupings follow is
final, and the slashes that a grouping leaves at an end of the place or beside another
grouping go with the normal form.
-/
namespace ScreenAtlas.Route

open ScreenAtlas.Text

/-! ## Places of files -/

/-- The marks that structure the place of a file. No name holds one of them. -/
def placeMarks : List Char := ['/', '(', ')', '[', ']', '*']

/-- A name in the place of a file, not empty and without blanks and marks. -/
structure SegmentName where
  text : List Char
  filled : text ≠ []
  solid : Solid text
  unmarked : placeMarks.all (· ∉ text)

/-- None of the marks that structure a place stands in a name. -/
theorem SegmentName.plain (name : SegmentName) : ∀ mark ∈ placeMarks, mark ∉ name.text :=
  fun mark listed => of_decide_eq_true (List.all_eq_true.mp name.unmarked mark listed)

/-- The name of a parameter. A dot in front of it would count among those of a remainder. -/
structure ParameterName extends SegmentName where
  undotted : text.head? ≠ some '.'

/-- What a parameter stands for: one segment, all that remain, or all that remain, if any. -/
inductive ParameterKind where
  | single
  | remainder
  | optionalRemainder

/-- What is written in front of a parameter's name. -/
def ParameterKind.opening : ParameterKind → List Char
  | single => ['[']
  | remainder => ['[', '.', '.', '.']
  | optionalRemainder => ['[', '[', '.', '.', '.']

/-- What is written behind a parameter's name. -/
def ParameterKind.closing : ParameterKind → List Char
  | single | remainder => [']']
  | optionalRemainder => [']', ']']

/-- A segment in the place of a file: a grouping folder, a fixed name or a parameter. -/
inductive PlaceSegment where
  | grouping (name : SegmentName)
  | fixed (name : SegmentName)
  | parameter (kind : ParameterKind) (name : ParameterName)

namespace PlaceSegment

/-- The segment as it is written in the place of a file. -/
def written : PlaceSegment → List Char
  | grouping name => '(' :: name.text ++ [')']
  | fixed name => name.text
  | parameter kind name => kind.opening ++ name.text ++ kind.closing

/-- The segment is one of the route: all but groupings are. -/
def isShown : PlaceSegment → Bool
  | grouping _ => false
  | fixed _ | parameter _ _ => true

/-- The segment is the fixed name that stands for its folder. -/
def isIndex : PlaceSegment → Bool
  | fixed name => name.text == "index".toList
  | grouping _ | parameter _ _ => false

/-- The segment as it stands in the route: a fixed name is kept, and a parameter of any kind
is its name behind a colon. -/
def translated : PlaceSegment → List Char
  | grouping _ => []
  | fixed name => name.text
  | parameter _ name => ':' :: name.text

/-- The name in a segment, without what is written around it. -/
def name : PlaceSegment → SegmentName
  | grouping name | fixed name => name
  | parameter _ name => name.toSegmentName

/-- Nothing but brackets and dots is written beside the name of a segment, whatever kind of
segment it is. -/
theorem of_mem_written {segment : PlaceSegment} {c : Char} (member : c ∈ segment.written) :
    c ∈ segment.name.text ∨ c ∈ ['(', ')', '[', ']', '.'] := by
  have opens (kind : ParameterKind) : kind.opening ⊆ ['(', ')', '[', ']', '.'] := by
    cases kind <;> decide
  have closes (kind : ParameterKind) : kind.closing ⊆ ['(', ')', '[', ']', '.'] := by
    cases kind <;> decide
  cases segment with
  | grouping name =>
    simp only [written, List.cons_append, List.mem_cons, List.mem_append] at member
    rcases member with rfl | inside | rfl | none
    · exact Or.inr (by decide)
    · exact Or.inl inside
    · exact Or.inr (by decide)
    · cases none
  | fixed name => exact Or.inl member
  | parameter kind name =>
    rcases List.mem_append.mp member with front | closing
    · rcases List.mem_append.mp front with opening | inside
      · exact Or.inr (opens kind opening)
      · exact Or.inl inside
    · exact Or.inr (closes kind closing)

/-- A written segment is not empty, because no name is. -/
theorem written_ne_nil (segment : PlaceSegment) : segment.written ≠ [] := by
  cases segment with
  | grouping name => exact List.cons_ne_nil _ _
  | fixed name => exact name.filled
  | parameter kind name =>
    intro none
    exact name.filled (List.append_eq_nil_iff.mp (List.append_eq_nil_iff.mp none).1).2

/-- A mark that no name holds is in no written segment, if it is not written beside names
either. This is so for the slash and for the wildcard. -/
theorem not_mem_written (segment : PlaceSegment) {c : Char} (reserved : c ∈ placeMarks)
    (apart : c ∉ ['(', ')', '[', ']', '.']) : c ∉ segment.written := by
  intro member
  rcases of_mem_written member with inside | beside
  · exact segment.name.plain c reserved inside
  · exact apart beside

/-- A written segment holds no blank, since its name and the marks around it hold none. -/
theorem solid_written (segment : PlaceSegment) : Solid segment.written := by
  intro c member
  rcases of_mem_written member with inside | beside
  · exact segment.name.solid c inside
  · have marks : Solid ['(', ')', '[', ']', '.'] := by decide
    exact marks c beside

/-- Only groupings are written with a round bracket, so that cutting out groupings leaves all
other segments alone. -/
theorem parenthesis_not_mem_written {segment : PlaceSegment} (shown : segment.isShown = true) :
    '(' ∉ segment.written := by
  cases segment with
  | grouping name => cases shown
  | fixed name => exact name.plain '(' (by decide)
  | parameter kind name =>
    have inside := name.plain '(' (by decide)
    cases kind <;> simp [written, ParameterKind.opening, ParameterKind.closing, inside]

/-- A written segment reads `index` exactly when it is that fixed name, since brackets are written
around all other names. -/
theorem isIndex_iff (segment : PlaceSegment) :
    segment.isIndex = true ↔ segment.written = "index".toList := by
  cases segment with
  | grouping name => simp [isIndex, written]
  | fixed name => simp [isIndex, written]
  | parameter kind name => cases kind <;> simp [isIndex, written, ParameterKind.opening]

end PlaceSegment

open PlaceSegment

/-- The text of a place: its segments with slashes between them. -/
def placeText (place : List PlaceSegment) : List Char := ['/'].intercalate (place.map written)

/-- The segments without a last one that stands for its folder. -/
def withoutIndex (place : List PlaceSegment) : List PlaceSegment :=
  if place.getLast?.any isIndex then place.dropLast else place

/-! ## Groupings -/

/-- A grouping starts with a round bracket, so none is recognised at another character. -/
theorem group?_needs (before : Option Char) (c : Char) (text : List Char) (other : c ≠ '(') :
    group? before (c :: text) = none := by
  simp [group?, other]

/-- A grouping is recognised as a whole, together with a slash behind it if there is one. -/
theorem group?_written (before : Option Char) (name : SegmentName) (rest : List Char) :
    group? before ((grouping name).written ++ rest) = some ([], skipMark '/' rest) := by
  have inside : ∀ c ∈ name.text, (c != ')' && c != '/') = true := by
    intro c member
    have closes : c ≠ ')' := fun same => name.plain ')' (by decide) (same ▸ member)
    have slash : c ≠ '/' := fun same => name.plain '/' (by decide) (same ▸ member)
    simp [closes, slash]
  simp [group?, written, List.dropWhile_append_of_pos inside]

/-- Groupings are replaced by nothing, so cutting them out only takes characters away. -/
theorem eq_nil_of_group? {before : Option Char} {text value rest : List Char}
    (accepted : group? before text = some (value, rest)) : value = [] := by
  unfold group? at accepted
  split at accepted
  · split at accepted
    · exact (Prod.mk.inj (Option.some.inj accepted)).1.symm
    · cases accepted
  · cases accepted

/-- A segment and those behind it are written with a slash between them, which is the step of the
inductions on places. -/
theorem placeText_cons_cons (segment next : PlaceSegment) (rest : List PlaceSegment) :
    placeText (segment :: next :: rest) = segment.written ++ ['/'] ++ placeText (next :: rest) :=
  List.intercalate_cons_cons

/-- A segment by itself is shown as it is written, unless it is a grouping, which leaves nothing.
-/
theorem parts_ungrouped_single (segment : PlaceSegment) (before : Option Char) :
    parts (substituteFrom group? 0 before segment.written) =
      ([segment].filter isShown).map written := by
  by_cases shown : segment.isShown = true
  · have avoided := avoids_of_not_mem group?_needs (parenthesis_not_mem_written shown) []
    have kept : substituteFrom group? 0 before segment.written = segment.written := by
      simpa [substituteFrom] using substituteFrom_append avoided before
    rw [kept,
      parts_of_plain segment.written_ne_nil (segment.not_mem_written (by decide) (by decide)),
      List.filter_cons_of_pos shown]
    rfl
  · cases segment with
    | grouping name =>
      have cut := substituteFrom_hit (group?_written before name []) (written_ne_nil _)
      rw [List.append_nil] at cut
      rw [cut]
      rfl
    | _ => exact absurd rfl shown

/-- Without its groupings a place has the segments that are shown.

Proof: by induction on the segments. A grouping goes with the slash behind it, if there is
one, and everything else is passed over, as it holds no round bracket. -/
theorem parts_ungrouped (place : List PlaceSegment) (before : Option Char) :
    parts (substituteFrom group? 0 before (placeText place)) =
      (place.filter isShown).map written := by
  induction place generalizing before with
  | nil => rfl
  | cons segment rest inductionHypothesis =>
    cases rest with
    | nil =>
      rw [placeText, List.map_singleton, List.intercalate_singleton]
      exact parts_ungrouped_single segment before
    | cons next rest =>
      rw [placeText_cons_cons]
      by_cases shown : segment.isShown = true
      · have free : '(' ∉ segment.written ++ ['/'] := by
          simp [parenthesis_not_mem_written shown]
        rw [substituteFrom_append (avoids_of_not_mem group?_needs free _), List.append_assoc,
          List.singleton_append, parts_slash, inductionHypothesis,
          parts_of_plain segment.written_ne_nil (segment.not_mem_written (by decide) (by decide)),
          List.filter_cons_of_pos shown]
        rfl
      · cases segment with
        | grouping name =>
          have accepted := group?_written before name ('/' :: placeText (next :: rest))
          rw [List.append_cons] at accepted
          rw [substituteFrom_hit accepted (by simp), List.nil_append, inductionHypothesis,
            List.filter_cons_of_neg shown]
        | _ => exact absurd rfl shown

/-- The normal form of a place without its groupings is its segments that are shown. Slashes that
the groupings have left behind are gone. -/
theorem normalizeChars_ungrouped (place : List PlaceSegment) :
    normalizeChars (substitute group? (placeText place)) =
      '/' :: ['/'].intercalate ((place.filter isShown).map written) := by
  have part : (substitute group? (placeText place)).Sublist (placeText place) :=
    substituteFrom_sublist (fun _ _ _ _ => eq_nil_of_group?) 0 none _
  have solid : Solid (substitute group? (placeText place)) := by
    intro c member
    rcases of_mem_intercalate (part.subset member) with rfl | ⟨_, listed, inside⟩
    · decide
    · obtain ⟨segment, _, rfl⟩ := List.mem_map.mp listed
      exact segment.solid_written c inside
  have ordinary : trim (substitute group? (placeText place)) ≠ ['*'] := by
    rw [solid.trim_eq]
    intro lone
    have member : '*' ∈ placeText place := part.subset (lone ▸ List.mem_singleton_self '*')
    rcases of_mem_intercalate member with slash | ⟨_, listed, inside⟩
    · exact absurd slash (by decide)
    · obtain ⟨segment, _, rfl⟩ := List.mem_map.mp listed
      exact segment.not_mem_written (by decide) (by decide) inside
  rw [normalizeChars_eq_joined ordinary, solid.trim_eq]
  exact congrArg (fun segments => '/' :: ['/'].intercalate segments) (parts_ungrouped place none)

/-! ## The final index -/

/-- A path without a final segment that stands for its folder. -/
def stem (path : List Char) : List Char :=
  match before? "/index".toList path with
  | some [] => ['/']
  | some parent => parent
  | none => path

/-- The route of a file in steps: the groupings are cut out, the final index is dropped and
the parameters are replaced. -/
theorem ofFile_eq (place : String) :
    ofFile place = String.ofList (normalizeChars (substitute parameter?
      (stem (normalizeChars (substitute group? place.toList))))) := by
  unfold ofFile
  dsimp only
  split
  · next lone =>
    rw [beq_iff_eq.mp lone]
    decide
  · rfl

/-- The stem of joined segments: the last one is dropped if it is `index`.

Proof: behind the last slash stands the last segment, so the path ends in a slash and
`index` exactly when that segment is `index`. -/
theorem stem_joined {segments : List (List Char)} (filled : ∀ segment ∈ segments, segment ≠ [])
    (plain : ∀ segment ∈ segments, '/' ∉ segment) :
    stem ('/' :: ['/'].intercalate segments) =
      '/' :: ['/'].intercalate
        (if segments.getLast? = some "index".toList then segments.dropLast else segments) := by
  have told : parts ('/' :: ['/'].intercalate segments) = segments := by
    rw [parts_cons_slash, parts_intercalate filled plain]
  rcases List.eq_nil_or_concat segments with rfl | ⟨front, last, rfl⟩
  · rfl
  · rw [List.concat_eq_append] at told ⊢
    rw [List.getLast?_concat, List.dropLast_concat]
    by_cases index : last = "index".toList
    · have whole : '/' :: ['/'].intercalate (front ++ [last]) =
          front.flatMap ('/' :: ·) ++ "/index".toList := by
        rw [cons_intercalate '/' (by simp), List.flatMap_append, index]
        rfl
      rw [stem, before?_eq_some_iff.mpr whole, if_pos (congrArg some index)]
      by_cases alone : front = []
      · rw [alone]
        rfl
      · rw [← cons_intercalate '/' alone]
    · have ended : before? "/index".toList ('/' :: ['/'].intercalate (front ++ [last])) = none := by
        have own : parts "index".toList = ["index".toList] :=
          parts_of_plain (by decide) (by decide)
        rw [Option.eq_none_iff_forall_ne_some]
        intro parent found
        rw [before?_eq_some_iff.mp found, show "/index".toList = '/' :: "index".toList from rfl,
          parts_slash, own] at told
        exact index (List.cons.inj (List.append_inj' told rfl).2).1.symm
      rw [stem, ended, if_neg fun same => index (Option.some.inj same)]

/-- The stem of written segments is that of the segments without their index, because no other
segment reads `index`. -/
theorem stem_written (place : List PlaceSegment) :
    stem ('/' :: ['/'].intercalate (place.map written)) =
      '/' :: ['/'].intercalate ((withoutIndex place).map written) := by
  have filled : ∀ text ∈ place.map written, text ≠ [] := by
    simpa using fun segment _ => written_ne_nil segment
  have plain : ∀ text ∈ place.map written, '/' ∉ text := by
    simpa using fun segment _ => not_mem_written segment (by decide) (by decide)
  have last : (place.map written).getLast? = some "index".toList ↔
      place.getLast?.any isIndex = true := by
    rw [List.getLast?_map]
    cases place.getLast? with
    | none => simp
    | some segment => simpa using (isIndex_iff segment).symm
  rw [stem_joined filled plain, withoutIndex]
  simp only [last]
  split
  · rw [List.map_dropLast]
  · rfl

/-! ## Parameters -/

/-- A parameter starts with a square bracket, so none is recognised at another character. -/
theorem parameter?_needs (before : Option Char) (c : Char) (text : List Char) (other : c ≠ '[') :
    parameter? before (c :: text) = none := by
  simp [parameter?, other]

/-- A parameter's name is read up to its closing bracket, which no name holds, and a second
bracket is passed over. -/
theorem parameterName?_append (name : SegmentName) (rest : List Char) :
    parameterName? (name.text ++ ']' :: rest) = some (':' :: name.text, skipMark ']' rest) := by
  have inside : ∀ c ∈ name.text, (c != ']') = true := by
    intro c member
    exact bne_iff_ne.mpr fun same => name.plain ']' (by decide) (same ▸ member)
  rw [parameterName?, run?_append rest inside name.filled (by decide)]

/-- The name of a parameter does not start with three dots, as it does not start with one. So it
is not mistaken for a remainder. -/
theorem literal?_dots (name : ParameterName) (rest : List Char) :
    literal? "..." (name.text ++ rest) = none := by
  obtain ⟨first, letters, spelled⟩ := List.exists_cons_of_ne_nil name.filled
  have other : first ≠ '.' := by
    intro dot
    exact name.undotted (by rw [spelled, dot]; rfl)
  simp [literal?, after?, spelled, Ne.symm other]

/-- A parameter is recognised in each of its spellings and replaced by its name behind a colon,
unless a further bracket follows. -/
theorem parameter?_written (before : Option Char) (kind : ParameterKind) (name : ParameterName)
    {rest : List Char} (unclosed : rest.head? ≠ some ']') :
    parameter? before ((parameter kind name).written ++ rest) =
      some (':' :: name.text, rest) := by
  have skipped : skipMark ']' rest = rest := by
    cases rest with
    | nil => rfl
    | cons c rest => exact if_neg (by simpa using unclosed)
  have read := parameterName?_append name.toSegmentName
  cases kind with
  | single =>
    have undotted := literal?_dots name (']' :: rest)
    obtain ⟨first, letters, spelled⟩ := List.exists_cons_of_ne_nil name.filled
    have bracket : first ≠ '[' := by
      rintro rfl
      exact name.plain '[' (by decide) (spelled ▸ List.mem_cons_self)
    have own := read rest
    rw [spelled, List.cons_append] at undotted own
    simp [parameter?, written, ParameterKind.opening, ParameterKind.closing, spelled, bracket,
      undotted, own, skipped]
  | remainder =>
    simp [parameter?, written, ParameterKind.opening, ParameterKind.closing, literal?, after?, read,
      skipped]
  | optionalRemainder =>
    simp [parameter?, written, ParameterKind.opening, ParameterKind.closing, literal?, after?, read,
      skipMark]

/-- Parameters are replaced segment by segment, and fixed names are kept.

Proof: by induction on the segments, each behind its slash. A slash or the end follows every
segment, so no bracket is taken for one of the segment before. -/
theorem substitute_written {place : List PlaceSegment}
    (shown : ∀ segment ∈ place, segment.isShown = true) (before : Option Char) :
    substituteFrom parameter? 0 before (place.flatMap fun segment => '/' :: segment.written) =
      place.flatMap fun segment => '/' :: segment.translated := by
  induction place generalizing before with
  | nil => rfl
  | cons segment rest inductionHypothesis =>
    obtain ⟨here, behind⟩ := List.forall_mem_cons.mp shown
    have unclosed : (rest.flatMap fun segment => '/' :: segment.written).head? ≠ some ']' := by
      cases rest <;> simp
    have slash : Avoids parameter? ['/']
        (segment.written ++ rest.flatMap fun segment => '/' :: segment.written) :=
      avoids_of_not_mem parameter?_needs (by decide) _
    rw [List.flatMap_cons, List.flatMap_cons, List.cons_append, ← List.singleton_append,
      substituteFrom_append slash]
    cases segment with
    | grouping name => cases here
    | fixed name =>
      have plain := avoids_of_not_mem parameter?_needs (name.plain '[' (by decide))
      rw [written, substituteFrom_append (plain _), inductionHypothesis behind]
      rfl
    | parameter kind name =>
      rw [substituteFrom_hit (parameter?_written _ kind name unclosed) (written_ne_nil _),
        inductionHypothesis behind]
      rfl

/-- The segments of a route are not empty and hold neither slashes nor blanks, so that the normal
form keeps them as they are. -/
theorem translated_spec {segment : PlaceSegment} (shown : segment.isShown = true) :
    segment.translated ≠ [] ∧ '/' ∉ segment.translated ∧ Solid segment.translated := by
  cases segment with
  | grouping name => cases shown
  | fixed name => exact ⟨name.filled, name.plain '/' (by decide), name.solid⟩
  | parameter kind name =>
    refine ⟨List.cons_ne_nil _ _, ?_, List.forall_mem_cons.mpr ⟨by decide, name.solid⟩⟩
    simpa [translated] using name.plain '/' (by decide)

/-- The normal form of written segments with their parameters replaced is the translated segments;
nothing is left for it to change. -/
theorem normalizeChars_translated {place : List PlaceSegment}
    (shown : ∀ segment ∈ place, segment.isShown = true) :
    normalizeChars (substitute parameter? ('/' :: ['/'].intercalate (place.map written))) =
      '/' :: ['/'].intercalate (place.map translated) := by
  have replaced : substitute parameter? ('/' :: ['/'].intercalate (place.map written)) =
      '/' :: ['/'].intercalate (place.map translated) := by
    by_cases alone : place = []
    · rw [alone]
      rfl
    · rw [cons_intercalate '/' (by simpa using alone), cons_intercalate '/' (by simpa using alone),
        List.flatMap_map, List.flatMap_map]
      exact substitute_written shown none
  rw [replaced]
  apply normalizeChars_joined
  all_goals
    simp only [List.forall_mem_map]
    intro segment member
    have facts := translated_spec (shown segment member)
  · exact facts.1
  · exact facts.2.1
  · exact facts.2.2

/-- The route of a file is translated segment by segment, for every place that is made of
groupings, fixed names and parameters: the groupings are dropped, then the last segment that
remains if it is the fixed name `index`, and then fixed names are kept and parameters of
every kind become their names behind a colon. -/
theorem ofFile_translates_segments (place : List PlaceSegment) :
    ofFile (String.ofList (['/'].intercalate (place.map written))) =
      String.ofList ('/' :: ['/'].intercalate
        ((withoutIndex (place.filter isShown)).map translated)) := by
  have shown : ∀ segment ∈ withoutIndex (place.filter isShown), segment.isShown = true := by
    intro segment member
    have listed : segment ∈ place.filter isShown := by
      unfold withoutIndex at member
      split at member
      · exact List.mem_of_mem_dropLast member
      · exact member
    exact (List.mem_filter.mp listed).2
  rw [ofFile_eq, String.toList_ofList, ← placeText, normalizeChars_ungrouped, stem_written,
    normalizeChars_translated shown]

/-- A place with groupings at both ends and beside each other, an inner `index` and a final
one that only a grouping follows. -/
def samplePlace : List PlaceSegment :=
  [.grouping ⟨"shop".toList, by decide, by decide, by decide⟩,
    .parameter .single ⟨⟨"lang".toList, by decide, by decide, by decide⟩, by decide⟩,
    .fixed ⟨"index".toList, by decide, by decide, by decide⟩,
    .grouping ⟨"left".toList, by decide, by decide, by decide⟩,
    .grouping ⟨"right".toList, by decide, by decide, by decide⟩,
    .parameter .optionalRemainder ⟨⟨"v1.path".toList, by decide, by decide, by decide⟩, by decide⟩,
    .fixed ⟨"index".toList, by decide, by decide, by decide⟩,
    .grouping ⟨"end".toList, by decide, by decide, by decide⟩]

/-- The sample is translated to the parameters around the inner `index`: the groupings and the
final `index` are gone. -/
theorem samplePlace_is_translated :
    ofFile "(shop)/[lang]/index/(left)/(right)/[[...v1.path]]/index/(end)" =
      "/:lang/index/:v1.path" := by
  have spelled : String.ofList (['/'].intercalate (samplePlace.map written)) =
      "(shop)/[lang]/index/(left)/(right)/[[...v1.path]]/index/(end)" := by decide
  rw [← spelled, ofFile_translates_segments]
  decide

end ScreenAtlas.Route
