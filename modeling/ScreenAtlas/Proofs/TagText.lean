import ScreenAtlas.Proofs.Search
import ScreenAtlas.Route.Scanner

/-!
# Reading tags out of running text

The text scan takes a tag apart with four tools: it finds the tag's end, blanks
out what stands in braces, searches the rest for an attribute and reads a name.
This module says what each of them does on a text that is put together from
known pieces, with arbitrary text behind it.

The end of a tag is found by passing over its body. A body is a sequence of
quoted runs, brace groups and single characters other than quotes, opening
braces and angle brackets; the scan passes over all of it, and over nothing else.
-/
namespace ScreenAtlas.Route.Tag

open ScreenAtlas.Text

/-- Text inside braces: braces are balanced, and nothing else has a meaning. -/
inductive Balanced : List Char → Prop where
  | nil : Balanced []
  | char (c : Char) (rest : List Char) (opens : c ≠ '\x7b') (closes : c ≠ '\x7d')
      (balanced : Balanced rest) : Balanced (c :: rest)
  | group (inner rest : List Char) (inside : Balanced inner) (balanced : Balanced rest) :
      Balanced ('\x7b' :: inner ++ '\x7d' :: rest)

/-- The body of a tag: quoted runs, brace groups and other single characters. -/
inductive Body : List Char → Prop where
  | nil : Body []
  | char (c : Char) (rest : List Char) (double : c ≠ '"') (single : c ≠ '\'')
      (opens : c ≠ '\x7b') (ends : c ≠ '>') (body : Body rest) : Body (c :: rest)
  | quoted (mark : Char) (inner rest : List Char) (quote : mark = '"' ∨ mark = '\'')
      (unquoted : mark ∉ inner) (body : Body rest) : Body (mark :: inner ++ mark :: rest)
  | group (inner rest : List Char) (inside : Balanced inner) (body : Body rest) :
      Body ('\x7b' :: inner ++ '\x7d' :: rest)

/-- Text without braces is balanced, as each of its characters can be passed over by itself. -/
theorem balanced_of_plain (text : List Char) (opens : '\x7b' ∉ text) (closes : '\x7d' ∉ text) :
    Balanced text := by
  induction text with
  | nil => exact .nil
  | cons c rest inductionHypothesis =>
    simp only [List.mem_cons, not_or] at opens closes
    exact .char c rest (Ne.symm opens.1) (Ne.symm closes.1)
      (inductionHypothesis opens.2 closes.2)

/-- Text without quotes, opening braces and closing brackets is a body, character by character. -/
theorem body_of_plain (text : List Char)
    (plain : '"' ∉ text ∧ '\'' ∉ text ∧ '\x7b' ∉ text ∧ '>' ∉ text) : Body text := by
  induction text with
  | nil => exact .nil
  | cons c rest inductionHypothesis =>
    simp only [List.mem_cons, not_or] at plain
    obtain ⟨double, single, opens, ends⟩ := plain
    exact .char c rest (Ne.symm double.1) (Ne.symm single.1) (Ne.symm opens.1) (Ne.symm ends.1)
      (inductionHypothesis ⟨double.2, single.2, opens.2, ends.2⟩)

/-- Bodies can be put one after the other, since no piece of a body reaches beyond its own end.
The induction is on the first. -/
theorem Body.append {left right : List Char} (first : Body left) (second : Body right) :
    Body (left ++ right) := by
  induction first with
  | nil => exact second
  | char c rest double single opens ends _ inductionHypothesis =>
    exact .char c _ double single opens ends inductionHypothesis
  | quoted mark inner rest quote unquoted _ inductionHypothesis =>
    simpa using Body.quoted mark inner _ quote unquoted inductionHypothesis
  | group inner rest inside _ inductionHypothesis =>
    simpa using Body.group inner _ inside inductionHypothesis

/-- The answer of a scan that starts `passed` characters further on. -/
def later (passed : Nat) (answer : Option (Nat × Bool)) : Option (Nat × Bool) :=
  answer.map fun (length, slash) => (length + passed, slash)

/-- Passing over two pieces one after the other is passing over both together. -/
theorem later_later (first second : Nat) (answer : Option (Nat × Bool)) :
    later first (later second answer) = later (first + second) answer := by
  cases answer with
  | none => rfl
  | some found => simp [later, Nat.add_assoc, Nat.add_comm first second]

/-- A scan that has passed over nothing answers as it is. -/
theorem later_zero (answer : Option (Nat × Bool)) : later 0 answer = answer := by
  cases answer <;> rfl

/-- A character without a meaning at its depth is passed over. Inside braces only braces have one;
outside, quotes and the closing bracket have one as well. -/
theorem closing?_char (depth : Nat) (before : Option Char) (c : Char) (rest : List Char)
    (opens : c ≠ '\x7b') (closes : c ≠ '\x7d')
    (inert : depth = 0 → c ≠ '"' ∧ c ≠ '\'' ∧ c ≠ '>') :
    closing? none depth before (c :: rest) = later 1 (closing? none depth (some c) rest) := by
  cases depth with
  | zero =>
    obtain ⟨double, single, ends⟩ := inert rfl
    simp [closing?, later, double, single, opens, closes, ends]
  | succ depth => simp [closing?, later, opens, closes]

/-- An opening brace leads the scan one level deeper and counts as one character. -/
theorem closing?_open (depth : Nat) (before : Option Char) (rest : List Char) :
    closing? none depth before ('\x7b' :: rest) =
      later 1 (closing? none (depth + 1) (some '\x7b') rest) := by
  simp [closing?, later]

/-- A closing brace leads the scan one level up and counts as one character; at the outermost
level it stays there. -/
theorem closing?_close (depth : Nat) (before : Option Char) (rest : List Char) :
    closing? none depth before ('\x7d' :: rest) =
      later 1 (closing? none (depth - 1) (some '\x7d') rest) := by
  simp [closing?, later]

/-- A quoted run is passed over up to its closing mark, whatever else stands in it. The induction
is on the run. -/
theorem closing?_quoted (mark : Char) (before : Option Char) (inner rest : List Char)
    (unquoted : mark ∉ inner) :
    closing? (some mark) 0 before (inner ++ mark :: rest) =
      later (inner.length + 1) (closing? none 0 (some mark) rest) := by
  induction inner generalizing before with
  | nil => simp [closing?, later]
  | cons c inner inductionHypothesis =>
    simp only [List.mem_cons, not_or] at unquoted
    have other : (c == mark) = false := by simpa using Ne.symm unquoted.1
    have passed := inductionHypothesis (some c) unquoted.2
    simp only [List.cons_append, closing?, other, Bool.false_eq_true, ↓reduceIte, passed]
    exact (later_later 1 (inner.length + 1) _).trans (by rw [List.length_cons, Nat.add_comm])

/-- A brace group is passed over when its inside is, one level deeper. -/
theorem closing?_group {depth : Nat} {inner : List Char}
    (passes : ∀ before rest, closing? none (depth + 1) before (inner ++ rest) =
      later inner.length (closing? none (depth + 1) (lastOr before inner) rest))
    (before : Option Char) (rest : List Char) :
    closing? none depth before ('\x7b' :: (inner ++ '\x7d' :: rest)) =
      later (inner.length + 2) (closing? none depth (some '\x7d') rest) := by
  rw [closing?_open, passes, closing?_close, Nat.add_sub_cancel, later_later, later_later]
  congr 1
  omega

/-- Balanced text inside braces is passed over at its depth, and the scan is as deep behind it as
before. The induction is on how the text is balanced. -/
theorem closing?_balanced {inner : List Char} (balanced : Balanced inner) (depth : Nat)
    (before : Option Char) (rest : List Char) :
    closing? none (depth + 1) before (inner ++ rest) =
      later inner.length (closing? none (depth + 1) (lastOr before inner) rest) := by
  induction balanced generalizing depth before rest with
  | nil => simp [later_zero, lastOr]
  | char c text opens closes _ inductionHypothesis =>
    rw [List.cons_append, closing?_char _ _ _ _ opens closes (by omega), inductionHypothesis,
      later_later, lastOr, List.length_cons, Nat.add_comm]
  | group inner text _ _ inside behind =>
    rw [List.append_assoc, List.cons_append, List.cons_append,
      closing?_group (inside (depth + 1)), behind, later_later]
    simp only [lastOr_append, lastOr, List.length_append, List.length_cons]
    congr 1
    omega

/-- The scan passes over a body, whatever follows it, and comes out at the outermost level. The
induction is on the pieces of the body. -/
theorem closing?_body {body : List Char} (passable : Body body) (before : Option Char)
    (rest : List Char) :
    closing? none 0 before (body ++ rest) =
      later body.length (closing? none 0 (lastOr before body) rest) := by
  induction passable generalizing before rest with
  | nil => simp [later_zero, lastOr]
  | char c text double single opens ends _ inductionHypothesis =>
    by_cases closes : c = '\x7d'
    · rw [List.cons_append, closes, closing?_close, inductionHypothesis, later_later, lastOr,
        List.length_cons, Nat.add_comm]
    · rw [List.cons_append, closing?_char _ _ _ _ opens closes fun _ => ⟨double, single, ends⟩,
        inductionHypothesis, later_later, lastOr, List.length_cons, Nat.add_comm]
  | quoted mark inner text quote unquoted _ inductionHypothesis =>
    have enters : closing? none 0 before (mark :: inner ++ mark :: text ++ rest) =
        later 1 (closing? (some mark) 0 (some mark) (inner ++ mark :: (text ++ rest))) := by
      rcases quote with rfl | rfl <;> simp [closing?, later]
    rw [enters, closing?_quoted mark _ inner _ unquoted, inductionHypothesis, later_later,
      later_later]
    simp only [lastOr_append, lastOr, List.length_append, List.length_cons]
    congr 1
    omega
  | group inner text inside _ inductionHypothesis =>
    rw [List.append_assoc, List.cons_append, List.cons_append,
      closing?_group (closing?_balanced inside 0), inductionHypothesis, later_later]
    simp only [lastOr_append, lastOr, List.length_append, List.length_cons]
    congr 1
    omega

/-- A tag ends behind its body. It closes itself when the body ends in a slash. -/
theorem scan_tag (front : List Char) {body : List Char} (passable : Body body)
    (rest : List Char) :
    scan (front ++ '<' :: body ++ '>' :: rest) front.length =
      (front.length + body.length + 2, lastOr (some '<') body == some '/') := by
  have head : (front ++ '<' :: body ++ '>' :: rest)[front.length]? = some '<' := by simp
  have tail : (front ++ '<' :: body ++ '>' :: rest).drop (front.length + 1) =
      body ++ '>' :: rest := by
    simp [List.drop_append]
  have ends (before : Option Char) :
      closing? none 0 before ('>' :: rest) = some (1, before == some '/') := by
    simp [closing?]
  simp only [scan, head, tail, closing?_body passable, ends, later, Option.map_some]
  congr 1
  omega

/-- Masking keeps the length of a text, so that positions in the masked text are positions in the
text. -/
theorem mask_length (depth : Nat) (text : List Char) : (mask depth text).length = text.length := by
  induction text generalizing depth with
  | nil => rfl
  | cons c text inductionHypothesis =>
    simp only [mask]
    split
    · simp [inductionHypothesis]
    · split <;> simp [inductionHypothesis]

/-- Text without braces stays as it is outside braces, and masking goes on behind it at the same
level. -/
theorem mask_plain (front rest : List Char) (opens : '\x7b' ∉ front) (closes : '\x7d' ∉ front) :
    mask 0 (front ++ rest) = front ++ mask 0 rest := by
  induction front with
  | nil => rfl
  | cons c front inductionHypothesis =>
    simp only [List.mem_cons, not_or] at opens closes
    simp [mask, Ne.symm opens.1, Ne.symm closes.1, inductionHypothesis opens.2 closes.2]

/-- The inside of a brace group without further braces is blanked out, and masking goes on outside
behind it. -/
theorem mask_group (inner rest : List Char) (opens : '\x7b' ∉ inner) (closes : '\x7d' ∉ inner) :
    mask 0 ('\x7b' :: inner ++ '\x7d' :: rest) =
      '\x7b' :: List.replicate inner.length ' ' ++ '\x7d' :: mask 0 rest := by
  have inside : mask 1 (inner ++ '\x7d' :: rest) =
      List.replicate inner.length ' ' ++ '\x7d' :: mask 0 rest := by
    induction inner with
    | nil => simp [mask]
    | cons c inner inductionHypothesis =>
      simp only [List.mem_cons, not_or] at opens closes
      simp [mask, Ne.symm opens.1, Ne.symm closes.1, List.replicate_succ,
        inductionHypothesis opens.2 closes.2]
  simpa [mask] using inside

/-- Masking adds no equals sign: a character stays as it is or becomes a blank. -/
theorem equals_not_mem_mask (depth : Nat) {text : List Char} (absent : '=' ∉ text) :
    '=' ∉ mask depth text := by
  induction text generalizing depth with
  | nil => simp [mask]
  | cons c text inductionHypothesis =>
    simp only [List.mem_cons, not_or] at absent
    simp only [mask]
    split
    · simp [absent.1, inductionHypothesis _ absent.2]
    · split
      · simp [absent.1, inductionHypothesis _ absent.2]
      · split <;> simp [absent.1, inductionHypothesis _ absent.2]

/-- An attribute starts with the first letter of its name, so none is recognised at another
character. -/
theorem attribute?_needs {name : String} {first : Char} {letters : List Char}
    (spelled : name.toList = first :: letters) (before : Option Char) (c : Char)
    (text : List Char) (other : c ≠ first) : attribute? name before (c :: text) = none := by
  simp [attribute?, literal?, spelled, after?, Ne.symm other]

/-- An attribute is recognised where its name stands by itself before an equals sign, and the
blanks behind the sign are skipped. -/
theorem attribute?_accepts {name : String} {before : Option Char}
    (boundary : outsideWord before = true) (value : List Char) :
    attribute? name before (name.toList ++ '=' :: value) = some ((), skipBlanks value) := by
  have solid : isBlank '=' = false := by decide
  simp [attribute?, boundary, literal?, after?_append, skipBlanks_cons solid]

/-- An attribute is not recognised when a character that is neither blank nor in
its name stands before the next equals sign. -/
theorem attribute?_barred (name : String) {bar : Char} (before : Option Char)
    (front rest : List Char) (absent : '=' ∉ front) (other : bar ∉ name.toList)
    (equals : bar ≠ '=') (solid : isBlank bar = false) :
    attribute? name before (front ++ bar :: rest) = none := by
  have inside : ∀ word behind, bar ∉ word → after? word (front ++ bar :: rest) = some behind →
      ∃ left, behind = left ++ bar :: rest ∧ left <:+ front := by
    intro word behind outside found
    have split := eq_append_of_after? found
    rcases List.append_eq_append_iff.mp split with
      ⟨left, reached, behindBar⟩ | ⟨left, reached, shown⟩
    · cases left with
      | nil => exact ⟨[], by simpa using behindBar.symm, List.nil_suffix⟩
      | cons d left =>
        have same : bar = d := (List.cons.inj behindBar).1
        exact absurd (by simp [reached, same]) outside
    · exact ⟨left, shown, ⟨word, reached.symm⟩⟩
  unfold attribute?
  split
  · cases found : literal? name (front ++ bar :: rest) with
    | none => rfl
    | some behind =>
      obtain ⟨left, rfl, suffix⟩ := inside _ _ other found
      simp only [Option.bind_eq_bind, Option.bind_some, skipBlanks_append solid]
      cases skipped : skipBlanks left with
      | nil => simp [equals]
      | cons d tail =>
        have member : d ∈ front := by
          apply suffix.subset
          apply (List.dropWhile_suffix isBlank (l := left)).subset
          rw [← skipBlanks, skipped]
          exact List.mem_cons_self
        have unequal : d ≠ '=' := fun same => absent (same ▸ member)
        simp [unequal]
  · rfl

/-- A piece that ends in a character which is neither blank nor in the name, and has no equals
sign before it, holds no attribute of this name. -/
theorem avoids_barred {name : String} {bar : Char} {front : List Char} (rest : List Char)
    (absent : '=' ∉ front) (other : bar ∉ name.toList) (equals : bar ≠ '=')
    (solid : isBlank bar = false) : Avoids (attribute? name) (front ++ [bar]) rest := by
  induction front with
  | nil =>
    exact ⟨fun before => attribute?_barred name before [] rest absent other equals solid, trivial⟩
  | cons c front inductionHypothesis =>
    refine ⟨fun before => ?_, inductionHypothesis fun member =>
      absent (List.mem_cons_of_mem c member)⟩
    simpa using attribute?_barred name before (c :: front) rest absent other equals solid

/-- A text without an equals sign holds no attribute, because each attribute needs one behind its
name. -/
theorem avoids_of_no_equals (name : String) {text : List Char} (absent : '=' ∉ text) :
    Avoids (attribute? name) text [] := by
  have refused : ∀ before text, '=' ∉ text → attribute? name before text = none := by
    intro before text absent
    unfold attribute?
    split
    · cases found : literal? name text with
      | none => rfl
      | some behind =>
        have split := eq_append_of_after? found
        simp only [Option.bind_eq_bind, Option.bind_some]
        split
        · next rest skipped =>
          have member : '=' ∈ behind := by
            apply (List.dropWhile_suffix isBlank (l := behind)).subset
            rw [← skipBlanks, skipped]
            exact List.mem_cons_self
          exact absurd (by simp [split, member]) absent
        · rfl
    · rfl
  induction text with
  | nil => trivial
  | cons c text inductionHypothesis =>
    refine ⟨fun before => refused before _ (by simpa using absent), ?_⟩
    exact inductionHypothesis fun member => absent (List.mem_cons_of_mem c member)

/-- A tag without an equals sign has no attribute of any name, as masking does not add one. -/
theorem attributeValue?_of_no_equals (name : String) {tag : List Char} (absent : '=' ∉ tag) :
    attributeValue? name tag = none := by
  simp [attributeValue?, first?_eq_none (avoids_of_no_equals name (equals_not_mem_mask 0 absent))]

/-- The value of an attribute is what follows its equals sign, when the masked
text before it holds no such attribute. -/
theorem attributeValue?_found {name : String} {letters front masked value : List Char}
    (spelled : name.toList = letters)
    (shown : mask 0 (front ++ (letters ++ '=' :: value)) =
      masked ++ (letters ++ '=' :: mask 0 value))
    (avoided : Avoids (attribute? name) masked (letters ++ '=' :: mask 0 value))
    (boundary : outsideWord (lastOr none masked) = true)
    (solid : skipBlanks (mask 0 value) = mask 0 value) :
    attributeValue? name (front ++ (letters ++ '=' :: value)) = some value := by
  subst spelled
  have hit := first?_append avoided (attribute?_accepts boundary (mask 0 value)) (by simp)
  have long : masked.length = front.length := by
    have lengths := congrArg List.length shown
    simp only [mask_length, List.length_append, List.length_cons] at lengths
    omega
  have stop : (Hit.stop ⟨masked.length, (name.toList ++ '=' :: mask 0 value).length -
      (skipBlanks (mask 0 value)).length, ()⟩ : Nat) = front.length + (name.toList.length + 1) := by
    simp only [Hit.stop, solid, List.length_append, List.length_cons, long]
    omega
  rw [attributeValue?, shown, hit, Option.map_some, stop, ← List.drop_drop, List.drop_left,
    ← List.drop_drop, List.drop_left]
  rfl

/-- A quoted value gives the text between its marks, if the mark does not occur in it. -/
theorem attributeText?_quoted {mark : Char} {path : List Char} (rest : List Char)
    (quote : isQuote mark = true) (unquoted : mark ∉ path) :
    attributeText? (mark :: path ++ mark :: rest) = some path := by
  have brace : mark ≠ '\x7b' := by
    rintro rfl
    simp [isQuote] at quote
  have stops : (path ++ mark :: rest).takeWhile (· != mark) = path := by
    rw [List.takeWhile_append_of_pos]
    · simp
    · intro c member
      simpa using fun same : c = mark => unquoted (same ▸ member)
  simp [attributeText?, brace, quote, stops]

/-- A quoted value in braces gives the text between its marks as well; the brace in front is
passed over. -/
theorem attributeText?_braced {mark : Char} {path : List Char} (rest : List Char)
    (quote : isQuote mark = true) (unquoted : mark ∉ path) :
    attributeText? ('\x7b' :: mark :: path ++ mark :: rest) = some path := by
  have solid : isBlank mark = false := by
    simp only [isQuote, Bool.or_eq_true, beq_iff_eq] at quote
    rcases quote with (rfl | rfl) | rfl <;> decide
  have plain := attributeText?_quoted rest quote unquoted
  have brace : mark ≠ '\x7b' := by
    rintro rfl
    simp [isQuote] at quote
  simpa [attributeText?, brace, skipBlanks_cons solid] using plain

/-- A name is read up to the first character that cannot continue it, so the text behind does not
change what is read. -/
theorem dottedName?_append {front : List Char} {stop : Char} (rest : List Char)
    (present : front ≠ []) (ends : (isWord stop || stop == '.' || stop == '$') = false) :
    (dottedName? (front ++ stop :: rest)).map (·.1) = (dottedName? front).map (·.1) := by
  cases front with
  | nil => exact absurd rfl present
  | cons c front =>
    have stops : (front ++ stop :: rest).takeWhile
          (fun c => isWord c || c == '.' || c == '$') =
        front.takeWhile (fun c => isWord c || c == '.' || c == '$') := by
      induction front with
      | nil => simp [ends]
      | cons d front inductionHypothesis =>
        simp only [List.cons_append, List.takeWhile_cons]
        split
        · rw [inductionHypothesis (by simp)]
        · rfl
    by_cases starts : startsName c = true
    · simp [dottedName?, nameOf?, starts, stops]
    · simp [dottedName?, nameOf?, starts]

/-- The name of an element starts with an angle bracket, so none is recognised at another
character. -/
theorem name?_needs (before : Option Char) (c : Char) (text : List Char) (other : c ≠ '<') :
    name? before (c :: text) = none := by
  unfold name?
  split
  · next rest same => exact absurd (List.cons.inj same).1 other
  · rfl

end ScreenAtlas.Route.Tag
