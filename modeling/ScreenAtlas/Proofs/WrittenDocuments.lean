import ScreenAtlas.Proofs.ReaderAllowance
import ScreenAtlas.Proofs.WrittenText

/-!
# Reading back written documents

A document holds its value: read again, it is the value it was written for. What can be
written this way is every value whose objects name each member once and whose whole
numbers are not longer than a reader bears.

The reader spends one unit of fuel per call. Here the length of what is written for a value
is enough for it, which is less than the reader allows itself.
-/
namespace ScreenAtlas.Json

mutual

/-- Every object names each of its members once, and no whole number is too long to be
read. -/
def isWritable : Json → Bool
  | .int value => Double.digitCount value.natAbs ≤ Numeral.digitLimit
  | .list items => areWritable items
  | .object members => decide (members.map Prod.fst).Nodup && membersWritable members
  | _ => true

/-- All items of a list can be written. -/
def areWritable : List Json → Bool
  | [] => true
  | item :: items => item.isWritable && areWritable items

/-- The values of all members of an object can be written. -/
def membersWritable : List (String × Json) → Bool
  | [] => true
  | (_, value) :: members => value.isWritable && membersWritable members

end

mutual

/-- A value that can be written has no whole number with too many digits, so the writer does not
refuse it. The recursion is that of values, with lists and objects beside it. -/
theorem isPrintable_of_isWritable :
    ∀ value : Json, value.isWritable = true → value.isPrintable = true
  | .null, _ | .bool _, _ | .double _, _ | .text _, _ => rfl
  | .int _, writable => writable
  | .list items, writable => arePrintable_of_areWritable items writable
  | .object members, writable => by
    rw [isWritable, Bool.and_eq_true] at writable
    exact membersPrintable_of_membersWritable members writable.2

/-- The items of a list that can be written are not refused by the writer, each for itself. -/
theorem arePrintable_of_areWritable :
    ∀ items : List Json, areWritable items = true → arePrintable items = true
  | [], _ => rfl
  | item :: items, writable => by
    rw [areWritable, Bool.and_eq_true] at writable
    rw [arePrintable, isPrintable_of_isWritable item writable.1,
      arePrintable_of_areWritable items writable.2]
    rfl

/-- The members of an object that can be written are not refused by the writer; their names do not
matter here. -/
theorem membersPrintable_of_membersWritable :
    ∀ members : List (String × Json), membersWritable members = true →
      membersPrintable members = true
  | [], _ => rfl
  | (_, value) :: members, writable => by
    rw [membersWritable, Bool.and_eq_true] at writable
    rw [membersPrintable, isPrintable_of_isWritable value writable.1,
      membersPrintable_of_membersWritable members writable.2]
    rfl

end

/-- What is written for a value is read as the value, up to what ends it. -/
def Reads (level : Nat) (value : Json) : Prop :=
  ∀ fuel rest, (writeIndented level value).length ≤ fuel → Delimited rest →
    readValue fuel (writeIndented level value ++ rest) = .ok (value, rest)

/-- A line break and its indentation are skipped, whatever the level, since both are gaps. -/
theorem skipGap_newLine (level : Nat) (rest : List Char) :
    skipGap (newLine level ++ rest) = skipGap rest := by
  rw [skipGap, newLine, List.dropWhile_append_of_pos]
  · rfl
  · intro c member
    rcases List.mem_cons.mp member with rfl | space
    · rfl
    · rw [List.eq_of_mem_replicate space]
      rfl

/-- Nothing is skipped in front of a character that is no gap. -/
theorem skipGap_cons {c : Char} (solid : isGap c = false) (rest : List Char) :
    skipGap (c :: rest) = c :: rest := by
  rw [skipGap, List.dropWhile_cons_of_neg (by simp [solid])]

/-- A mark that is no gap is found behind a line break and its indentation, as the closing marks
of lists and objects are. -/
theorem skipGap_newLine_cons (level : Nat) {c : Char} (solid : isGap c = false)
    (rest : List Char) : skipGap (newLine level ++ c :: rest) = c :: rest := by
  rw [skipGap_newLine, skipGap_cons solid]

/-- A line break ends the number in front of it, whatever follows its indentation. -/
theorem delimited_newLine (level : Nat) (rest : List Char) : Delimited (newLine level ++ rest) := by
  intro c first
  cases first
  exact .inr rfl

/-- The characters with which words and numbers start. -/
def startsScalar (c : Char) : Bool := c.isDigit || ['n', 't', 'f', 'N', 'I', '-'].contains c

/-- Text that starts with another character than words and numbers do is not read as one of them.
-/
theorem readScalar_refused {c : Char} (other : startsScalar c = false) (rest : List Char) :
    readScalar (c :: rest) = .error .malformed := by
  simp only [startsScalar, Bool.or_eq_false_iff, List.contains_cons, List.contains_nil] at other
  obtain ⟨noDigit, n, t, f, nan, infinity, minus, -⟩ := other
  have apart {word : Char} (differs : (c == word) = false) : (word == c) = false := by
    rw [beq_eq_false_iff_ne] at differs ⊢
    exact differs.symm
  have wordless : Wordless (c :: rest) := by
    simp [Wordless, keywords, Text.after?, apart n, apart t, apart f, apart nan, apart infinity,
      apart minus]
  have unsigned : ¬ (c :: rest).head? = some '-' := by
    simpa using minus
  have nothing : wholePart (c :: rest) = [] := by
    unfold wholePart
    split
    · rename_i begins
      cases begins
      cases noDigit
    · rw [List.takeWhile_cons_of_neg (by simp [noDigit])]
  rw [wordless.readScalar_eq, if_neg unsigned, readNumber_eq, nothing]
  rfl

/-- What is read as a value starts with a character that is no gap and no closing mark. The reader
would skip the one and take the other for an end. -/
theorem starts_of_readValue {fuel : Nat} {source : List Char} {found : Json × List Char}
    (read : readValue fuel source = .ok found) :
    ∃ c rest, source = c :: rest ∧ isGap c = false ∧ c ≠ ']' ∧ c ≠ '\x7d' := by
  cases fuel with
  | zero => cases read
  | succ fuel =>
    cases source with
    | nil => cases read
    | cons c rest =>
      refine ⟨c, rest, rfl, ?_⟩
      by_cases other : isGap c = true ∨ c = ']' ∨ c = '\x7d'
      · have unknown : readValue (fuel + 1) (c :: rest) = readScalar (c :: rest) ∧
            startsScalar c = false := by
          simp only [isGap, Bool.or_eq_true, beq_iff_eq, or_assoc] at other
          rcases other with rfl | rfl | rfl | rfl | rfl | rfl <;> exact ⟨rfl, rfl⟩
        rw [unknown.1, readScalar_refused unknown.2] at read
        cases read
      · simpa [not_or] using other

/-- What is written for a value that is read back starts with a character that is no gap and no
closing mark, because it is read as a value. -/
theorem Reads.starts {level : Nat} {value : Json} (reads : Reads level value) :
    ∃ c rest, writeIndented level value = c :: rest ∧ isGap c = false ∧ c ≠ ']' ∧ c ≠ '\x7d' := by
  have read := reads (writeIndented level value).length [] le_rfl (fun _ first => by cases first)
  rw [List.append_nil] at read
  exact starts_of_readValue read

/-- No gap is skipped in front of what is written for a value that is read back. -/
theorem Reads.skipGap_append {level : Nat} {value : Json} (reads : Reads level value)
    (rest : List Char) :
    skipGap (writeIndented level value ++ rest) = writeIndented level value ++ rest := by
  obtain ⟨c, behind, written, solid, -, -⟩ := reads.starts
  rw [written, List.cons_append, skipGap_cons solid]

/-- What is read as a word or a number is read as a value. Texts, lists and objects start with
marks that no scalar starts with. -/
theorem readValue_scalar {fuel : Nat} {source : List Char} {found : Json × List Char}
    (read : readScalar source = .ok found) : readValue (fuel + 1) source = .ok found := by
  unfold readValue
  split
  · rw [readScalar_refused rfl] at read
    cases read
  · rw [readScalar_refused rfl] at read
    cases read
  · rw [readScalar_refused rfl] at read
    cases read
  · exact read

/-- Every character of a text is written with at least one, so the reader of texts has enough fuel
for what is left. -/
theorem length_le_written (text : List Char) : text.length ≤ (text.flatMap writeChar).length := by
  have some (c : Char) : 0 < (writeChar c).length := by
    rw [List.length_pos_iff]
    intro none
    have reads := readText?_writeChar 0 [] ['"'] c
    rw [none] at reads
    cases reads
  induction text with
  | nil => exact le_rfl
  | cons c text inductionHypothesis =>
    rw [List.flatMap_cons, List.length_append, List.length_cons]
    have := some c
    omega

/-- A written text is read back as itself behind its opening mark, whatever follows the closing
one. -/
theorem readText?_writeText (content : String) (rest : List Char) :
    ∃ behind, writeText content ++ rest = '"' :: behind ∧
      readText? (behind.length + 1) [] behind = some (content.toList, rest) := by
  refine ⟨content.toList.flatMap writeChar ++ '"' :: rest, by simp [writeText], ?_⟩
  have long := length_le_written content.toList
  rw [readText?_written content.toList (by rw [List.length_append]; omega)]
  rfl

/-- The items of a list are read, one after the other.

Proof: by induction on the items behind the first. Each call reads one item and stands
behind the comma or the bracket that ends it. -/
theorem readItems_written (outer : Nat) {level : Nat} {items : List Json} {item : Json}
    (first : Reads level item) (others : ∀ other ∈ items, Reads level other) {fuel : Nat}
    (enough : (writeIndented level item ++ writeItems level items).length < fuel)
    (read : List Json) (rest : List Char) :
    readItems fuel read
        (writeIndented level item ++ (writeItems level items ++ (newLine outer ++ ']' :: rest))) =
      .ok (.list (read.reverse ++ item :: items), rest) := by
  induction items generalizing item fuel read with
  | nil =>
    obtain ⟨fuel, rfl⟩ : ∃ less, fuel = less + 1 := ⟨fuel - 1, by omega⟩
    rw [writeItems, List.append_nil] at enough
    have reads := first fuel (newLine outer ++ ']' :: rest) (by omega) (delimited_newLine _ _)
    simp [readItems, writeItems, reads, bind, Except.bind, skipGap_newLine_cons, isGap]
  | cons next items inductionHypothesis =>
    obtain ⟨fuel, rfl⟩ : ∃ less, fuel = less + 1 := ⟨fuel - 1, by omega⟩
    have following := others next List.mem_cons_self
    have split (rest : List Char) : writeItems level (next :: items) ++ rest =
        ',' :: (newLine level ++
          (writeIndented level next ++ (writeItems level items ++ rest))) := by
      simp [writeItems]
    rw [← List.append_nil (writeItems level (next :: items)), split] at enough
    simp only [List.length_append, List.length_cons, List.length_nil] at enough
    have reads := first fuel (writeItems level (next :: items) ++ (newLine outer ++ ']' :: rest))
      (by omega) (by rw [split]; rintro c ⟨⟩; exact .inl rfl)
    have later := inductionHypothesis following
      (fun other member => others other (List.mem_cons_of_mem _ member))
      (show (writeIndented level next ++ writeItems level items).length < fuel by
        rw [List.length_append]
        omega)
      (item :: read)
    have comma (rest : List Char) : skipGap (',' :: rest) = ',' :: rest := skipGap_cons rfl rest
    rw [split] at reads ⊢
    simp only [readItems, reads, bind, Except.bind, comma, skipGap_newLine,
      following.skipGap_append, later]
    simp

/-- A name that occurs once among members does not occur among those before it, so reading it adds
a member. -/
theorem not_mem_of_once {read members : Members} {name : String} {value : Json}
    (once : ((read ++ (name, value) :: members).map Prod.fst).Nodup) :
    name ∉ read.map Prod.fst := by
  rw [List.map_append, List.map_cons, List.nodup_append] at once
  intro known
  exact once.2.2 name known name List.mem_cons_self rfl

/-- What is read behind a member: another one, or the end of the object. -/
def readBehind (fuel : Nat) (members : Members) : List Char → Except ReadError (Json × List Char)
  | ',' :: rest => readMembers fuel members (skipGap rest)
  | '\x7d' :: rest => .ok (.object members, rest)
  | _ => .error .malformed

/-- One member with a new name is read, up to what ends its value. The reader then goes on behind
it, with the member added to those that it has. -/
theorem readMembers_member {level fuel : Nat} {read : Members} {name : String} {value : Json}
    {rest : List Char} (reads : Reads level value)
    (enough : (writeIndented level value).length ≤ fuel) (fresh : name ∉ read.map Prod.fst)
    (delimited : Delimited rest) :
    readMembers (fuel + 1) read
        (writeText name ++ ':' :: ' ' :: (writeIndented level value ++ rest)) =
      readBehind fuel (read ++ [(name, value)]) (skipGap rest) := by
  obtain ⟨behind, quoted, named⟩ :=
    readText?_writeText name (':' :: ' ' :: (writeIndented level value ++ rest))
  have colon (rest : List Char) : skipGap (':' :: rest) = ':' :: rest := skipGap_cons rfl rest
  have space (rest : List Char) : skipGap (' ' :: rest) = skipGap rest := rfl
  simp only [quoted, readMembers, named, colon, space, reads.skipGap_append,
    reads fuel rest enough delimited, bind, Except.bind, String.ofList_toList,
    Entries.put_new value fresh]
  rfl

/-- The members of an object are read one after the other, if every name occurs once. The
induction is on the members behind the first, as for the items of a list. -/
theorem readMembers_written (outer : Nat) {level : Nat} {members : Members} {name : String}
    {value : Json} (first : Reads level value) (others : ∀ other ∈ members, Reads level other.2)
    {fuel : Nat}
    (enough : (writeIndented level value ++ writeMembers level members).length < fuel)
    (read : Members) (once : ((read ++ (name, value) :: members).map Prod.fst).Nodup)
    (rest : List Char) :
    readMembers fuel read
        (writeText name ++ ':' :: ' ' :: (writeIndented level value ++
          (writeMembers level members ++ (newLine outer ++ '\x7d' :: rest)))) =
      .ok (.object (read ++ (name, value) :: members), rest) := by
  induction members generalizing name value fuel read with
  | nil =>
    obtain ⟨fuel, rfl⟩ : ∃ less, fuel = less + 1 := ⟨fuel - 1, by omega⟩
    rw [writeMembers, List.append_nil] at enough
    rw [writeMembers, List.nil_append, readMembers_member first (by omega)
      (not_mem_of_once once) (delimited_newLine _ _), skipGap_newLine_cons outer (by rfl)]
    rfl
  | cons next members inductionHypothesis =>
    obtain ⟨fuel, rfl⟩ : ∃ less, fuel = less + 1 := ⟨fuel - 1, by omega⟩
    have following := others next List.mem_cons_self
    have split (rest : List Char) : writeMembers level (next :: members) ++ rest =
        ',' :: (newLine level ++ (writeText next.1 ++ ':' :: ' ' ::
          (writeIndented level next.2 ++ (writeMembers level members ++ rest)))) := by
      simp [writeMembers]
    rw [← List.append_nil (writeMembers level (next :: members)), split] at enough
    simp only [List.length_append, List.length_cons, List.length_nil] at enough
    have later := inductionHypothesis following
      (fun other member => others other (List.mem_cons_of_mem _ member))
      (show (writeIndented level next.2 ++ writeMembers level members).length < fuel by
        rw [List.length_append]
        omega)
      (read ++ [(name, value)]) (by simpa using once)
    have comma (rest : List Char) : skipGap (',' :: rest) = ',' :: rest := skipGap_cons rfl rest
    have quote (rest : List Char) :
        skipGap (writeText next.1 ++ rest) = writeText next.1 ++ rest := skipGap_cons rfl _
    rw [readMembers_member first (by omega) (not_mem_of_once once)
      (by rw [split]; rintro c ⟨⟩; exact .inl rfl), split, comma]
    simp only [readBehind, skipGap_newLine, quote, later, List.append_assoc,
      List.singleton_append]

namespace Reads

variable {level : Nat}

/-- A value that is written as a word or a number is read back as soon as the reader of scalars
reads it back. -/
theorem of_scalar {value : Json} (scalar : ∀ rest, Delimited rest →
      readScalar (writeIndented level value ++ rest) = .ok (value, rest)) : Reads level value := by
  intro fuel rest enough delimited
  cases fuel with
  | zero =>
    have read := scalar [] (fun _ first => by cases first)
    rw [List.length_eq_zero_iff.mp (Nat.le_zero.mp enough)] at read
    cases read
  | succ fuel => exact readValue_scalar (scalar rest delimited)

/-- The words are read back, and so are the numbers that are written as words: each is found in
the table under its own text. -/
theorem of_mem_keywords (word : String) {value : Json} (known : (word, value) ∈ keywords)
    (written : writeIndented level value = word.toList) : Reads level value := by
  apply of_scalar
  intro rest _
  rw [written]
  simp only [keywords, List.mem_cons, List.not_mem_nil, or_false, Prod.mk.injEq] at known
  rcases known with ⟨rfl, rfl⟩ | ⟨rfl, rfl⟩ | ⟨rfl, rfl⟩ | ⟨rfl, rfl⟩ | ⟨rfl, rfl⟩ | ⟨rfl, rfl⟩ <;>
    simp [readScalar, keywords, Text.after?]

/-- Whole numbers that are not too long are read back as whole numbers. -/
theorem int {value : Int} (bearable : Double.digitCount value.natAbs ≤ Numeral.digitLimit) :
    Reads level (.int value) :=
  of_scalar fun _ delimited => readScalar_int bearable delimited

/-- All doubles are read back, the infinite ones and the one that is no number by their words. -/
theorem double (value : Double) : Reads level (.double value) := by
  cases value with
  | finite negative place =>
    apply of_scalar
    intro rest delimited
    have written : writeIndented level (.double (.finite negative place)) =
        signed negative (Double.magnitudeText place) := by
      rw [writeIndented, Double.render, String.toList_ofList]
      rfl
    rw [written]
    exact readScalar_finite negative place delimited
  | infinite negative =>
    cases negative with
    | false => exact of_mem_keywords "Infinity" (by simp [keywords]) rfl
    | true => exact of_mem_keywords "-Infinity" (by simp [keywords]) rfl
  | notANumber => exact of_mem_keywords "NaN" (by simp [keywords]) rfl

/-- All texts are read back, whatever characters they hold, since the writer escapes what the
reader would not take as it is. -/
theorem text (content : String) : Reads level (.text content) := by
  intro fuel rest enough _
  obtain ⟨behind, quoted, named⟩ := readText?_writeText content rest
  obtain ⟨fuel, rfl⟩ : ∃ less, fuel = less + 1 := by
    refine ⟨fuel - 1, ?_⟩
    simp only [writeIndented, writeText, List.length_cons] at enough
    omega
  simp only [writeIndented, quoted, readValue, named, String.ofList_toList]

/-- A list is read back if all its items are, one level deeper. An empty list is written without a
line break. -/
theorem list {items : List Json} (reads : ∀ item ∈ items, Reads (level + 1) item) :
    Reads level (.list items) := by
  intro fuel rest enough _
  cases items with
  | nil =>
    obtain ⟨fuel, rfl⟩ : ∃ less, fuel = less + 1 :=
      ⟨fuel - 1, by simp only [writeIndented, List.length_cons] at enough; omega⟩
    have closed : skipGap (']' :: rest) = ']' :: rest := skipGap_cons rfl rest
    simp only [writeIndented, List.cons_append, List.nil_append, readValue, closed]
  | cons item items =>
    have first := reads item List.mem_cons_self
    obtain ⟨c, behind, begins, -, opened, -⟩ := first.starts
    have written : writeIndented level (.list (item :: items)) ++ rest =
        '[' :: (newLine (level + 1) ++ (writeIndented (level + 1) item ++
          (writeItems (level + 1) items ++ (newLine level ++ ']' :: rest)))) := by
      simp [writeIndented]
    simp only [writeIndented, newLine, List.length_append, List.length_cons] at enough
    obtain ⟨fuel, rfl⟩ : ∃ less, fuel = less + 1 := ⟨fuel - 1, by omega⟩
    have later := readItems_written level first
      (fun other member => reads other (List.mem_cons_of_mem _ member))
      (show (writeIndented (level + 1) item ++ writeItems (level + 1) items).length < fuel by
        rw [List.length_append]
        omega)
      [] rest
    rw [written, readValue]
    simp only [skipGap_newLine, first.skipGap_append]
    split
    · rename_i rest closed
      rw [begins] at closed
      injection closed with same
      exact absurd same opened
    · exact later

/-- An object is read back if its names are distinct and the values of its members are read back,
one level deeper. -/
theorem object {members : Members} (once : (members.map Prod.fst).Nodup)
    (reads : ∀ member ∈ members, Reads (level + 1) member.2) : Reads level (.object members) := by
  intro fuel rest enough _
  cases members with
  | nil =>
    obtain ⟨fuel, rfl⟩ : ∃ less, fuel = less + 1 :=
      ⟨fuel - 1, by simp only [writeIndented, List.length_cons] at enough; omega⟩
    have closed : skipGap ('\x7d' :: rest) = '\x7d' :: rest := skipGap_cons rfl rest
    simp only [writeIndented, List.cons_append, List.nil_append, readValue, closed]
  | cons member members =>
    have first := reads member List.mem_cons_self
    have written : writeIndented level (.object (member :: members)) ++ rest =
        '\x7b' :: (newLine (level + 1) ++ (writeText member.1 ++ ':' :: ' ' ::
          (writeIndented (level + 1) member.2 ++
            (writeMembers (level + 1) members ++ (newLine level ++ '\x7d' :: rest))))) := by
      simp [writeIndented]
    simp only [writeIndented, newLine, List.length_append, List.length_cons] at enough
    obtain ⟨fuel, rfl⟩ : ∃ less, fuel = less + 1 := ⟨fuel - 1, by omega⟩
    have later := readMembers_written level first
      (fun other member => reads other (List.mem_cons_of_mem _ member))
      (show (writeIndented (level + 1) member.2 ++
          writeMembers (level + 1) members).length < fuel by
        rw [List.length_append]
        omega)
      [] once rest
    have quote (rest : List Char) :
        skipGap (writeText member.1 ++ rest) = writeText member.1 ++ rest := skipGap_cons rfl _
    rw [written, readValue]
    simp only [skipGap_newLine, quote]
    exact later

end Reads

mutual

/-- Every value that can be written is read back at every level of indentation. The recursion is
that of values. -/
theorem reads_of_isWritable (level : Nat) :
    ∀ value : Json, value.isWritable = true → Reads level value
  | .null, _ => .of_mem_keywords "null" (by simp [keywords]) rfl
  | .bool false, _ => .of_mem_keywords "false" (by simp [keywords]) rfl
  | .bool true, _ => .of_mem_keywords "true" (by simp [keywords]) rfl
  | .int _, writable => .int (by simpa [isWritable] using writable)
  | .double value, _ => .double value
  | .text content, _ => .text content
  | .list items, writable => .list (reads_of_areWritable (level + 1) items writable)
  | .object members, writable => by
    simp only [isWritable, Bool.and_eq_true, decide_eq_true_eq] at writable
    exact .object writable.1 (reads_of_membersWritable (level + 1) members writable.2)

/-- Every item of a list that can be written is read back at the level of the items. -/
theorem reads_of_areWritable (level : Nat) :
    ∀ items : List Json, areWritable items = true → ∀ item ∈ items, Reads level item
  | [], _ => fun _ member => absurd member List.not_mem_nil
  | item :: items, writable => by
    simp only [areWritable, Bool.and_eq_true] at writable
    exact List.forall_mem_cons.mpr
      ⟨reads_of_isWritable level item writable.1, reads_of_areWritable level items writable.2⟩

/-- The value of every member of an object that can be written is read back at the level of the
members. -/
theorem reads_of_membersWritable (level : Nat) :
    ∀ members : List (String × Json), membersWritable members = true →
      ∀ member ∈ members, Reads level member.2
  | [], _ => fun _ member => absurd member List.not_mem_nil
  | (name, value) :: members, writable => by
    simp only [membersWritable, Bool.and_eq_true] at writable
    exact List.forall_mem_cons.mpr
      ⟨reads_of_isWritable level value writable.1,
        reads_of_membersWritable level members writable.2⟩

end

/-- A document is read as the value it was written for, if the value can be written. What the
reader allows itself is always enough. -/
theorem read_document {value : Json} (writable : value.isWritable = true) :
    read (document value) = .ok value := by
  have enough : (writeIndented 0 value).length ≤ allowance (writeIndented 0 value) := by
    rw [allowance]
    omega
  have reads := reads_of_isWritable 0 value writable (allowance (writeIndented 0 value)) [] enough
    (fun _ first => by cases first)
  rw [List.append_nil] at reads
  obtain ⟨c, rest, begins, solid, -, -⟩ := starts_of_readValue reads
  have whole : skipGap (writeIndented 0 value) = writeIndented 0 value := by
    rw [begins, skipGap_cons solid]
  rw [document, read_eq_of_allowance le_rfl, String.toList_ofList, whole, reads]
  rfl

/-- The text holds no carriage return. -/
def Unbroken (text : List Char) : Prop := '\r' ∉ text

/-- The empty text holds no carriage return. -/
@[simp] theorem unbroken_nil : Unbroken [] := List.not_mem_nil

/-- A text holds no carriage return exactly when neither its first character is one nor the rest
holds one. -/
@[simp] theorem unbroken_cons (c : Char) (text : List Char) :
    Unbroken (c :: text) ↔ '\r' ≠ c ∧ Unbroken text := by
  simp [Unbroken]

/-- A text of two parts holds no carriage return exactly when neither part does. -/
@[simp] theorem unbroken_append (front back : List Char) :
    Unbroken (front ++ back) ↔ Unbroken front ∧ Unbroken back := by
  simp [Unbroken]

/-- A unit is written in figures and letters behind its mark, none of which is a carriage return.
-/
theorem unbroken_writeUnit {unit : Nat} (small : unit < 0x10000) : Unbroken (writeUnit unit) := by
  have every : ∀ figure : Fin 16, '\r' ≠ figure.val.digitChar := by decide
  have figure (value : Nat) (least : value < 16) : '\r' ≠ value.digitChar := every ⟨value, least⟩
  rw [writeUnit, hexadecimal_unit small]
  simp only [unbroken_cons, unbroken_nil, and_true]
  exact ⟨by decide, by decide, figure _ (by omega), figure _ (by omega), figure _ (by omega),
    figure _ (by omega)⟩

/-- A character is never written with a carriage return: the carriage return itself is escaped. -/
theorem unbroken_writeChar (c : Char) : Unbroken (writeChar c) := by
  have range := toNat_range c
  unfold writeChar
  by_cases back : c = '\r'
  · subst back
    simp
  · repeat' split
    any_goals simp only [unbroken_cons, unbroken_append, unbroken_nil, Ne.symm back, ne_eq,
      not_false_eq_true, Char.reduceEq, and_true]
    · exact unbroken_writeUnit (by omega)
    · exact ⟨unbroken_writeUnit (by omega), unbroken_writeUnit (by omega)⟩

/-- A written text holds no carriage return, since each of its characters is written without one.
-/
@[simp] theorem unbroken_writeText (content : String) : Unbroken (writeText content) := by
  have inside : Unbroken (content.toList.flatMap writeChar) := by
    intro member
    obtain ⟨c, -, written⟩ := List.mem_flatMap.mp member
    exact unbroken_writeChar c written
  simp [writeText, inside]

/-- Line breaks are line feeds with blanks behind them, on every level. -/
@[simp] theorem unbroken_newLine (level : Nat) : Unbroken (newLine level) := by
  have inside : Unbroken (List.replicate (2 * level) ' ') := by
    intro member
    exact absurd (List.eq_of_mem_replicate member) (by decide)
  simp [newLine, inside]

/-- Figures hold no carriage return, which is no digit. -/
theorem unbroken_figures {digits : List Char} (given : Figures digits) : Unbroken digits :=
  fun member => absurd (given _ member) (by decide)

/-- A text that writes a decimal holds no carriage return: beside figures there are only the
point, the mark of the exponent and its sign. -/
theorem unbroken_writtenAs {decimal : Double.Decimal} {text : List Char}
    (written : decimal.WrittenAs text) : Unbroken text := by
  obtain ⟨whole, fraction, power, leads, figures, -⟩ := written
  have fractional : Unbroken (pointed fraction) := by
    unfold pointed
    split
    · exact unbroken_nil
    · simp [unbroken_figures figures]
  have exponential : Unbroken (powered power) := by
    cases power with
    | none => exact unbroken_nil
    | some power =>
      obtain ⟨figures, text, -, digits, -⟩ := exponentText_eq power
      rw [powered, text]
      split <;> simp [unbroken_figures digits]
  simp [unbroken_figures leads.figures, fractional, exponential]

/-- A sign in front of a text adds no carriage return to it. -/
theorem unbroken_signed (negative : Bool) {text : List Char} (unbroken : Unbroken text) :
    Unbroken (signed negative text) := by
  cases negative with
  | false => exact unbroken
  | true => simpa [signed] using unbroken

/-- A written double holds no carriage return, neither as figures nor as one of the words. -/
theorem unbroken_render (value : Double) :
    Unbroken (Double.render documentWords value).toList := by
  cases value with
  | finite negative place =>
    obtain ⟨read, -, written⟩ := Double.exists_writtenAs_magnitudeText place
    rw [Double.render, String.toList_ofList]
    exact unbroken_signed negative (unbroken_writtenAs written)
  | infinite negative => cases negative <;> simp [Double.render, documentWords]
  | notANumber => simp [Double.render, documentWords]

mutual

/-- What is written for a value holds no carriage return. So reading a file, which unifies line
breaks, does not change a document. -/
theorem unbroken_writeIndented (level : Nat) : ∀ value : Json, Unbroken (writeIndented level value)
  | .null => by simp [writeIndented]
  | .bool value => by cases value <;> simp [writeIndented]
  | .int value => by
    rw [writeIndented, toList_repr_int]
    exact unbroken_signed _ (unbroken_figures (Figures.toDigits _))
  | .double value => unbroken_render value
  | .text content => unbroken_writeText content
  | .list [] => by simp [writeIndented]
  | .list (item :: items) => by
    simp [writeIndented, unbroken_writeIndented (level + 1) item,
      unbroken_writeItems (level + 1) items]
  | .object [] => by simp [writeIndented]
  | .object ((name, value) :: members) => by
    simp [writeIndented, unbroken_writeIndented (level + 1) value,
      unbroken_writeMembers (level + 1) members]

/-- What is written for the items of a list holds no carriage return. -/
theorem unbroken_writeItems (level : Nat) :
    ∀ items : List Json, Unbroken (writeItems level items)
  | [] => unbroken_nil
  | item :: items => by
    simp [writeItems, unbroken_writeIndented level item, unbroken_writeItems level items]

/-- What is written for the members of an object holds no carriage return, in their names and in
their values. -/
theorem unbroken_writeMembers (level : Nat) :
    ∀ members : List (String × Json), Unbroken (writeMembers level members)
  | [] => unbroken_nil
  | (name, value) :: members => by
    simp [writeMembers, unbroken_writeIndented level value, unbroken_writeMembers level members]

end

end ScreenAtlas.Json
