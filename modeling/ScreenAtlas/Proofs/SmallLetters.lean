import ScreenAtlas.Text.Case

/-!
# Small letters stay as they are

Writing a text, or any part of it, in small letters again changes nothing. Every
character that is written is its own small form: for the letters of the tables this is
checked row by row, since the small forms of a row are letters of no row. The capital
sigma, whose small form depends on its neighbours, is never written.
-/
namespace ScreenAtlas.Text

/-- The character is its own small form, wherever it stands. -/
structure Settled (c : Char) : Prop where
  ordinary : c ≠ 'Σ'
  kept : smallOf c = [c]

instance (c : Char) : Decidable (Settled c) :=
  decidable_of_iff (c ≠ 'Σ' ∧ smallOf c = [c])
    ⟨fun facts => ⟨facts.1, facts.2⟩, fun settled => ⟨settled.ordinary, settled.kept⟩⟩

/-- A text of settled characters is in small letters already. The induction is on the text,
whatever has been passed before it. -/
theorem small_eq_self {text : List Char} (settled : ∀ c ∈ text, Settled c) : small text = text := by
  have from_ (before : List Char) : smallFrom before text = text := by
    induction text generalizing before with
    | nil => rfl
    | cons c rest inductionHypothesis =>
      obtain ⟨ordinary, kept⟩ := settled c List.mem_cons_self
      have behind := inductionHypothesis (fun d member =>
        settled d (List.mem_cons_of_mem c member)) (c :: before)
      simp [smallFrom, ordinary, kept, behind]
  exact from_ []

/-! ## The rows of the table -/

namespace CaseRow

/-- The small form of the first letter of a row. -/
def firstForm (row : CaseRow) : Nat := (row.first + row.shift).toNat

/-- The small form of the last letter of a row. -/
def lastForm (row : CaseRow) : Nat := (row.last + row.shift).toNat

/-- No small form of one row is a letter of the other: the two lie apart, or the letters
of the other are those in between. -/
def isClearOf (row other : CaseRow) : Bool :=
  Nat.blt row.lastForm other.first || Nat.blt other.last row.firstForm ||
    (other.stride == 2 && (row.stride == 2 || row.first == row.last) &&
      (row.firstForm + other.first) % 2 == 1)

/-- The small forms of a row are no letters: they lie beyond the seven-bit characters,
are valid characters, and belong to no sequence and to no row. -/
def isBeyond (row : CaseRow) : Bool :=
  Nat.ble 128 row.firstForm &&
    (Nat.blt row.lastForm 0xD800 ||
      Nat.ble 0xE000 row.firstForm && Nat.blt row.lastForm 0x110000) &&
    (Nat.blt row.lastForm 0x130 || Nat.blt 0x130 row.firstForm) && smallRows.all row.isClearOf

/-- The row has one letter, whose small form is a small seven-bit letter. -/
def isSingle (row : CaseRow) : Bool :=
  row.first == row.last && Nat.ble 97 row.firstForm && Nat.ble row.firstForm 122

variable {row other : CaseRow} {position image : Nat}

/-- A row covers the letters between its first and its last one that lie at a multiple of its
stride. -/
theorem covers_iff : row.covers position = true ↔
    row.first ≤ position ∧ position ≤ row.last ∧ (position - row.first) % row.stride = 0 := by
  simp [covers, and_assoc]

/-- The small form of a letter of the row is no letter of a row that it is clear of. -/
theorem covers_form (clear : row.isClearOf other = true) (beyond : 128 ≤ row.firstForm)
    (covered : row.covers position = true) (form : (image : Int) = position + row.shift) :
    other.covers image = false := by
  obtain ⟨first, last, strides⟩ := covers_iff.mp covered
  simp only [isClearOf, firstForm, lastForm, Bool.or_eq_true, Bool.and_eq_true, beq_iff_eq,
    Nat.blt_eq] at clear beyond
  rw [Bool.eq_false_iff]
  intro met
  obtain ⟨low, high, places⟩ := covers_iff.mp met
  rcases clear with (below | above) | ⟨⟨two, alike⟩, odd⟩
  · omega
  · omega
  · rw [two] at places
    rcases alike with double | single
    · rw [double] at strides
      omega
    · omega

end CaseRow

/-- Every row of the table leads beyond all letters, or to a small seven-bit letter. -/
theorem smallRows_final :
    (smallRows.all fun row => row.isBeyond || row.isSingle) = true := by
  decide +kernel

/-! ## Characters that stay as they are -/

/-- A character beyond the seven-bit ones that is a letter of no sequence and no row is settled,
because nothing gives it another small form. -/
theorem settled_of_no_row {c : Char} (beyond : 128 ≤ c.toNat) (sequence : c.toNat ≠ 0x130)
    (row : ∀ row ∈ smallRows, row.covers c.toNat = false) : Settled c := by
  constructor
  · rintro rfl
    have covered : (smallRows.any fun row => row.covers 'Σ'.toNat) = true := by decide +kernel
    obtain ⟨found, member, covers⟩ := List.any_eq_true.mp covered
    rw [row found member] at covers
    cases covers
  · have none : smallRows.find? (fun row => row.covers c.toNat) = none :=
      List.find?_eq_none.mpr fun found member => by simp [row found member]
    have unlisted : smallSequences.lookup c.toNat = Option.none := by
      simp [smallSequences, List.lookup_cons, beq_false_of_ne sequence]
    simp [smallOf, mapCase, Nat.not_lt.mpr beyond, unlisted, none]

/-- The seven-bit characters in small letters are settled. There are few enough of them to try
all. -/
theorem settled_toLower {c : Char} (plain : c.toNat < 128) : Settled c.toLower := by
  have every : ∀ position : Fin 128, Settled (Char.ofNat position).toLower := by
    decide +kernel
  have here := every ⟨c.toNat, plain⟩
  rwa [Char.ofNat_toNat] at here

/-- A small seven-bit letter is settled. All twenty-six of them are tried. -/
theorem settled_letter {position : Nat} (low : 97 ≤ position) (high : position ≤ 122) :
    Settled (Char.ofNat position) := by
  have letters : ∀ offset : Fin 26, Settled (Char.ofNat (97 + offset)) := by
    decide +kernel
  have here := letters ⟨position - 97, by omega⟩
  rwa [Nat.add_sub_of_le low] at here

/-- The small form of a letter of a row that leads beyond all letters is settled, since it is a
letter of no row. -/
theorem CaseRow.settled_of_isBeyond {row : CaseRow} (beyond : row.isBeyond = true)
    {position image : Nat} (covered : row.covers position = true)
    (form : (image : Int) = position + row.shift) : Settled (Char.ofNat image) := by
  obtain ⟨first, last, _⟩ := covers_iff.mp covered
  simp only [isBeyond, Bool.and_eq_true, Bool.or_eq_true, Nat.blt_eq, Nat.ble_eq,
    List.all_eq_true] at beyond
  obtain ⟨⟨⟨large, valid⟩, sequence⟩, clear⟩ := beyond
  have bounds : row.firstForm ≤ image ∧ image ≤ row.lastForm := by
    unfold firstForm lastForm
    omega
  have character : image.isValidChar := by
    unfold Nat.isValidChar
    omega
  have same : (Char.ofNat image).toNat = image := by
    rw [Char.ofNat, dif_pos character]
    rfl
  apply settled_of_no_row
  · omega
  · omega
  · intro other present
    rw [same]
    exact covers_form (clear other present) large covered form

/-- The small form that a row of the table gives to one of its letters is settled, whichever of
the two kinds the row is of. -/
theorem settled_of_row {row : CaseRow} (member : row ∈ smallRows) {position : Nat}
    (covered : row.covers position = true) :
    Settled (Char.ofNat (Int.toNat (position + row.shift))) := by
  obtain ⟨first, last, _⟩ := CaseRow.covers_iff.mp covered
  have final := List.all_eq_true.mp smallRows_final row member
  rcases Bool.or_eq_true _ _ ▸ final with beyond | single
  · apply CaseRow.settled_of_isBeyond beyond covered
    simp only [CaseRow.isBeyond, CaseRow.firstForm, Bool.and_eq_true, Nat.ble_eq] at beyond
    omega
  · simp only [CaseRow.isSingle, CaseRow.firstForm, Bool.and_eq_true, beq_iff_eq,
      Nat.ble_eq] at single
    apply settled_letter
    · omega
    · omega

/-- The characters of a sequence are settled. The table has a single sequence, so they can be
looked at one by one. -/
theorem settled_of_sequence {position : Nat} {positions : List Nat}
    (found : smallSequences.lookup position = some positions) :
    ∀ c ∈ positions.map Char.ofNat, Settled c := by
  have only : positions = [0x69, 0x307] := by
    unfold smallSequences at found
    by_cases here : position = 0x130
    · simpa [here] using found.symm
    · simp [List.lookup_cons, beq_false_of_ne here] at found
  have each : Settled (Char.ofNat 0x69) ∧ Settled (Char.ofNat 0x307) := by
    decide +kernel
  intro c member
  rw [only] at member
  rcases List.mem_cons.mp member with rfl | second
  · exact each.1
  · rw [List.mem_singleton.mp second]
    exact each.2

/-- The small form of a character consists of settled characters, whether the character is a
seven-bit one, in one of the tables or in none. -/
theorem settled_of_mem_smallOf {c d : Char} (member : d ∈ smallOf c) : Settled d := by
  unfold smallOf at member
  split at member
  · next plain =>
    rw [List.mem_singleton.mp member]
    exact settled_toLower plain
  · next beyond =>
    unfold mapCase at member
    split at member
    · next found => exact settled_of_sequence found d member
    · next sequence =>
      split at member
      · next row found =>
        rw [List.mem_singleton.mp member]
        have covered := List.find?_some found
        exact settled_of_row (List.mem_of_find?_eq_some found) covered
      · next none =>
        obtain rfl := List.mem_singleton.mp member
        apply settled_of_no_row (Nat.not_lt.mp beyond)
        · intro special
          simp [smallSequences, special] at sequence
        · intro row present
          simpa using List.find?_eq_none.mp none row present

/-- Every character of a text in small letters is settled. The induction is on the text, with what
precedes it left open because of the sigma. -/
theorem settled_of_mem_smallFrom {c : Char} (text before : List Char)
    (member : c ∈ smallFrom before text) : Settled c := by
  induction text generalizing before with
  | nil => cases member
  | cons first rest inductionHypothesis =>
    rcases List.mem_append.mp member with here | behind
    · have sigmas : Settled 'ς' ∧ Settled 'σ' := by
        decide +kernel
      split at here
      · split at here
        · exact List.mem_singleton.mp here ▸ sigmas.1
        · exact List.mem_singleton.mp here ▸ sigmas.2
      · exact settled_of_mem_smallOf here
    · exact inductionHypothesis (first :: before) behind

/-- A text whose characters are all taken from a text in small letters is in small letters, in
whatever order they stand. -/
theorem small_eq_self_of_subset {text part : List Char} (within : part ⊆ small text) :
    small part = part :=
  small_eq_self fun _ member => settled_of_mem_smallFrom text [] (within member)

end ScreenAtlas.Text
