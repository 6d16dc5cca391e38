import ScreenAtlas.Proofs.Search
import ScreenAtlas.Proofs.WrittenNumbers

/-!
# The reader is never cut short

The readers of data text call each other and spend one unit of fuel per call. What they leave
is always shorter than what they were given, so the calls that are still to come need less
fuel than those that were made: a value needs at most one unit more than twice its length, and
the items of a list or the members of an object one unit more than that. With this allowance
or any larger one the answer is the same. No text is refused for want of fuel, however deeply
it is nested.
-/
namespace ScreenAtlas.Json

/-- Skipping a gap leaves at most what there was, since characters are only dropped from the
front. -/
theorem length_skipGap_le (source : List Char) : (skipGap source).length ≤ source.length :=
  (List.dropWhile_suffix _).length_le

/-- What follows a gap and one more character is shorter than all of it, by that character at
least. -/
theorem length_lt_of_skipGap {source rest : List Char} {c : Char}
    (found : skipGap source = c :: rest) : rest.length < source.length := by
  have whole := length_skipGap_le source
  rw [found, List.length_cons] at whole
  exact whole

/-- What follows a gap, one more character and another gap is shorter than all of it, since the
second gap only takes more away. -/
theorem length_skipGap_lt_of_skipGap {source rest : List Char} {c : Char}
    (found : skipGap source = c :: rest) : (skipGap rest).length < source.length :=
  (length_skipGap_le rest).trans_lt (length_lt_of_skipGap found)

/-! ## What is left behind a text, a word or a number -/

/-- A unit is read from exactly four characters, one for each of its figures. -/
theorem length_of_unit? {source rest : List Char} {unit : Nat}
    (read : unit? source = some (unit, rest)) : source.length = rest.length + 4 := by
  unfold unit? at read
  split at read
  · simp only [Option.bind_eq_bind, Option.bind_eq_some_iff, Option.pure_def, Option.some.injEq,
      Prod.mk.injEq] at read
    obtain ⟨_, _, _, _, _, _, _, _, _, rfl⟩ := read
    rfl
  · cases read

/-- An escape takes one unit, or a pair of units with the mark between, so that something is taken
in either case. -/
theorem length_of_escapedUnit? {source rest : List Char} {c : Char}
    (read : escapedUnit? source = some (c, rest)) : rest.length < source.length := by
  simp only [escapedUnit?, Option.bind_eq_bind, Option.bind_eq_some_iff] at read
  obtain ⟨⟨high, behind⟩, first, read⟩ := read
  have taken := length_of_unit? first
  have left {other : Char} {after : List Char} (given : pure (other, after) = some (c, rest)) :
      after = rest := (Prod.mk.inj (Option.some.inj given)).2
  dsimp only at read
  split at read
  · split at read
    · split at read
      · rename_i low after second
        have pair := length_of_unit? second
        simp only [List.length_cons] at taken
        split at read
        · rw [← left read]
          omega
        · rw [← left read, List.length_cons, List.length_cons]
          omega
      · cases read
    · rw [← left read]
      omega
  · rw [← left read]
    omega

/-- A text ends behind its closing mark. Every turn of its reader takes at least one character,
and the last turn takes the mark. -/
theorem length_of_readText? {fuel : Nat} {read source text rest : List Char}
    (found : readText? fuel read source = some (text, rest)) : rest.length < source.length := by
  fun_induction readText? fuel read source with
  | case1 => cases found
  | case2 => cases found
  | case3 fuel read behind =>
    cases found
    exact Nat.lt_succ_self _
  | case4 fuel read behind inductionHypothesis =>
    obtain ⟨⟨c, after⟩, escaped, later⟩ := Option.bind_eq_some_iff.mp found
    have taken := length_of_escapedUnit? escaped
    have left := inductionHypothesis c after later
    simp only [List.length_cons]
    omega
  | case5 fuel read mark behind _ inductionHypothesis =>
    obtain ⟨c, escaped, later⟩ := Option.bind_eq_some_iff.mp found
    have left := inductionHypothesis c later
    simp only [List.length_cons]
    omega
  | case6 => cases found
  | case7 fuel read c behind _ _ _ _ inductionHypothesis =>
    have left := inductionHypothesis found
    rw [List.length_cons]
    omega

/-- The fraction of a number is read from the front, or nothing is read and everything is left. -/
theorem length_fractionPart_le (source : List Char) :
    (fractionPart source).2.length ≤ source.length := by
  unfold fractionPart
  split
  · rename_i rest
    split
    · exact le_rfl
    · exact (List.dropWhile_suffix _).length_le.trans (Nat.le_succ _)
  · exact le_rfl

/-- Splitting off a sign leaves at most what there was, as a sign is one character or none. -/
theorem length_splitSign_le (source : List Char) :
    (Numeral.splitSign source).2.length ≤ source.length := by
  unfold Numeral.splitSign
  split <;> simp

/-- The power of a number is read from the front, or nothing is read and everything is left. -/
theorem length_exponentPart_le (source : List Char) :
    (exponentPart source).2.length ≤ source.length := by
  unfold exponentPart
  split
  · rename_i c rest
    split
    · dsimp only
      split
      · exact le_rfl
      · have digits : ((Numeral.splitSign rest).2.dropWhile Char.isDigit).length ≤
            (Numeral.splitSign rest).2.length := (List.dropWhile_suffix _).length_le
        have behind := length_splitSign_le rest
        rw [List.length_cons]
        exact digits.trans (behind.trans (Nat.le_succ _))
    · exact le_rfl
  · exact le_rfl

/-- A number takes at least one digit, because its whole part is not empty. -/
theorem length_of_readNumber {negative : Bool} {source rest : List Char} {number : Json}
    (read : readNumber negative source = .ok (number, rest)) : rest.length < source.length := by
  rw [readNumber_eq] at read
  split at read
  · cases read
  · rename_i filled
    have whole : 0 < (wholePart source).length := by
      rw [List.length_pos_iff]
      simpa using filled
    have fits : (wholePart source).length ≤ source.length := by
      unfold wholePart
      split
      · simp
      · exact (List.takeWhile_prefix _).length_le
    have behind : (source.drop (wholePart source).length).length =
        source.length - (wholePart source).length := List.length_drop
    have fraction := length_fractionPart_le (source.drop (wholePart source).length)
    have power := length_exponentPart_le
      (fractionPart (source.drop (wholePart source).length)).2
    have left : rest =
        (exponentPart (fractionPart (source.drop (wholePart source).length)).2).2 := by
      unfold numberOf at read
      dsimp only at read
      split at read
      · exact (Prod.mk.inj (Except.ok.inj read)).2.symm
      · split at read
        · cases read
        · exact (Prod.mk.inj (Except.ok.inj read)).2.symm
    rw [left]
    omega

/-- A word takes its letters, and a number its digits behind a possible sign; neither is read from
nothing. -/
theorem length_of_readScalar {source rest : List Char} {value : Json}
    (read : readScalar source = .ok (value, rest)) : rest.length < source.length := by
  unfold readScalar at read
  split at read
  · rename_i found spelled
    obtain ⟨⟨word, meant⟩, known, behind⟩ := List.exists_of_findSome?_eq_some spelled
    obtain ⟨after, follows, rfl⟩ := Option.map_eq_some_iff.mp behind
    obtain ⟨-, rfl⟩ := Prod.mk.inj (Except.ok.inj read)
    have letters : ∀ entry ∈ keywords, 0 < entry.1.toList.length := by decide
    have filled : 0 < word.toList.length := letters _ known
    rw [Text.eq_append_of_after? follows, List.length_append]
    omega
  · split at read
    · exact (length_of_readNumber read).trans (Nat.lt_succ_self _)
    · exact length_of_readNumber read

/-! ## Values -/

/-- What is left behind a value, behind the items of a list and behind the members of an object
is shorter than what they were read from. -/
structure Shortens (fuel : Nat) : Prop where
  value : ∀ {source rest found}, readValue fuel source = .ok (found, rest) →
    rest.length < source.length
  items : ∀ {read source rest found}, readItems fuel read source = .ok (found, rest) →
    rest.length < source.length
  members : ∀ {read source rest found}, readMembers fuel read source = .ok (found, rest) →
    rest.length < source.length

/-- A value is read from at least one character, when the readers that it calls shorten what
they are given. -/
theorem Shortens.value_succ {fuel : Nat} (shortens : Shortens fuel) {source rest : List Char}
    {found : Json} (read : readValue (fuel + 1) source = .ok (found, rest)) :
    rest.length < source.length := by
  unfold readValue at read
  split at read
  · split at read
    · rename_i text
      obtain ⟨-, rfl⟩ := Prod.mk.inj (Except.ok.inj read)
      exact (length_of_readText? text).trans (Nat.lt_succ_self _)
    · cases read
  · rename_i behind
    have gap := length_skipGap_le behind
    rw [List.length_cons]
    split at read
    · rename_i closed
      have shorter := length_lt_of_skipGap closed
      obtain ⟨-, rfl⟩ := Prod.mk.inj (Except.ok.inj read)
      omega
    · have left := shortens.items read
      omega
  · rename_i behind
    have gap := length_skipGap_le behind
    rw [List.length_cons]
    split at read
    · rename_i closed
      have shorter := length_lt_of_skipGap closed
      obtain ⟨-, rfl⟩ := Prod.mk.inj (Except.ok.inj read)
      omega
    · have left := shortens.members read
      omega
  · exact length_of_readScalar read

/-- The items of a list are read from at least one character, when the readers that are called for
them shorten what they are given. -/
theorem Shortens.items_succ {fuel : Nat} (shortens : Shortens fuel) {earlier : List Json}
    {source rest : List Char} {found : Json}
    (read : readItems (fuel + 1) earlier source = .ok (found, rest)) :
    rest.length < source.length := by
  unfold readItems at read
  cases first : readValue fuel source with
  | error cause =>
    rw [first] at read
    cases read
  | ok item =>
    obtain ⟨item, behind⟩ := item
    have taken := shortens.value first
    simp only [first, bind, Except.bind] at read
    split at read
    · rename_i comma
      have shorter := length_skipGap_lt_of_skipGap comma
      have left := shortens.items read
      omega
    · rename_i closed
      have shorter := length_lt_of_skipGap closed
      obtain ⟨-, rfl⟩ := Prod.mk.inj (Except.ok.inj read)
      omega
    · cases read

/-- The members of an object are read from at least one character, when the readers that are called
for them shorten what they are given. A name and the mark behind it come before the value. -/
theorem Shortens.members_succ {fuel : Nat} (shortens : Shortens fuel) {earlier : Members}
    {source rest : List Char} {found : Json}
    (read : readMembers (fuel + 1) earlier source = .ok (found, rest)) :
    rest.length < source.length := by
  unfold readMembers at read
  split at read
  · rename_i quoted
    rw [List.length_cons]
    split at read
    · cases read
    · rename_i name after text
      have named := length_of_readText? text
      split at read
      · rename_i inner colon
        have shorter := length_skipGap_lt_of_skipGap colon
        cases first : readValue fuel (skipGap inner) with
        | error cause =>
          rw [first] at read
          cases read
        | ok value =>
          obtain ⟨value, behind⟩ := value
          have taken := shortens.value first
          simp only [first, bind, Except.bind] at read
          split at read
          · rename_i comma
            have further := length_skipGap_lt_of_skipGap comma
            have left := shortens.members read
            omega
          · rename_i closed
            have further := length_lt_of_skipGap closed
            obtain ⟨-, rfl⟩ := Prod.mk.inj (Except.ok.inj read)
            omega
          · cases read
      · cases read
  · cases read

/-- Whatever fuel there is, what is left is shorter than what was given. The induction is on the
fuel, as every call hands on one unit less. -/
theorem shortens (fuel : Nat) : Shortens fuel := by
  induction fuel with
  | zero =>
    constructor <;> intros <;> rename_i read
    · rw [readValue] at read
      cases read
    · rw [readItems] at read
      cases read
    · rw [readMembers] at read
      cases read
  | succ fuel inductionHypothesis =>
    exact ⟨inductionHypothesis.value_succ, inductionHypothesis.items_succ,
      inductionHypothesis.members_succ⟩

/-- The fuel is enough for everything whose allowance it covers: with more of it a value, the
items of a list and the members of an object are read as before. Items and members need one
unit more, since their first value is read without taking a character before. -/
structure Settles (fuel : Nat) : Prop where
  value : ∀ {source more}, allowance source ≤ fuel → fuel ≤ more →
    readValue more source = readValue fuel source
  items : ∀ {read source more}, allowance source < fuel → fuel ≤ more →
    readItems more read source = readItems fuel read source
  members : ∀ {read source more}, allowance source < fuel → fuel ≤ more →
    readMembers more read source = readMembers fuel read source

/-- What stands behind an opening mark and a gap needs less than the allowance of the whole. -/
theorem allowance_skipGap_lt {source : List Char} {c : Char} {fuel : Nat}
    (enough : allowance (c :: source) ≤ fuel + 1) : allowance (skipGap source) < fuel := by
  have gap := length_skipGap_le source
  simp only [allowance, List.length_cons] at enough ⊢
  omega

/-- One call of the reader of values gives the same with more fuel. Only lists and objects lead to
another call, behind their opening mark. -/
theorem Settles.value_succ {fuel more : Nat} (settles : Settles fuel) (further : fuel ≤ more)
    {source : List Char} (enough : allowance source ≤ fuel + 1) :
    readValue (more + 1) source = readValue (fuel + 1) source := by
  unfold readValue
  split
  · rfl
  · split
    · rfl
    · exact settles.items (allowance_skipGap_lt enough) further
  · split
    · rfl
    · exact settles.members (allowance_skipGap_lt enough) further
  · rfl

/-- One call of the reader of items gives the same with more fuel. The value in front needs the
whole allowance, and what follows its comma is shorter by two characters at least. -/
theorem Settles.items_succ {fuel more : Nat} (settles : Settles fuel) (further : fuel ≤ more)
    {earlier : List Json} {source : List Char} (enough : allowance source < fuel + 1) :
    readItems (more + 1) earlier source = readItems (fuel + 1) earlier source := by
  unfold readItems
  rw [settles.value (Nat.lt_succ_iff.mp enough) further]
  cases first : readValue fuel source with
  | error cause => rfl
  | ok item =>
    have taken := (shortens fuel).value first
    simp only [bind, Except.bind]
    split
    · rename_i comma
      have shorter := length_skipGap_lt_of_skipGap comma
      refine settles.items ?_ further
      simp only [allowance] at enough ⊢
      omega
    · rfl
    · rfl

/-- One call of the reader of members gives the same with more fuel; the name leaves even less for
the value than there is for an item. -/
theorem Settles.members_succ {fuel more : Nat} (settles : Settles fuel) (further : fuel ≤ more)
    {earlier : Members} {source : List Char} (enough : allowance source < fuel + 1) :
    readMembers (more + 1) earlier source = readMembers (fuel + 1) earlier source := by
  unfold readMembers
  split
  · split
    · rfl
    · rename_i name after text
      have named := length_of_readText? text
      split
      · rename_i inner colon
        have shorter := length_skipGap_lt_of_skipGap colon
        have within : allowance (skipGap inner) ≤ fuel := by
          simp only [allowance, List.length_cons] at enough ⊢
          omega
        rw [settles.value within further]
        cases first : readValue fuel (skipGap inner) with
        | error cause => rfl
        | ok value =>
          have taken := (shortens fuel).value first
          simp only [bind, Except.bind]
          split
          · rename_i comma
            have less := length_skipGap_lt_of_skipGap comma
            refine settles.members ?_ further
            simp only [allowance, List.length_cons] at enough ⊢
            omega
          · rfl
          · rfl
      · rfl
  · rfl

/-- Every amount of fuel is enough for what its allowance covers. Proof: by induction on the
fuel; a call hands on one unit less, to texts whose allowance is less by one at least. -/
theorem settles (fuel : Nat) : Settles fuel := by
  induction fuel with
  | zero => constructor <;> intro source <;> simp [allowance]
  | succ fuel inductionHypothesis =>
    constructor
    · intro source more enough further
      obtain ⟨more, rfl⟩ := Nat.exists_eq_add_of_lt further
      exact inductionHypothesis.value_succ (by omega) enough
    · intro read source more enough further
      obtain ⟨more, rfl⟩ := Nat.exists_eq_add_of_lt further
      exact inductionHypothesis.items_succ (by omega) enough
    · intro read source more enough further
      obtain ⟨more, rfl⟩ := Nat.exists_eq_add_of_lt further
      exact inductionHypothesis.members_succ (by omega) enough

/-- Reading a text is reading its value with any fuel that covers the allowance. So nothing
is refused because the fuel ran out, and no nesting is too deep. -/
theorem read_eq_of_allowance {source : String} {fuel : Nat}
    (enough : allowance source.toList ≤ fuel) :
    read source = (readValue fuel (skipGap source.toList)).bind fun found =>
      if (skipGap found.2).isEmpty then .ok found.1 else .error .malformed := by
  have gap := length_skipGap_le source.toList
  have within : allowance (skipGap source.toList) ≤ allowance source.toList := by
    simp only [allowance]
    omega
  rw [read, (settles _).value within enough]
  cases readValue (allowance source.toList) (skipGap source.toList) <;> rfl

end ScreenAtlas.Json
