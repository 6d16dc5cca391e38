import ScreenAtlas.Json.Reader
import ScreenAtlas.Json.Writer

/-!
# Written texts are read back

A text is written in seven-bit characters between two marks. Every character has
one of four forms: itself, a short escape, one escaped unit, or a pair of them for
characters beyond the first plane. Each form is read back as the character it
stands for, so reading what was written gives the text again, and goes on behind
its closing mark.
-/
namespace ScreenAtlas.Json

open ScreenAtlas.Text

/-- A figure below sixteen is read back as its value. All of them are tried. -/
theorem hexValue?_digitChar {figure : Nat} (small : figure < 16) :
    hexValue? figure.digitChar = some figure := by
  have every : ∀ figure : Fin 16, hexValue? figure.val.digitChar = some figure.val := by decide
  exact every ⟨figure, small⟩

/-- A unit of sixteen bits is written with four figures, which are filled up with zeros in front.
-/
theorem hexadecimal_unit {unit : Nat} (small : unit < 0x10000) :
    hexadecimal 4 unit = [(unit / 0x1000).digitChar, (unit / 0x100 % 16).digitChar,
      (unit / 0x10 % 16).digitChar, (unit % 16).digitChar] := by
  have zero : '0' = Nat.digitChar 0 := rfl
  rw [hexadecimal, zero]
  by_cases one : unit < 16
  · simp [Nat.toDigits_of_lt_base one, show unit / 0x1000 = 0 by omega,
      show unit / 0x100 = 0 by omega, show unit / 0x10 = 0 by omega,
      show unit % 16 = unit by omega, List.replicate]
  · rw [Nat.toDigits_of_base_le (by decide) (by omega)]
    by_cases two : unit / 16 < 16
    · simp [Nat.toDigits_of_lt_base two, show unit / 0x1000 = 0 by omega,
        show unit / 0x100 = 0 by omega, show unit / 0x10 % 16 = unit / 16 by omega,
        List.replicate]
    · rw [Nat.toDigits_of_base_le (by decide) (by omega)]
      by_cases three : unit / 16 / 16 < 16
      · simp [Nat.toDigits_of_lt_base three, show unit / 0x1000 = 0 by omega,
          show unit / 0x100 % 16 = unit / 16 / 16 by omega]
      · rw [Nat.toDigits_of_base_le (by decide) (by omega)]
        simp [Nat.toDigits_of_lt_base (show unit / 16 / 16 / 16 < 16 by omega),
          show unit / 0x1000 = unit / 16 / 16 / 16 by omega,
          show unit / 0x100 % 16 = unit / 16 / 16 % 16 by omega]

/-- Four figures are read back as the unit they were written for, and what follows them is left.
-/
theorem unit?_hexadecimal {unit : Nat} (small : unit < 0x10000) (rest : List Char) :
    unit? (hexadecimal 4 unit ++ rest) = some (unit, rest) := by
  rw [hexadecimal_unit small]
  simp only [List.cons_append, List.nil_append, unit?,
    hexValue?_digitChar (show unit / 0x1000 < 16 by omega),
    hexValue?_digitChar (show unit / 0x100 % 16 < 16 by omega),
    hexValue?_digitChar (show unit / 0x10 % 16 < 16 by omega),
    hexValue?_digitChar (show unit % 16 < 16 by omega)]
  simp only [Option.bind_eq_bind, Option.bind_some, Option.pure_def, Option.some.injEq,
    Prod.mk.injEq, and_true]
  omega

/-- No character is half of a pair: its position lies before the halves or behind them. -/
theorem toNat_range (c : Char) :
    c.toNat < 0xD800 ∨ 0xDFFF < c.toNat ∧ c.toNat < 0x110000 := by
  have valid := c.valid
  simp only [UInt32.isValidChar, Nat.isValidChar] at valid
  have same : c.val.toNat = c.toNat := rfl
  omega

/-- A character of the first plane is read back from its unit, which is no half of a pair. -/
theorem escapedUnit?_single {c : Char} (plane : c.toNat < 0x10000) (rest : List Char) :
    escapedUnit? (hexadecimal 4 c.toNat ++ rest) = some (c, rest) := by
  have range := toNat_range c
  have high : ¬ (0xD800 ≤ c.toNat ∧ c.toNat ≤ 0xDBFF) := by omega
  have whole : ¬ (0xD800 ≤ c.toNat ∧ c.toNat ≤ 0xDFFF) := by omega
  simp [escapedUnit?, unit?_hexadecimal plane, high, charAt, whole]

/-- Two units that form a pair are read back as one character. -/
theorem escapedUnit?_units {high low : Nat} (first : 0xD800 ≤ high ∧ high ≤ 0xDBFF)
    (second : 0xDC00 ≤ low ∧ low ≤ 0xDFFF) (rest : List Char) :
    escapedUnit? (hexadecimal 4 high ++ (writeUnit low ++ rest)) =
      some (Char.ofNat (0x10000 + (high - 0xD800) * 0x400 + (low - 0xDC00)), rest) := by
  simp [escapedUnit?, writeUnit, unit?_hexadecimal (show high < 0x10000 by omega),
    unit?_hexadecimal (show low < 0x10000 by omega), first, second]

/-- A character beyond the first plane is read back from its two units, which are a first and a
second half. -/
theorem escapedUnit?_pair {c : Char} (plane : 0x10000 ≤ c.toNat) (rest : List Char) :
    escapedUnit? (hexadecimal 4 (0xD800 + (c.toNat - 0x10000) / 0x400) ++
      (writeUnit (0xDC00 + (c.toNat - 0x10000) % 0x400) ++ rest)) = some (c, rest) := by
  have range := toNat_range c
  rw [escapedUnit?_units (by omega) (by omega)]
  have whole : 0x10000 + (0xD800 + (c.toNat - 0x10000) / 0x400 - 0xD800) * 0x400 +
      (0xDC00 + (c.toNat - 0x10000) % 0x400 - 0xDC00) = c.toNat := by omega
  rw [whole, Char.ofNat_toNat]

/-- One written character is read back, whatever form it has.

Proof: the forms are tried in the order in which the writer tries them. -/
theorem readText?_writeChar (fuel : Nat) (read rest : List Char) (c : Char) :
    readText? (fuel + 1) read (writeChar c ++ rest) = readText? fuel (c :: read) rest := by
  unfold writeChar
  by_cases mark : c = '"'
  · subst mark; rfl
  by_cases escape : c = '\\'
  · subst escape; rfl
  by_cases feed : c = '\n'
  · subst feed; rfl
  by_cases back : c = '\r'
  · subst back; rfl
  by_cases tabulator : c = '\t'
  · subst tabulator; rfl
  by_cases form : c = '\x0c'
  · subst form; rfl
  by_cases erase : c = '\x08'
  · subst erase; rfl
  simp only [mark, escape, feed, back, tabulator, form, erase, beq_iff_eq, ↓reduceIte]
  by_cases visible : (decide (0x20 ≤ c.toNat) && decide (c.toNat ≤ 0x7E)) = true
  · have solid : ¬ c.toNat < 0x20 := by simp at visible; omega
    simp only [visible, ↓reduceIte, List.singleton_append]
    rw [readText?]
    · simp [solid, escape]
    all_goals simp_all
  · simp only [visible, Bool.false_eq_true, ↓reduceIte]
    by_cases plane : c.toNat < 0x10000
    · simp only [plane, ↓reduceIte, writeUnit, List.cons_append, readText?,
        escapedUnit?_single plane, Option.bind_eq_bind, Option.bind_some]
    · have beyond := escapedUnit?_pair (Nat.not_lt.mp plane) rest
      simp only [plane, ↓reduceIte, List.append_assoc]
      rw [writeUnit, List.cons_append, List.cons_append, readText?, beyond]
      rfl

/-- Reading a written text gives the text, and what follows its closing mark.

Proof: induction over the text; every character spends one unit of fuel. -/
theorem readText?_written (text : List Char) {fuel : Nat} (enough : text.length < fuel)
    (read rest : List Char) :
    readText? fuel read (text.flatMap writeChar ++ '"' :: rest) =
      some (read.reverse ++ text, rest) := by
  induction text generalizing fuel read with
  | nil =>
    obtain ⟨fuel, rfl⟩ := Nat.exists_eq_add_of_lt enough
    simp [readText?]
  | cons c text inductionHypothesis =>
    obtain ⟨fuel, rfl⟩ : ∃ less, fuel = less + 1 := ⟨fuel - 1, by simp at enough; omega⟩
    rw [List.flatMap_cons, List.append_assoc, readText?_writeChar,
      inductionHypothesis (by simpa using enough)]
    simp

end ScreenAtlas.Json
