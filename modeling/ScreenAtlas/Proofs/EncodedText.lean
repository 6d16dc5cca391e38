import Mathlib
import ScreenAtlas.Script.Tree

/-!
# Text that has been written as bytes

A text is read back from its bytes, and a part of it from the bytes that the part
occupies. The reading of one character goes by the number of bytes it takes; the
bounds on the second byte are exactly those that a character's position gives.
-/
namespace ScreenAtlas.Text

/-- A byte that is written as a number below 256 has that number as its value. -/
theorem toNat_byte {value : Nat} (small : value < 0x100) : (UInt8.ofNat value).toNat = value := by
  rw [UInt8.toNat_ofNat']
  omega

/-- A continuation byte within the given bounds gives its low six bits, and the bytes behind it
are left. -/
theorem continuation?_byte (low high : Nat) {value : Nat} (rest : List UInt8) (small : value < 0x40)
    (above : low ≤ value + 0x80) (below : value + 0x80 ≤ high) :
    continuation? low high (UInt8.ofNat (value + 0x80) :: rest) = some (value, rest) := by
  have byte : (UInt8.ofNat (value + 0x80)).toNat = value + 0x80 := toNat_byte (by omega)
  have bits : (value + 0x80) % 0x40 = value := by omega
  simp only [continuation?, byte, above, below, bits, decide_true, Bool.and_self, ↓reduceIte]

/-- A byte below 128 is read as a character of one byte, with the byte as its position. -/
theorem leading?_one {lead : Nat} (rest : List UInt8) (below : lead < 0x80) :
    leading? (UInt8.ofNat lead :: rest) = some (Char.ofNat lead, 1) := by
  simp only [leading?, toNat_byte (by omega : lead < 0x100), below, ↓reduceIte]

/-- A leading byte for two bytes and a continuation byte are read as one character. Lower leading
bytes would be over-long forms. -/
theorem leading?_two {lead second : Nat} (rest : List UInt8) (above : 0xC2 ≤ lead)
    (below : lead ≤ 0xDF) (small : second < 0x40) :
    leading? (UInt8.ofNat lead :: UInt8.ofNat (second + 0x80) :: rest) =
      some (Char.ofNat (lead % 0x20 * 0x40 + second), 2) := by
  have one : ¬ lead < 0x80 := by omega
  have next := continuation?_byte 0x80 0xBF rest small (by omega) (by omega)
  simp only [leading?, toNat_byte (by omega : lead < 0x100), one, above, below, next, decide_true,
    Bool.and_self, ↓reduceIte, Option.bind_eq_bind, Option.bind_some, Option.pure_def]

/-- A leading byte for three bytes and two continuation bytes are read as one character. The
bounds on the second byte exclude over-long forms and surrogates. -/
theorem leading?_three {lead second third : Nat} (rest : List UInt8) (above : 0xE0 ≤ lead)
    (below : lead ≤ 0xEF) (long : lead = 0xE0 → 0x20 ≤ second)
    (proper : lead = 0xED → second < 0x20) (small : second < 0x40) (smaller : third < 0x40) :
    leading? (UInt8.ofNat lead :: UInt8.ofNat (second + 0x80) :: UInt8.ofNat (third + 0x80) ::
        rest) = some (Char.ofNat ((lead % 0x10 * 0x40 + second) * 0x40 + third), 3) := by
  have one : ¬ lead < 0x80 := by omega
  have two : ¬ lead ≤ 0xDF := by omega
  have lower : (if lead == 0xE0 then 0xA0 else 0x80) ≤ second + 0x80 := by
    split <;> simp_all
  have upper : second + 0x80 ≤ (if lead == 0xED then 0x9F else 0xBF) := by
    split <;> simp_all <;> omega
  have next := continuation?_byte _ _ (UInt8.ofNat (third + 0x80) :: rest) small lower upper
  have last := continuation?_byte 0x80 0xBF rest smaller (by omega) (by omega)
  simp only [leading?, toNat_byte (by omega : lead < 0x100), one, two, above, below, next, last,
    decide_true, decide_false, Bool.and_false, Bool.false_eq_true, Bool.and_self, ↓reduceIte,
    Option.bind_eq_bind, Option.bind_some, Option.pure_def]

/-- A leading byte for four bytes and three continuation bytes are read as one character. The
bounds exclude over-long forms and positions past the last character. -/
theorem leading?_four {lead second third fourth : Nat} (rest : List UInt8)
    (above : 0xF0 ≤ lead) (below : lead ≤ 0xF4) (long : lead = 0xF0 → 0x10 ≤ second)
    (proper : lead = 0xF4 → second < 0x10) (small : second < 0x40) (smaller : third < 0x40)
    (smallest : fourth < 0x40) :
    leading? (UInt8.ofNat lead :: UInt8.ofNat (second + 0x80) :: UInt8.ofNat (third + 0x80) ::
        UInt8.ofNat (fourth + 0x80) :: rest) =
      some (Char.ofNat (((lead % 0x08 * 0x40 + second) * 0x40 + third) * 0x40 + fourth), 4) := by
  have one : ¬ lead < 0x80 := by omega
  have two : ¬ lead ≤ 0xDF := by omega
  have three : ¬ lead ≤ 0xEF := by omega
  have lower : (if lead == 0xF0 then 0x90 else 0x80) ≤ second + 0x80 := by
    split <;> simp_all
  have upper : second + 0x80 ≤ (if lead == 0xF4 then 0x8F else 0xBF) := by
    split <;> simp_all <;> omega
  have next := continuation?_byte _ _
    (UInt8.ofNat (third + 0x80) :: UInt8.ofNat (fourth + 0x80) :: rest) small lower upper
  have middle := continuation?_byte 0x80 0xBF
    (UInt8.ofNat (fourth + 0x80) :: rest) smaller (by omega) (by omega)
  have last := continuation?_byte 0x80 0xBF rest smallest (by omega) (by omega)
  simp only [leading?, toNat_byte (by omega : lead < 0x100), one, two, three, above, below, next,
    middle, last, decide_true, decide_false, Bool.and_false, Bool.false_eq_true, Bool.and_self,
    ↓reduceIte, Option.bind_eq_bind, Option.bind_some, Option.pure_def]

/-- The bytes of a character are read as that character, with as many bytes as there are. There is
one case for each number of bytes. -/
theorem leading?_utf8EncodeChar (c : Char) (rest : List UInt8) :
    leading? (String.utf8EncodeChar c ++ rest) =
      some (c, (String.utf8EncodeChar c).length) := by
  have valid : c.val.toNat < 0xD800 ∨ 0xDFFF < c.val.toNat ∧ c.val.toNat < 0x110000 := c.valid
  have whole : Char.ofNat c.val.toNat = c := Char.ofNat_toNat c
  unfold String.utf8EncodeChar
  generalize c.val.toNat = position at valid whole
  dsimp only
  split
  · rw [List.cons_append, leading?_one _ (by omega), whole]
    rfl
  · split
    · have value : (position / 64 % 0x20 + 0xC0) % 0x20 * 0x40 + position % 0x40 = position := by
        omega
      rw [List.cons_append, List.cons_append,
        leading?_two _ (by omega) (by omega) (by omega), value, whole]
      rfl
    · split
      · have value : ((position / 4096 % 0x10 + 0xE0) % 0x10 * 0x40 + position / 64 % 0x40) *
            0x40 + position % 0x40 = position := by
          omega
        rw [List.cons_append, List.cons_append, List.cons_append,
          leading?_three _ (by omega) (by omega) (by omega) (by omega) (by omega) (by omega),
          value, whole]
        rfl
      · have value : (((position / 262144 % 0x08 + 0xF0) % 0x08 * 0x40 +
            position / 4096 % 0x40) * 0x40 + position / 64 % 0x40) * 0x40 + position % 0x40 =
            position := by
          omega
        rw [List.cons_append, List.cons_append, List.cons_append, List.cons_append,
          leading?_four _ (by omega) (by omega) (by omega) (by omega) (by omega) (by omega)
            (by omega), value, whole]
        rfl

/-- The bytes of a text start with a byte of its first character, and that character is read
there. It takes as many more bytes as it has. -/
theorem exists_encode_cons (c : Char) (text : List Char) :
    ∃ byte more, encode (c :: text) = byte :: (more ++ encode text) ∧
      leading? (byte :: (more ++ encode text)) = some (c, more.length + 1) := by
  have read := leading?_utf8EncodeChar c (encode text)
  have bytes : encode (c :: text) = String.utf8EncodeChar c ++ encode text := rfl
  cases shown : String.utf8EncodeChar c with
  | nil => exact absurd shown String.utf8EncodeChar_ne_nil
  | cons byte more =>
    rw [shown] at read bytes
    exact ⟨byte, more, bytes, read⟩

/-- The bytes that belong to the character read last are passed over. The induction is on these
bytes. -/
theorem decodeLenientFrom_append (bytes rest : List UInt8) :
    decodeLenientFrom bytes.length (bytes ++ rest) = decodeLenientFrom 0 rest := by
  induction bytes with
  | nil => rfl
  | cons byte bytes inductionHypothesis => exact inductionHypothesis

/-- Reading the bytes of a text gives the text.

Proof: induction over the text. Its first character is read from its own bytes, and the
rest of them is passed over. -/
theorem decodeLenient_encode (text : List Char) : decodeLenient (encode text) = text := by
  induction text with
  | nil => rfl
  | cons c text inductionHypothesis =>
    obtain ⟨byte, more, bytes, read⟩ := exists_encode_cons c text
    rw [bytes, decodeLenient, decodeLenientFrom]
    simp only [read, Nat.add_sub_cancel, decodeLenientFrom_append]
    rw [← decodeLenient, inductionHypothesis]

/-- A strict reading passes over the bytes of the character read last, as a lenient one does. -/
theorem decodeFrom?_append (bytes rest : List UInt8) :
    decodeFrom? bytes.length (bytes ++ rest) = decodeFrom? 0 rest := by
  induction bytes with
  | nil => rfl
  | cons byte bytes inductionHypothesis => exact inductionHypothesis

/-- A strict reading of the bytes of a text gives the text and does not fail. The induction is on
the text, as it is for the lenient reading. -/
theorem decode?_encode (text : List Char) : decode? (encode text) = some text := by
  induction text with
  | nil => rfl
  | cons c text inductionHypothesis =>
    obtain ⟨byte, more, bytes, read⟩ := exists_encode_cons c text
    rw [bytes, decode?, decodeFrom?]
    simp only [read, Nat.add_sub_cancel, decodeFrom?_append]
    rw [← decode?, inductionHypothesis]
    rfl

/-- The bytes of two texts stand one after the other. -/
theorem encode_append (left right : List Char) :
    encode (left ++ right) = encode left ++ encode right := List.flatMap_append

/-- The number of bytes that a text takes. -/
def byteCount (text : List Char) : Nat := (encode text).length

/-- The bytes of two texts together are as many as those of the one and of the other. -/
theorem byteCount_append (left right : List Char) :
    byteCount (left ++ right) = byteCount left + byteCount right := by
  simp [byteCount, encode_append]

/-- A text takes as many bytes as its characters take, from one to four each. -/
theorem byteCount_eq_sum (text : List Char) : byteCount text = (text.map Char.utf8Size).sum := by
  simp [byteCount, encode, List.length_flatMap]

end ScreenAtlas.Text

namespace ScreenAtlas.Script

open ScreenAtlas.Text

/-- A source holds a text at a place among its bytes. -/
def Parsed.Holds (parsed : Parsed) (offset : Nat) (text : List Char) : Prop :=
  (parsed.bytes.drop offset).take (byteCount text) = encode text

/-- A source holds its own text at its start, whatever its tree is. -/
theorem Parsed.holds_whole (root : Node) (text : List Char) :
    Parsed.Holds { root, bytes := encode text } 0 text := by
  simp [Holds, byteCount]

/-- A source that holds a text holds its first part at the same place. -/
theorem Parsed.Holds.left {parsed : Parsed} {offset : Nat} {left right : List Char}
    (held : parsed.Holds offset (left ++ right)) : parsed.Holds offset left := by
  have front : (encode left ++ encode right).take (byteCount left) = encode left :=
    List.take_left
  have part := congrArg (List.take (byteCount left)) held
  rw [List.take_take, byteCount_append, Nat.min_eq_left (Nat.le_add_right _ _), encode_append,
    front] at part
  exact part

/-- A source that holds a text holds its second part behind the bytes of the first. -/
theorem Parsed.Holds.right {parsed : Parsed} {offset : Nat} {left right : List Char}
    (held : parsed.Holds offset (left ++ right)) :
    parsed.Holds (offset + byteCount left) right := by
  have behind : (encode left ++ encode right).drop (byteCount left) = encode right :=
    List.drop_left
  have part := congrArg (List.drop (byteCount left)) held
  rw [List.drop_take, byteCount_append, Nat.add_sub_cancel_left, List.drop_drop, encode_append,
    behind] at part
  exact part

/-- The text of a node is what the source holds where the node stands, when the span of the node
has as many bytes. -/
theorem Parsed.textOf_eq {parsed : Parsed} {node : Node} {text : List Char}
    (held : parsed.Holds node.span.start text)
    (stop : node.span.stop = node.span.start + byteCount text) : parsed.textOf node = text := by
  rw [textOf, stop, Nat.add_sub_cancel_left, held, decodeLenient_encode]

end ScreenAtlas.Script
