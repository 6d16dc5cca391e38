/-!
# Text as bytes

Source files are stored as UTF-8. Reading is strict for files, where one
malformed byte makes the whole text unreadable, and lenient for the text of a
syntax node, where malformed bytes are left out: the span of a node need not fall
on character boundaries. Both readings walk the bytes once; a character of
several bytes is passed over by counting, so the recursion stays on the list.
-/
namespace ScreenAtlas.Text

/-- The bytes of a text. -/
def encode (text : List Char) : List UInt8 := text.flatMap String.utf8EncodeChar

/-- The low six bits of a byte that continues a character whose next byte lies in
the given range. -/
def continuation? (low high : Nat) : List UInt8 → Option (Nat × List UInt8)
  | [] => none
  | byte :: rest =>
    if low ≤ byte.toNat && byte.toNat ≤ high then some (byte.toNat % 0x40, rest) else none

/-- The character that starts a byte sequence, and how many bytes it takes. The
bounds on the second byte exclude over-long forms, surrogates and positions past
the last character. -/
def leading? : List UInt8 → Option (Char × Nat)
  | [] => none
  | byte :: rest =>
    let lead := byte.toNat
    if lead < 0x80 then some (Char.ofNat lead, 1)
    else if 0xC2 ≤ lead && lead ≤ 0xDF then do
      let (second, _) ← continuation? 0x80 0xBF rest
      return (Char.ofNat (lead % 0x20 * 0x40 + second), 2)
    else if 0xE0 ≤ lead && lead ≤ 0xEF then do
      let (second, rest) ←
        continuation? (if lead == 0xE0 then 0xA0 else 0x80)
          (if lead == 0xED then 0x9F else 0xBF) rest
      let (third, _) ← continuation? 0x80 0xBF rest
      return (Char.ofNat ((lead % 0x10 * 0x40 + second) * 0x40 + third), 3)
    else if 0xF0 ≤ lead && lead ≤ 0xF4 then do
      let (second, rest) ←
        continuation? (if lead == 0xF0 then 0x90 else 0x80)
          (if lead == 0xF4 then 0x8F else 0xBF) rest
      let (third, rest) ← continuation? 0x80 0xBF rest
      let (fourth, _) ← continuation? 0x80 0xBF rest
      return (Char.ofNat (((lead % 0x08 * 0x40 + second) * 0x40 + third) * 0x40 + fourth), 4)
    else none

/-- Reads bytes leniently; `skip` bytes belong to the character read last. -/
def decodeLenientFrom (skip : Nat) : List UInt8 → List Char
  | [] => []
  | byte :: rest =>
    match skip with
    | skip + 1 => decodeLenientFrom skip rest
    | 0 =>
      match leading? (byte :: rest) with
      | some (c, width) => c :: decodeLenientFrom (width - 1) rest
      | none => decodeLenientFrom 0 rest

/-- The text of a byte sequence with malformed bytes left out. -/
def decodeLenient (bytes : List UInt8) : List Char := decodeLenientFrom 0 bytes

/-- Reads bytes strictly; `skip` bytes belong to the character read last. -/
def decodeFrom? (skip : Nat) : List UInt8 → Option (List Char)
  | [] => some []
  | byte :: rest =>
    match skip with
    | skip + 1 => decodeFrom? skip rest
    | 0 =>
      match leading? (byte :: rest) with
      | some (c, width) => (decodeFrom? (width - 1) rest).map (c :: ·)
      | none => none

/-- The text of a byte sequence; none when a byte is malformed. -/
def decode? (bytes : List UInt8) : Option (List Char) := decodeFrom? 0 bytes

end ScreenAtlas.Text
