/-!
# UTF-8 with errors

A text in UTF-8 may hold bytes that belong to no character. `decodeLossy` puts the replacement
character in their place, one for each longest run of bytes that begins a character and is not
completed, and one for each byte that begins none. The byte order mark at the start of a file is no
part of its text (`withoutByteOrderMark`).
-/

namespace FeatureQuery.Text

/-- How many bytes follow the first byte of a character, and in which range the second lies. -/
def continuation? (first : Nat) : Option (Nat × Nat × Nat) :=
  if first < 0x80 then some (0, 0, 0)
  else if 0xC2 ≤ first ∧ first ≤ 0xDF then some (1, 0x80, 0xBF)
  -- the shorter forms, the surrogates and what lies beyond the last code point are left out
  else if first = 0xE0 then some (2, 0xA0, 0xBF)
  else if first = 0xED then some (2, 0x80, 0x9F)
  else if 0xE1 ≤ first ∧ first ≤ 0xEF then some (2, 0x80, 0xBF)
  else if first = 0xF0 then some (3, 0x90, 0xBF)
  else if first = 0xF4 then some (3, 0x80, 0x8F)
  else if 0xF1 ≤ first ∧ first ≤ 0xF3 then some (3, 0x80, 0xBF)
  else none

/-- The bits of a first byte that belong to the code point. -/
def firstBits (first following : Nat) : Nat :=
  match following with
  | 0 => first
  | 1 => first - 0xC0
  | 2 => first - 0xE0
  | _ => first - 0xF0

/-- The character that stands for bytes that belong to none. -/
def replacement : Char := Char.ofNat 0xFFFD

/-- A character of which some bytes were read. -/
structure Pending where
  /-- The bits read so far. -/
  bits : Nat
  /-- How many bytes are still missing. -/
  missing : Nat
  /-- The least value of the next byte. -/
  low : Nat
  /-- The greatest value of the next byte. -/
  high : Nat

/-- What a byte gives where a character may begin: a character or the begin of one. -/
def beginChar (byte : Nat) : Char ⊕ Pending :=
  match continuation? byte with
  | none => .inl replacement
  | some (0, _, _) => .inl (Char.ofNat byte)
  | some (missing, low, high) => .inr ⟨firstBits byte missing, missing, low, high⟩

/-- The characters of bytes, some of which may belong to none. -/
def decodeBytes : Option Pending → List UInt8 → List Char
  | none, [] => []
  | some _, [] => [replacement]
  | begun, b :: bytes =>
    let byte := b.toNat
    let fresh := fun (before : List Char) => match beginChar byte with
      | .inl c => before ++ c :: decodeBytes none bytes
      | .inr begun => before ++ decodeBytes (some begun) bytes
    match begun with
    | none => fresh []
    | some begun =>
      if begun.low ≤ byte ∧ byte ≤ begun.high then
        let bits := begun.bits * 0x40 + (byte - 0x80)
        if begun.missing ≤ 1 then Char.ofNat bits :: decodeBytes none bytes
        else decodeBytes (some ⟨bits, begun.missing - 1, 0x80, 0xBF⟩) bytes
      -- the byte begins a character of its own, and what came before it is incomplete
      else fresh [replacement]

/-- The bytes of a text, without the byte order mark at its start. -/
def withoutByteOrderMark : List UInt8 → List UInt8
  | 0xEF :: 0xBB :: 0xBF :: bytes => bytes
  | bytes => bytes

/-- The text of a file. -/
def decodeLossy (bytes : ByteArray) : String :=
  String.ofList (decodeBytes none (withoutByteOrderMark bytes.data.toList))

end FeatureQuery.Text
