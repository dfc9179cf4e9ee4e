import ObjectStore.Bytes

/-!
# UTF-8

A character is written as one to four bytes (`String.utf8EncodeChar`).  Reading takes the number of
bytes from the first one, puts the character together, and accepts it only if writing it gives those
bytes back, so an overlong form, a surrogate or a stray byte is no character.

`decodePrefix` reads as many characters as it can and returns the bytes it could not read.

Main statements: `decodeChar?_eq_some` (what is read is what writing produces) and
`encode_decodePrefix` (no byte is lost).
-/

namespace ObjectStore

namespace Utf8

/-- The bytes of a text. -/
def encode (cs : List Char) : Bytes := cs.flatMap String.utf8EncodeChar

/-- How many bytes a character takes that starts with byte `b`. -/
def width (b : UInt8) : Nat :=
  if b < 0x80 then 1 else if b < 0xE0 then 2 else if b < 0xF0 then 3 else 4

/-- The six low bits of a byte. -/
def low (b : UInt8) : Nat := b.toNat % 64

/-- The code point that one to four bytes spell. -/
def codePoint : Bytes → Nat
  | [a] => a.toNat
  | [a, b] => a.toNat % 32 * 64 + low b
  | [a, b, c] => a.toNat % 16 * 4096 + low b * 64 + low c
  | [a, b, c, d] => a.toNat % 8 * 262144 + low b * 4096 + low c * 64 + low d
  | _ => 0

/-- Reads one character. -/
def decodeChar? : Bytes → Option (Char × Bytes)
  | [] => none
  | b :: rest =>
    let spelled := (b :: rest).take (width b)
    let c := Char.ofNat (codePoint spelled)
    if String.utf8EncodeChar c = spelled then some (c, (b :: rest).drop (width b)) else none

/-- What is read is what writing the character produces. -/
theorem decodeChar?_eq_some {bs rest : Bytes} {c : Char} (h : decodeChar? bs = some (c, rest)) :
    bs = String.utf8EncodeChar c ++ rest := by
  cases bs with
  | nil => cases h
  | cons b tl =>
    simp only [decodeChar?] at h
    split at h
    · rename_i hs
      obtain ⟨rfl, rfl⟩ := Prod.mk.inj (Option.some.inj h)
      rw [hs, List.take_append_drop]
    · cases h

/-- A character takes at least one byte. -/
theorem length_lt_of_decodeChar? {bs rest : Bytes} {c : Char}
    (h : decodeChar? bs = some (c, rest)) : rest.length < bs.length := by
  rw [decodeChar?_eq_some h, List.length_append]
  have : 0 < (String.utf8EncodeChar c).length := by
    rw [String.length_utf8EncodeChar]
    exact c.utf8Size_pos
  omega

/-- Reads as many characters as possible; beside them stand the bytes that are left. -/
def decodePrefix (bs : Bytes) : List Char × Bytes :=
  match _h : decodeChar? bs with
  | none => ([], bs)
  | some (c, rest) =>
    let r := decodePrefix rest
    (c :: r.1, r.2)
termination_by bs.length
decreasing_by exact length_lt_of_decodeChar? _h

/-- Reads a whole text. -/
def decode? (bs : Bytes) : Option (List Char) :=
  match decodePrefix bs with
  | (cs, []) => some cs
  | _ => none

/-- The characters read and the bytes left make up the input. -/
theorem encode_decodePrefix (bs : Bytes) :
    encode (decodePrefix bs).1 ++ (decodePrefix bs).2 = bs := by
  fun_induction decodePrefix bs with
  | case1 bs h => rfl
  | case2 bs c rest h r ih =>
    rw [decodeChar?_eq_some h]
    simp only [encode, List.flatMap_cons, List.append_assoc] at ih ⊢
    rw [ih]

end Utf8

end ObjectStore
