import ObjectStore.Bytes

/-!
# The input of a reader

A reader takes bytes off the front of an `Input`, which knows how many were taken before, and either
returns what it read with the input that is left or one of the causes of `ReadError`.

Main statement: `take_eq_ok_iff`, taking bytes succeeds exactly when there are enough.
-/

namespace ObjectStore.Cbor

/-- Why bytes are not an encoded item. -/
inductive ReadError
  /-- The bytes run out inside the item. -/
  | endOfInput
  /-- The bytes at this offset are not well formed. -/
  | malformed (offset : Nat)
  /-- A simple value that has no meaning. -/
  | unknownSimple
  /-- A break where a value has to stand. -/
  | strayBreak
  /-- A negative number of more than 128 bits. -/
  | integerTooLarge
  /-- Arrays, maps and tags are nested too deeply. -/
  | tooDeep
  deriving DecidableEq, Repr

/-- The wording of a reading error. -/
def ReadError.message : ReadError → String
  | .endOfInput =>
    "Io(Error \x7b kind: UnexpectedEof, message: \"failed to fill whole buffer\" \x7d)"
  | .malformed offset => "Syntax(" ++ toString offset ++ ")"
  | .unknownSimple =>
    "Semantic(None, \"invalid type: simple, expected known simple value\")"
  | .strayBreak => "Semantic(None, \"invalid type: break, expected non-break\")"
  | .integerTooLarge => "Semantic(None, \"integer too large\")"
  | .tooDeep => "RecursionLimitExceeded"

/-- The bytes still to be read, and how many were read before them. -/
structure Input where
  /-- The number of bytes read so far. -/
  offset : Nat
  /-- The bytes still to be read. -/
  rest : Bytes
  deriving DecidableEq, Repr

namespace Input

/-- The start of some bytes. -/
def ofBytes (bs : Bytes) : Input := ⟨0, bs⟩

/-- Takes one byte. -/
def next (inp : Input) : Except ReadError (UInt8 × Input) :=
  match inp.rest with
  | [] => .error .endOfInput
  | b :: rest => .ok (b, ⟨inp.offset + 1, rest⟩)

/-- Takes `n` bytes. -/
def take (n : Nat) (inp : Input) : Except ReadError (Bytes × Input) :=
  let taken := inp.rest.take n
  if taken.length = n then .ok (taken, ⟨inp.offset + n, inp.rest.drop n⟩)
  else .error .endOfInput

/-- Taking bytes succeeds exactly when there are enough, and nothing else is taken. -/
theorem take_eq_ok_iff {n : Nat} {inp inp' : Input} {bs : Bytes} :
    inp.take n = .ok (bs, inp') ↔
      bs.length = n ∧ inp.rest = bs ++ inp'.rest ∧ inp'.offset = inp.offset + n := by
  obtain ⟨offset, rest⟩ := inp
  obtain ⟨offset', rest'⟩ := inp'
  simp only [take]
  constructor
  · intro h
    split at h
    · rename_i hn
      simp only [Except.ok.injEq, Prod.mk.injEq, Input.mk.injEq] at h
      obtain ⟨rfl, rfl, rfl⟩ := h
      exact ⟨hn, (List.take_append_drop n rest).symm, rfl⟩
    · cases h
  · rintro ⟨rfl, rfl, rfl⟩
    simp

end Input

end ObjectStore.Cbor
