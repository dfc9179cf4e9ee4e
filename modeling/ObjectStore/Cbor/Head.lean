import ObjectStore.Cbor.Input
import ObjectStore.FloatFormat

/-!
# Heads

Every item starts with a head: an initial byte with a major type and five bits of additional
information, and up to eight bytes of argument.  A `Head` is what the head says; `Head.write` spells
it in the shortest form, and `Head.read` takes every form.
-/

namespace ObjectStore.Cbor

-- Powers are those of the core library, also where others are in sight.
attribute [local instance (high)] instPowNat

/-- What a head says.  A length of `none` announces content up to a break. -/
inductive Head
  /-- The number `n`. -/
  | unsigned (n : Nat)
  /-- The number `-1 - n`. -/
  | negative (n : Nat)
  /-- Bytes of this length. -/
  | bytes (length : Option Nat)
  /-- Text of this length in bytes. -/
  | text (length : Option Nat)
  /-- An array of this many items. -/
  | array (length : Option Nat)
  /-- A map of this many pairs. -/
  | map (length : Option Nat)
  /-- A tag on the item that follows. -/
  | tag (n : Nat)
  /-- A simple value. -/
  | simple (n : Nat)
  /-- A number in 64-bit binary format. -/
  | float (bits : Nat)
  /-- The end of content without a length. -/
  | stop
  deriving DecidableEq, Repr

namespace Head

/-! ## Writing -/

/-- The initial byte with major type `major` and additional information `info`. -/
def initial (major info : Nat) : UInt8 := UInt8.ofNat (major * 32 + info)

/-- A head of major type `major` with argument `n`, in the fewest bytes. -/
def argument (major n : Nat) : Bytes :=
  if n < 24 then [initial major n]
  else if n < 256 then initial major 24 :: bigEndian 1 n
  else if n < 0x10000 then initial major 25 :: bigEndian 2 n
  else if n < 0x100000000 then initial major 26 :: bigEndian 4 n
  else initial major 27 :: bigEndian 8 n

/-- A head of major type `major` with a length. -/
def sized (major : Nat) : Option Nat → Bytes
  | some n => argument major n
  | none => [initial major 31]

/-- A number of which the words in the two narrower formats are given, where there are any. -/
def narrowest (bits : Nat) : (half single : Option Nat) → Bytes
  | some narrowed, _ => initial 7 25 :: bigEndian 2 narrowed
  | none, some narrowed => initial 7 26 :: bigEndian 4 narrowed
  | none, none => initial 7 27 :: bigEndian 8 bits

/-- A number in the narrowest format that keeps all its bits. -/
def floating (bits : Nat) : Bytes :=
  narrowest bits (FloatFormat.half.narrow? bits) (FloatFormat.single.narrow? bits)

/-- The shortest spelling of a head. -/
def write : Head → Bytes
  | unsigned n => argument 0 n
  | negative n => argument 1 n
  | bytes length => sized 2 length
  | text length => sized 3 length
  | array length => sized 4 length
  | map length => sized 5 length
  | tag n => argument 6 n
  | simple n => if n < 24 then [initial 7 n] else [initial 7 24, UInt8.ofNat n]
  | float bits => floating bits
  | stop => [initial 7 31]

/-! ## Reading -/

/-- Reads the argument that additional information `info` announces; 31 announces none.  The head
started at offset `start`. -/
def readArgument (start info : Nat) (inp : Input) : Except ReadError (Option Nat × Input) :=
  if info < 24 then .ok (some info, inp)
  else if info < 28 then do
    let (bs, inp) ← inp.take (2 ^ (info - 24))
    return (some (ofBigEndian bs), inp)
  else if info < 31 then .error (.malformed start)
  else .ok (none, inp)

/-- What the last major type says: simple values, numbers in binary format, the break. -/
def special (info : Nat) : Option Nat → Head
  | some n =>
    if info = 25 then float (FloatFormat.half.widen n)
    else if info = 26 then float (FloatFormat.single.widen n)
    else if info = 27 then float n
    else simple n
  | none => stop

/-- What a major type says with the given argument; `none` where it needs an argument and has
none. -/
def assemble? (major info : Nat) (argument : Option Nat) : Option Head :=
  match major with
  | 0 => argument.map unsigned
  | 1 => argument.map negative
  | 2 => some (bytes argument)
  | 3 => some (text argument)
  | 4 => some (array argument)
  | 5 => some (map argument)
  | 6 => argument.map tag
  | _ => some (special info argument)

/-- Reads one head.  A head that makes no sense is malformed at its first byte. -/
def read (inp : Input) : Except ReadError (Head × Input) := do
  let (b, after) ← inp.next
  let (argument, after) ← readArgument inp.offset (b.toNat % 32) after
  match assemble? (b.toNat / 32) (b.toNat % 32) argument with
  | some head => return (head, after)
  | none => throw (.malformed inp.offset)

end Head

end ObjectStore.Cbor
