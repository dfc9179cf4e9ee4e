import ObjectStore.Cbor.Item

/-!
# Field values

A field holds one scalar value.  `Value.encode` writes it in the shortest form, and `Value.ofItem?`
takes it from a decoded item; arrays, maps, tags and integers beyond 64 signed bits are no values.
-/

namespace ObjectStore

/-- The value of a field. -/
inductive Value
  | null
  | bool (b : Bool)
  | int (n : Int64)
  /-- A number in 64-bit binary format, as its bits. -/
  | float (bits : UInt64)
  | text (s : String)
  | bytes (bs : Bytes)
  deriving DecidableEq, Inhabited, Repr

namespace Value

/-! ## Accessors -/

/-- The truth value, if it is one. -/
def asBool? : Value → Option Bool
  | bool b => some b
  | _ => none

/-- The integer, if it is one. -/
def asInt? : Value → Option Int64
  | int n => some n
  | _ => none

/-- The bits of the number in binary format, if it is one. -/
def asFloat? : Value → Option UInt64
  | float bits => some bits
  | _ => none

/-- The text, if it is one. -/
def asText? : Value → Option String
  | text s => some s
  | _ => none

/-- The bytes, if they are bytes. -/
def asBytes? : Value → Option Bytes
  | bytes bs => some bs
  | _ => none

/-- Equality of values with numbers in binary format compared as numbers: a NaN equals nothing, and
the two zeros are equal. -/
def numEq : Value → Value → Bool
  | float a, float b => FloatFormat.numEq a.toNat b.toNat
  | a, b => a == b

/-! ## Encoding -/

/-- The encoding of an integer. -/
def encodeInt (n : Int) : Bytes :=
  if 0 ≤ n then Cbor.Head.write (.unsigned n.toNat) else Cbor.Head.write (.negative (-1 - n).toNat)

/-- The shortest encoding of a value. -/
def encode : Value → Bytes
  | null => Cbor.Head.write (.simple 22)
  | bool b => Cbor.Head.write (.simple (if b then 21 else 20))
  | int n => encodeInt n.toInt
  | float bits => Cbor.Head.write (.float bits.toNat)
  | text s =>
    let bs := Utf8.encode s.toList
    Cbor.Head.write (.text (some bs.length)) ++ bs
  | bytes bs => Cbor.Head.write (.bytes (some bs.length)) ++ bs

/-- The value that a decoded item stands for. -/
def ofItem? : Cbor.Item → Option Value
  | .null => some null
  | .bool b => some (bool b)
  | .int n =>
    if -0x8000000000000000 ≤ n ∧ n < 0x8000000000000000 then some (int (Int64.ofInt n)) else none
  | .float bits => some (float (UInt64.ofNat bits))
  | .text cs => some (text (String.ofList cs))
  | .bytes bs => some (bytes bs)
  | _ => none

end Value

end ObjectStore
