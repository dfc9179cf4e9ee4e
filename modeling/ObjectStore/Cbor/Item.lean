import ObjectStore.Cbor.Strings

/-!
# Items

`Item` is a decoded value of any shape, and `Item.read` decodes one from the front of an input.
Arrays, maps and tags nest at most 256 levels deep; how deep the segments of strings nest does not
count, nor does a tag that is an integer together with its bytes.
-/

namespace ObjectStore.Cbor

/-- A decoded value. -/
inductive Item
  /-- An integer from `-2 ^ 64` to `2 ^ 64 - 1`. -/
  | int (n : Int)
  /-- An integer beyond that range. -/
  | bignum (n : Int)
  | bytes (bs : Bytes)
  | text (cs : List Char)
  | array (items : List Item)
  | map (entries : List (Item × Item))
  | tag (n : Nat) (content : Item)
  | bool (b : Bool)
  | null
  /-- A number in 64-bit binary format. -/
  | float (bits : Nat)

/-- A reader of what follows a head. -/
abbrev BodyReader (α : Type) := Head → Input → Except ReadError (α × Input)

/-! ## Sequences -/

/-- Reads `n` things that start with a head. -/
def readMany {α : Type} (body : BodyReader α) : Nat → Input → Except ReadError (List α × Input)
  | 0, inp => .ok ([], inp)
  | n + 1, inp => do
    let (head, inp) ← Head.read inp
    let (x, inp) ← body head inp
    let (xs, inp) ← readMany body n inp
    return (x :: xs, inp)

/-- Reads things that start with a head, up to a break.  `fuel` bounds their number, which is at
most the number of bytes. -/
def readUntilStop {α : Type} (body : BodyReader α) :
    (fuel : Nat) → Input → Except ReadError (List α × Input)
  | 0, _ => .error .endOfInput
  | fuel + 1, inp => do
    let (head, inp) ← Head.read inp
    if head = .stop then return ([], inp)
    let (x, inp) ← body head inp
    let (xs, inp) ← readUntilStop body fuel inp
    return (x :: xs, inp)

/-- Reads as many things as announced, or up to a break. -/
def readSequence {α : Type} (fuel : Nat) (body : BodyReader α) :
    Option Nat → Input → Except ReadError (List α × Input)
  | some n, inp => readMany body n inp
  | none, inp => readUntilStop body fuel inp

/-- Reads a pair whose first part starts with the given head. -/
def readPair (body : BodyReader Item) : BodyReader (Item × Item) := fun head inp => do
  let (key, inp) ← body head inp
  let (head, inp) ← Head.read inp
  let (value, inp) ← body head inp
  return ((key, value), inp)

/-! ## Integers of more than 64 bits -/

/-- The item for an integer. -/
def Item.ofInt (n : Int) : Item :=
  if -0x10000000000000000 ≤ n ∧ n < 0x10000000000000000 then .int n else .bignum n

/-- The length of the bytes that are an integer together with the tag before them: those of at most
sixteen bytes after tag 2 (the number `n`) or 3 (the number `-1 - n`). -/
def integerLength? (tag : Nat) : Head → Option Nat
  | .bytes (some n) => if (tag = 2 ∨ tag = 3) ∧ n ≤ 16 then some n else none
  | _ => none

/-- The integer that a tag and its bytes spell. -/
def bigInteger (tag : Nat) (bs : Bytes) : Except ReadError Item :=
  let n := ofBigEndian bs
  if tag = 2 then .ok (.ofInt n)
  else if n < 0x80000000000000000000000000000000 then .ok (.ofInt (-1 - n))
  else .error .integerTooLarge

/-! ## Items -/

/-- The item that a simple value stands for; undefined stands for null. -/
def Item.ofSimple? : Nat → Option Item
  | 20 => some (.bool false)
  | 21 => some (.bool true)
  | 22 => some .null
  | 23 => some .null
  | _ => none

/-- Where a string counts as standing whose head was just read: before the shortest spelling of
that head. -/
def stringStart (head : Head) (inp : Input) : Nat := inp.offset - head.write.length

/-- Reads what follows a head, with `inner` for what is nested inside it. -/
def readWith (fuel : Nat) (inner : Except ReadError (BodyReader Item)) : BodyReader Item
  | .unsigned n, inp => .ok (.int n, inp)
  | .negative n, inp => .ok (.int (-1 - n), inp)
  | .bytes (some n), inp => do
    let (bs, inp) ← inp.take n
    return (.bytes bs, inp)
  | .bytes none, inp => do
    let (bs, inp) ← readSegments .bytes fuel 0 inp
    return (.bytes bs, inp)
  | .text (some n), inp => do
    let (cs, inp) ← readText (stringStart (.text (some n)) inp) n inp
    return (.text cs, inp)
  | .text none, inp => do
    let (cs, inp) ← readSegments .text fuel 0 inp
    return (.text cs, inp)
  | .array length, inp => do
    let body ← inner
    let (items, inp) ← readSequence fuel body length inp
    return (.array items, inp)
  | .map length, inp => do
    let body ← inner
    let (entries, inp) ← readSequence fuel (readPair body) length inp
    return (.map entries, inp)
  | .tag tag, inp => do
    let (head, inp) ← Head.read inp
    match integerLength? tag head with
    | some n =>
      let (bs, inp) ← inp.take n
      let item ← bigInteger tag bs
      return (item, inp)
    | none =>
      let body ← inner
      let (content, inp) ← body head inp
      return (.tag tag content, inp)
  | .simple n, inp =>
    match Item.ofSimple? n with
    | some item => .ok (item, inp)
    | none => .error .unknownSimple
  | .float bits, inp => .ok (.float bits, inp)
  | .stop, _ => .error .strayBreak

/-- Reads what follows a head, with at most `depth` levels of arrays, maps and tags. -/
def readBody (fuel : Nat) : (depth : Nat) → BodyReader Item
  | 0 => readWith fuel (.error .tooDeep)
  | depth + 1 => readWith fuel (.ok (readBody fuel depth))

/-- How deep arrays, maps and tags may nest. -/
def maxDepth : Nat := 256

/-- Decodes one item and returns the input after it. -/
def Item.read (inp : Input) : Except ReadError (Item × Input) := do
  let (head, after) ← Head.read inp
  readBody (inp.rest.length + 1) maxDepth head after

/-- Decodes the item at the front of some bytes; what follows it is not looked at. -/
def Item.decode (bs : Bytes) : Except ReadError Item := do
  let (item, _) ← Item.read (.ofBytes bs)
  return item

end ObjectStore.Cbor
