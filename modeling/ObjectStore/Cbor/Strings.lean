import ObjectStore.Cbor.Head
import ObjectStore.Text.Utf8

/-!
# Byte strings and text

A string of definite length is one segment.  A string of indefinite length is a sequence of
segments up to a break; between its segments there may stand further strings of indefinite length
and the same kind, to any depth.

A text segment that fits the reading buffer is read at once.  A longer one, and every segment
inside a text of indefinite length, is read in chunks: at most three bytes at a chunk's end that
are not yet a character are carried over to the next chunk.  Nothing may be left over at the end
of a segment.
-/

namespace ObjectStore.Cbor

/-- The size of the reading buffer. -/
def bufferSize : Nat := 4096

/-! ## Text segments -/

/-- Reads a text segment in chunks.  `unread` bytes are still to come, `carried` were read but are
no characters yet; the segment counts as standing at offset `start`. -/
def readChunks (start unread : Nat) (carried : Bytes) (_ : carried.length ≤ 3) (inp : Input) :
    Except ReadError (List Char × Input) :=
  if unread = 0 then
    if carried = [] then .ok ([], inp) else .error (.malformed start)
  else
    let size := min (bufferSize - carried.length) unread
    match inp.take size with
    | .error e => .error e
    | .ok (fresh, inp) =>
      let (cs, left) := Utf8.decodePrefix (carried ++ fresh)
      if h : left.length ≤ 3 then do
        let (cs', inp) ← readChunks start (unread - size) left h inp
        return (cs ++ cs', inp)
      else .error (.malformed start)
termination_by unread
decreasing_by
  simp only [bufferSize]
  omega

/-- Reads a text segment of at most the buffer's size. -/
def readWhole (start n : Nat) (inp : Input) : Except ReadError (List Char × Input) := do
  let (bs, inp) ← inp.take n
  match Utf8.decode? bs with
  | some cs => return (cs, inp)
  | none => throw (.malformed start)

/-- Reads a text of `n` bytes; it counts as standing at offset `start`. -/
def readText (start n : Nat) (inp : Input) : Except ReadError (List Char × Input) :=
  if n ≤ bufferSize then readWhole start n inp
  else readChunks start n [] (Nat.zero_le 3) inp

/-! ## Strings of indefinite length -/

/-- The two kinds of strings. -/
inductive StringKind
  | bytes
  | text
  deriving DecidableEq, Repr

/-- What a string of either kind is made of. -/
abbrev StringKind.Element : StringKind → Type
  | .bytes => UInt8
  | .text => Char

/-- Reads one segment of `n` bytes inside a string of indefinite length; its head stands at offset
`start`. -/
def StringKind.readSegment (start n : Nat) (inp : Input) :
    (kind : StringKind) → Except ReadError (List kind.Element × Input)
  | .bytes => inp.take n
  | .text => readChunks start n [] (Nat.zero_le 3) inp

/-- What a head stands for inside a string of indefinite length. -/
inductive Piece
  /-- A break. -/
  | stop
  /-- The start of a further string of indefinite length. -/
  | opening
  /-- A segment of `n` bytes. -/
  | segment (n : Nat)
  /-- Nothing that may stand there. -/
  | foreign
  deriving DecidableEq, Repr

/-- What a head stands for inside a string of the given kind. -/
def StringKind.piece : StringKind → Head → Piece
  | _, .stop => .stop
  | .bytes, .bytes none => .opening
  | .bytes, .bytes (some n) => .segment n
  | .text, .text none => .opening
  | .text, .text (some n) => .segment n
  | _, _ => .foreign

/-- Reads the segments of a string of indefinite length up to its break.  `level` further strings
are open inside it.  `fuel` bounds the number of heads, of which there are at most as many as
bytes. -/
def readSegments (kind : StringKind) :
    (fuel level : Nat) → Input → Except ReadError (List kind.Element × Input)
  | 0, _, _ => .error .endOfInput
  | fuel + 1, level, inp => do
    let (head, after) ← Head.read inp
    match kind.piece head, level with
    | .stop, 0 => return ([], after)
    | .stop, level + 1 => readSegments kind fuel level after
    | .opening, level => readSegments kind fuel (level + 1) after
    | .segment n, level =>
      let (xs, after) ← kind.readSegment inp.offset n after
      let (ys, after) ← readSegments kind fuel level after
      return (xs ++ ys, after)
    | .foreign, _ => throw (.malformed inp.offset)

end ObjectStore.Cbor
