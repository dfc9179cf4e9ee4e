import ObjectStore.Object.Basic

/-!
# The builder

A builder makes one object at a time.  It is idle at first; `start` gives it an object to fill,
`add` fills a slot of the object, `complete` takes the object as it is, and `pack` encodes it,
after which `packedBytes` yields the bytes.  `reset` makes the builder idle again, wherever it
was.  A call out of order fails; `complete` and `pack`, which take the state of the builder out to see
what it is, put it back then.

Completing an object yields a ticket, which `pack` asks for.  A ticket is good for the generation of
the builder that issued it, and every reset starts a new generation.
-/

namespace ObjectStore

/-- What a builder hands out for a complete object. -/
structure Ticket where
  /-- The builder generation that issued it. -/
  generation : UInt64
  deriving DecidableEq, Repr

/-- How far a builder is with its object. -/
inductive BuilderState
  /-- There is no object. -/
  | idle
  /-- Fields are being added to this object. -/
  | filling (object : Object)
  /-- This object is complete. -/
  | complete (object : Object)
  /-- The object was encoded as these bytes. -/
  | packed (bytes : Bytes)
  deriving DecidableEq

/-- A builder of objects. -/
structure Builder where
  /-- How far the object is. -/
  state : BuilderState
  /-- The number of resets so far. -/
  generation : UInt64
  deriving DecidableEq

/-- A call that works on a builder in place; it leaves the builder in some state also if it fails. -/
abbrev BuilderStep := EStateM ObjectError Builder

namespace BuilderStep

variable {α : Type}

/-- What a call comes to; the builder that a failing one leaves is not looked at. -/
def result (x : BuilderStep α) (b : Builder) : Except ObjectError (α × Builder) :=
  match x b with
  | .ok a b => .ok (a, b)
  | .error e _ => .error e

/-- The builder that a call leaves. -/
def left (x : BuilderStep α) (b : Builder) : Builder :=
  match x b with
  | .ok _ b => b
  | .error _ b => b

end BuilderStep

namespace Builder

/-- A new builder. -/
def new : Builder := ⟨.idle, 0⟩

/-- Whether a builder has no object. -/
def isIdle (b : Builder) : Bool :=
  match b.state with
  | .idle => true
  | _ => false

/-- Starts an object. -/
def start (b : Builder) (id : ObjectId) : Except ObjectError Builder :=
  match b.state with
  | .idle => .ok { b with state := .filling ⟨id, ∅⟩ }
  | _ => .error (.invalidState .objectInProgress)

/-- Adds a field to the object. -/
def add (b : Builder) (slot : Slot) (value : Value) : Except ObjectError Builder :=
  match b.state with
  | .filling object =>
    if object.fields.contains slot then .error (.duplicateSlot slot)
    else .ok { b with state := .filling { object with fields := object.fields.insert slot value } }
  | _ => .error (.invalidState .noObjectInProgress)

/-- Takes the state out of a builder, which is idle until it is given another. -/
def takeState : BuilderStep BuilderState := do
  let b ← get
  set { b with state := .idle }
  return b.state

/-- Gives a builder a state. -/
def giveState (state : BuilderState) : BuilderStep Unit := modify fun b => { b with state := state }

/-- Takes the object as it is and issues a ticket for it, in place. -/
def completeInPlace : BuilderStep Ticket := do
  match ← takeState with
  | .filling object =>
    giveState (.complete object)
    return ⟨(← get).generation⟩
  | other =>
    giveState other
    throw (.invalidState .notStarted)

/-- Takes the object as it is and issues a ticket for it. -/
def complete (b : Builder) : Except ObjectError (Ticket × Builder) := completeInPlace.result b

/-- Encodes the complete object, in place.  The ticket is judged first. -/
def packInPlace (ticket : Ticket) : BuilderStep Unit := do
  if ticket.generation ≠ (← get).generation then throw (.invalidState .staleTicket)
  match ← takeState with
  | .complete object => giveState (.packed object.encode)
  | other =>
    giveState other
    throw (.invalidState .notComplete)

/-- Encodes the complete object. -/
def pack (b : Builder) (ticket : Ticket) : Except ObjectError Builder :=
  ((packInPlace ticket).result b).map Prod.snd

/-- The bytes of the encoded object. -/
def packedBytes (b : Builder) : Except ObjectError Bytes :=
  match b.state with
  | .packed bytes => .ok bytes
  | _ => .error (.invalidState .notPacked)

/-- Makes the builder idle and starts a new generation. -/
def reset (b : Builder) : Builder := ⟨.idle, b.generation + 1⟩

/-- Completes and encodes the object that is being filled. -/
def deliver (b : Builder) : Except ObjectError (Bytes × Builder) := do
  let (ticket, b) ← b.complete
  let b ← b.pack ticket
  let bytes ← b.packedBytes
  return (bytes, b)

end Builder

end ObjectStore
