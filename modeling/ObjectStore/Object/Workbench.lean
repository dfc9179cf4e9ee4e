import ObjectStore.Object.Builder

/-!
# Builder calls as data

A `BuilderCall` is a call on a builder, with the tickets that the builder issued so far named by
their numbers.  A `Workbench` is a builder together with those tickets, and `Workbench.call` makes
a call and gives its answer.
-/

namespace ObjectStore

/-- A call on a builder; tickets are numbered in the order in which they were issued. -/
inductive BuilderCall
  | start (id : ObjectId)
  | add (slot : Slot) (value : Value)
  | complete
  | pack (ticket : Nat)
  | packedBytes
  | isIdle
  | reset
  /-- Decodes the bytes of the encoded object. -/
  | decode
  /-- Compares two tickets. -/
  | sameTicket (a b : Nat)
  deriving DecidableEq, Repr

/-- What a call answers. -/
inductive BuilderAnswer
  | done
  /-- The number of a new ticket. -/
  | ticket (number : Nat)
  | bytes (bs : Bytes)
  | flag (b : Bool)
  | object (o : Object)
  deriving DecidableEq

/-- A builder and the tickets it issued. -/
structure Workbench where
  builder : Builder
  /-- The tickets by number. -/
  tickets : List Ticket
  deriving DecidableEq

namespace Workbench

/-- A workbench with a builder that has issued no ticket to it. -/
def ofBuilder (b : Builder) : Workbench := ⟨b, []⟩

/-- A workbench with a new builder. -/
def new : Workbench := ofBuilder .new

/-- The ticket with a number; a number without a ticket is as good as a stale ticket. -/
def ticket (w : Workbench) (number : Nat) : Except ObjectError Ticket :=
  match w.tickets[number]? with
  | some ticket => .ok ticket
  | none => .error (.invalidState .staleTicket)

/-- Makes a call; beside the answer stands the workbench after it, unless the call failed. -/
def call? (w : Workbench) : BuilderCall → Except ObjectError (BuilderAnswer × Workbench)
  | .start id => do
    let b ← w.builder.start id
    return (.done, { w with builder := b })
  | .add slot value => do
    let b ← w.builder.add slot value
    return (.done, { w with builder := b })
  | .complete => do
    let (ticket, b) ← w.builder.complete
    return (.ticket w.tickets.length, ⟨b, w.tickets ++ [ticket]⟩)
  | .pack number => do
    let ticket ← w.ticket number
    let b ← w.builder.pack ticket
    return (.done, { w with builder := b })
  | .packedBytes => do
    let bytes ← w.builder.packedBytes
    return (.bytes bytes, w)
  | .isIdle => .ok (.flag w.builder.isIdle, w)
  | .reset => .ok (.done, { w with builder := w.builder.reset })
  | .decode => do
    let bytes ← w.builder.packedBytes
    let object ← Object.decode bytes
    return (.object object, w)
  | .sameTicket a b => do
    let a ← w.ticket a
    let b ← w.ticket b
    return (.flag (a == b), w)

/-- The workbench after a call that failed, with the builder that the call has left. -/
def afterFailure (w : Workbench) : BuilderCall → Workbench
  | .complete => { w with builder := Builder.completeInPlace.left w.builder }
  | .pack number =>
    match w.ticket number with
    | .ok ticket => { w with builder := (Builder.packInPlace ticket).left w.builder }
    | .error _ => w
  | _ => w

/-- Makes a call. -/
def call (w : Workbench) (c : BuilderCall) : Except ObjectError BuilderAnswer × Workbench :=
  match w.call? c with
  | .ok (answer, w) => (.ok answer, w)
  | .error e => (.error e, w.afterFailure c)

/-- Makes calls one after the other and collects the answers. -/
def run (w : Workbench) : List BuilderCall → List (Except ObjectError BuilderAnswer) × Workbench
  | [] => ([], w)
  | c :: cs =>
    let (answer, w) := w.call c
    let (answers, w) := w.run cs
    (answer :: answers, w)

end Workbench

end ObjectStore
