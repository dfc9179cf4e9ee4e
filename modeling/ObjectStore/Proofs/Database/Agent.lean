import Mathlib
import ObjectStore.Proofs.Database.Calls
import ObjectStore.Proofs.Store.LastErrors

/-!
# Boxes over a connection

Behind the operations of a database are calls of a client: a box has a handle, an operation begins a
transaction, opens a cursor, works with it, closes it and commits.  An `Agent` is a thread that does
this over a connection.  It sees of a call how it ended, and asks for the last error of its thread
before it goes on (`Errand.check`).  Where it fails, it still closes what it has opened
(`Errand.andAlways`, `Errand.onFailure`), and does not look at how that ends.

The thread is not alone: other threads and the workers go on between its calls, also between a call
and the question for its last error.  What is to come of them is part of an agent, and so is the
list of the calls that were made so far.
-/

namespace ObjectStore

/-! ## Calls that were made -/

/-- Whether a failure is an answer of the call: nothing is stored under an ID that is read. -/
def ClientCall.isAnsweredBy : ClientCall → StoreError → Bool
  | .on _ (.get _ _ _), e => e.status == .notFound
  | _, _ => false

/-- A call that was made. -/
structure MadeCall where
  call : ClientCall
  result : Except StoreError Answer
  /-- Whether its caller looks at how it ended. -/
  matters : Bool

/-- The failure of a call that its caller cannot go on after. -/
def MadeCall.failure? (m : MadeCall) : Option StoreError :=
  match m.result with
  | .ok _ => none
  | .error e => if m.matters && !m.call.isAnsweredBy e then some e else none

/-- What a caller sees of a call: its status, and the answer if there is one. -/
structure CallReply where
  status : Status
  answer : Option Answer

/-- What is seen of a call that ended so. -/
def CallReply.of (result : Except StoreError Answer) : CallReply := ⟨statusOf result, result.toOption⟩

/-- The ID in a reply, zero if there is none. -/
def CallReply.id (r : CallReply) : ObjectId :=
  match r.answer with
  | some (.id id) => id
  | _ => 0

/-! ## Agents -/

/-- A box as an agent keeps it, with its handle as long as it is open. -/
structure BoxCore where
  type : TypeId
  handle : Option Handle
  lender : Lender

/-- Something that happens, but is no call of the thread. -/
abbrev Elsewhere (thread : Thread) := { event : ClientEvent // event.isBy thread = false }

/-- A thread that works on a database over a connection. -/
structure Agent (σ : Type) (thread : Thread) where
  client : Client
  connection : Handle
  /-- Whether the database is open. -/
  isOpen : Bool
  /-- Every box that was opened, by number. -/
  cores : List BoxCore
  /-- The current box of a type. -/
  current : SortedMap TypeId BoxNumber
  /-- What happens before the next things that the thread does, one after the other. -/
  elsewhere : List (List (Elsewhere thread))
  /-- The calls that the thread made, without those that a binding made. -/
  made : List MadeCall
  user : σ

namespace Agent

variable {σ : Type} {thread : Thread}

/-- Lets happen what comes next. -/
def letHappen (a : Agent σ thread) : Agent σ thread :=
  match a.elsewhere with
  | [] => a
  | events :: rest =>
    { a with client := a.client.after (events.map Subtype.val), elsewhere := rest }

/-- The agent after its client did something and a call was noted. -/
def note (a : Agent σ thread) (client : Client) (m : MadeCall) : Agent σ thread :=
  { a with client := client, made := a.made ++ [m] }

end Agent

/-- What an agent does. -/
abbrev Errand (σ : Type) (thread : Thread) := EStateM BoxError (Agent σ thread)

namespace Errand

variable {σ α β : Type} {thread : Thread}

/-- Succeeds or fails at once. -/
def lift : Except BoxError α → Errand σ thread α
  | .ok a => pure a
  | .error e => throw e

/-! ## Calls -/

/-- Makes a call. -/
def invoke (matters : Bool) (c : ClientCall) : Errand σ thread CallReply := fun a =>
  let a := a.letHappen
  let (result, client) := a.client.call thread c
  .ok (.of result) (a.note client ⟨c, result, matters⟩)

/-- Asks the client something. -/
def ask (f : Client → α) : Errand σ thread α := fun a => .ok (f a.letHappen.client) a.letHappen

/-- The error for a call that has just failed, by the last error of the thread.  The status counts
only if there is none. -/
def lastError (status : Status) : Errand σ thread BoxError := do
  let code ← ask (Client.lastErrorCode · thread)
  let message ← ask (Client.lastErrorMessage · thread)
  return .ofStatus (if code = 0 then status.code else code)
    (message.getD ("engine call failed with status " ++ status.name))

/-- Fails unless a call has succeeded. -/
def check (status : Status) : Errand σ thread Unit := do
  if status.isOk then return () else throw (← lastError status)

/-- A call that has to succeed. -/
def demandCall (c : ClientCall) : Errand σ thread (Option Answer) := do
  let reply ← invoke true c
  check reply.status
  return reply.answer

/-- A call on the agent's own connection. -/
def own (c : Call) : Errand σ thread ClientCall := fun a => .ok (.on (some a.connection) c) a

/-- A call on the own connection that has to succeed. -/
def demand (c : Call) : Errand σ thread (Option Answer) := do demandCall (← own c)

/-- A request for an ID that has to succeed. -/
def demandId (c : Call) : Errand σ thread ObjectId := do
  let reply ← invoke true (← own c)
  if reply.id = 0 then throw (← lastError .error) else return reply.id

/-- The handle that a call has opened. -/
def opened (what : String) : Option Answer → Errand σ thread Handle
  | some (.opened h) => return h
  | _ => throw (.binding ("engine returned a null " ++ what ++ " handle"))

/-- A call on the own connection whose end does not matter. -/
def passOver (c : Call) : Errand σ thread Unit := do
  let _ ← invoke false (← own c)

/-! ## Cleaning up -/

/-- Does something, and then cleans up, whatever came of it. -/
def andAlways (x : Errand σ thread α) (cleanup : Errand σ thread Unit) : Errand σ thread α := fun a =>
  match x a with
  | .ok r a => (do cleanup; return r) a
  | .error e a => (do cleanup; throw e) a

/-- Does something, and cleans up only if it fails. -/
def onFailure (x : Errand σ thread α) (cleanup : Errand σ thread Unit) : Errand σ thread α := fun a =>
  match x a with
  | .ok r a => .ok r a
  | .error e a => (do cleanup; throw e) a

/-- Does something that may fail. -/
def regardless (x : Errand σ thread Unit) : Errand σ thread Unit := fun a =>
  match x a with
  | .ok _ a => .ok () a
  | .error _ a => .ok () a

/-! ## Transactions -/

/-- The database has to be open. -/
def requireOpen : Errand σ thread Unit := fun a =>
  if a.isOpen then .ok () a else .error .databaseClosed a

/-- Begins a transaction. -/
def begin (readOnly : Bool) : Errand σ thread Handle := do
  requireOpen
  opened "transaction" (← demand (.begin readOnly true))

/-- Works with a cursor on a type in a transaction of its own, which is committed if the work
succeeds and aborted if it fails. -/
def withCursor (type : TypeId) (readOnly : Bool) (work : Handle → Errand σ thread β) :
    Errand σ thread β := do
  let txn ← begin readOnly
  let result ← onFailure (do
      let cursor ← opened "cursor" (← demand (.openCursor txn type true))
      andAlways (work cursor) (passOver (.closeCursor cursor)))
    (passOver (.abort txn))
  let _ ← demand (.commit txn)
  return result

end Errand

/-! ## Boxes -/

/-- How the objects of an entity type are stored.  To put an object together a binding may do
anything with the database, over the same connection or another one. -/
structure AgentBinding (σ : Type) (thread : Thread) (α : Type) where
  type : TypeId
  name : String
  /-- The ID of an object, zero if it has none yet. -/
  idOf : α → Except BoxError ObjectId
  /-- The object with its ID replaced. -/
  withId : α → ObjectId → α
  /-- Starts an object with an ID and adds the fields. -/
  flatten : α → ObjectId → Workbench → Agent σ thread →
    Except BoxError Unit × Workbench × Agent σ thread
  /-- Whatever it does, it does by calls. -/
  isRun : ∀ object id bench a, ∃ events,
    (flatten object id bench a).2.2.client = a.client.after events
  /-- Reads an object back. -/
  restore : Bytes → Except BoxError α

/-- The objects of one entity type, over a connection. -/
structure AgentBox (σ : Type) (thread : Thread) (α : Type) where
  binding : AgentBinding σ thread α
  number : BoxNumber

namespace AgentBox

open Errand

variable {σ α β : Type} {thread : Thread}

/-- The handle of the box, which has to be open. -/
def require (b : AgentBox σ thread α) : Errand σ thread Handle := fun a =>
  match (a.cores[b.number]?).bind BoxCore.handle with
  | some h => .ok h a
  | none => .error (.boxClosed b.binding.type) a

/-- Runs work in a transaction of its own. -/
def run (b : AgentBox σ thread α) (readOnly : Bool) (work : Handle → Errand σ thread β) :
    Errand σ thread β := do
  let _ ← b.require
  withCursor b.binding.type readOnly work

/-! ### Putting -/

/-- The bytes of an object, made with a builder; beside them stands the builder after use. -/
def serialize (b : AgentBox σ thread α) (object : α) (id : ObjectId) (builder : Builder) :
    Errand σ thread (Except BoxError Bytes × Builder) := fun a =>
  let (outcome, bench, a') := b.binding.flatten object id (.ofBuilder builder) a
  -- the calls of the binding are not those of the agent
  let a' := { a' with made := a.made }
  match outcome with
  | .error e => .ok (.error e, bench.builder) a'
  | .ok () =>
    match bench.builder.deliver with
    | .ok (bytes, builder) => .ok (.ok bytes, builder) a'
    | .error e => .ok (.error (.codec e), bench.builder) a'

/-- Puts an object through a cursor. -/
def putWithin (b : AgentBox σ thread α) (object : α) (cursor : Handle) (builder : Builder) :
    Errand σ thread (ObjectId × Builder) := do
  let candidate ← lift (b.binding.idOf object)
  let id ← demandId (.cursorId cursor candidate)
  let (outcome, builder) ← b.serialize object id builder
  let bytes ← lift outcome
  let _ ← demand (.put cursor id (some bytes) (candidate ≠ 0))
  return (id, builder.reset)

/-- Puts objects one after the other through a cursor. -/
def putEachWithin (b : AgentBox σ thread α) :
    List α → Handle → Builder → Errand σ thread (List ObjectId)
  | [], _, _ => return []
  | object :: objects, cursor, builder => do
    let (id, builder) ← b.putWithin object cursor builder
    let ids ← b.putEachWithin objects cursor builder
    return id :: ids

/-- Puts an object. -/
def put (b : AgentBox σ thread α) (object : α) : Errand σ thread (ObjectId × α) := do
  let id ← b.run false fun cursor => do
    let (id, _) ← b.putWithin object cursor .new
    return id
  return (id, b.binding.withId object id)

/-- Puts all objects in one transaction; without objects nothing happens. -/
def putAll (b : AgentBox σ thread α) (objects : List α) :
    Errand σ thread (List ObjectId × List α) := do
  if objects.isEmpty then return ([], [])
  let ids ← b.run false fun cursor => b.putEachWithin objects cursor .new
  return (ids, List.zipWith b.binding.withId objects ids)

/-- Borrows the builder of the box. -/
def borrow (b : AgentBox σ thread α) : Errand σ thread Loan := fun a =>
  match a.cores[b.number]? with
  | some core =>
    .ok core.lender.lend.1
      { a with
        cores := a.cores.modify b.number fun core =>
          { core with lender := core.lender.lend.2 } }
  | none => .ok (.spare .new) a

/-- Gives a borrowed builder back. -/
def giveBack (b : AgentBox σ thread α) (loan : Loan) : Errand σ thread Unit := fun a =>
  .ok ()
    { a with
      cores := a.cores.modify b.number fun core =>
        { core with lender := core.lender.takeBack loan } }

/-- Queues an object to be put. -/
def putAsync (b : AgentBox σ thread α) (object : α) : Errand σ thread (ObjectId × α) := do
  let h ← b.require
  let candidate ← lift (b.binding.idOf object)
  let id ← demandId (.boxId h candidate)
  let loan ← b.borrow
  let (outcome, builder) ← b.serialize object id loan.builder
  andAlways (do
      let bytes ← lift outcome
      let _ ← demand (.putAsync h id (some bytes) (candidate ≠ 0)))
    (b.giveBack (loan.withBuilder builder))
  return (id, b.binding.withId object id)

/-! ### Reading and removing -/

/-- The object with an ID, if there is one. -/
def get (b : AgentBox σ thread α) (id : ObjectId) : Errand σ thread (Option α) :=
  b.run true fun cursor => do
    let reply ← invoke true (← own (.get cursor id true))
    if reply.status = .notFound then return none
    check reply.status
    match reply.answer with
    | some (.data bytes) => lift ((b.binding.restore bytes).map some)
    | _ => lift ((b.binding.restore []).map some)

/-- All objects by ascending ID. -/
def getAll (b : AgentBox σ thread α) : Errand σ thread (List α) :=
  b.run true fun cursor => do
    match ← demand (.getAll cursor true) with
    | some (.list payloads) => lift (payloads.mapM b.binding.restore)
    | _ => return []

/-- Whether there is an object with an ID. -/
def contains (b : AgentBox σ thread α) (id : ObjectId) : Errand σ thread Bool :=
  b.run true fun cursor => do
    match ← demand (.contains cursor id true) with
    | some (.flag found) => return found
    | _ => return false

/-- How many objects there are. -/
def count (b : AgentBox σ thread α) : Errand σ thread Nat :=
  b.run true fun cursor => do
    match ← demand (.count cursor true) with
    | some (.count n) => return n
    | _ => return 0

/-- Removes the object with an ID. -/
def remove (b : AgentBox σ thread α) (id : ObjectId) : Errand σ thread Unit :=
  b.run false fun cursor => do
    let _ ← demand (.remove cursor id)

/-- Removes all objects. -/
def removeAll (b : AgentBox σ thread α) : Errand σ thread Unit :=
  b.run false fun cursor => do
    let _ ← demand (.removeAll cursor true)

end AgentBox

/-! ## Databases -/

namespace Errand

variable {σ α : Type} {thread : Thread}

/-- The handle of a box is taken away, if it has one. -/
def takeHandle (type : TypeId) (n : BoxNumber) : Errand σ thread Handle := fun a =>
  match (a.cores[n]?).bind BoxCore.handle with
  | some h =>
    .ok h { a with cores := a.cores.modify n fun core => { core with handle := none } }
  | none => .error (.boxAlreadyClosed type) a

/-- Closes a box.  `matters` says whether the caller looks at how that ends. -/
def closeCore (matters : Bool) (type : TypeId) (n : BoxNumber) : Errand σ thread Unit := do
  let h ← takeHandle type n
  let reply ← invoke matters (← own (.closeBox h))
  check reply.status

/-- A new box is kept, and becomes the current one of its type. -/
def keepBox (type : TypeId) (h : Handle) : Errand σ thread BoxNumber := fun a =>
  .ok a.cores.length
    { a with
      cores := a.cores ++ [⟨type, some h, .new⟩]
      current := a.current.insert type a.cores.length }

/-- Opens a box. -/
def openCore (type : TypeId) : Errand σ thread BoxNumber := do
  requireOpen
  let h ← opened "box" (← demand (.openBox type true))
  keepBox type h

/-- The box of a type: the current one, or a new one if there is none or it was closed. -/
def boxOf (binding : AgentBinding σ thread α) : Errand σ thread (AgentBox σ thread α) := do
  let a ← get
  match a.current.get? binding.type with
  | some n =>
    if ((a.cores[n]?).bind BoxCore.handle).isSome then return ⟨binding, n⟩
    else return ⟨binding, ← openCore binding.type⟩
  | none => return ⟨binding, ← openCore binding.type⟩

/-- Waits until every asynchronous put was applied. -/
def awaitPuts : Errand σ thread Unit := do
  requireOpen
  let _ ← demand .awaitIdle

/-- Closes boxes; it does not matter how that ends. -/
def closeCores : List (TypeId × BoxNumber) → Errand σ thread Unit
  | [] => return ()
  | (type, n) :: rest => do
    regardless (closeCore false type n)
    closeCores rest

/-- The current boxes are no longer kept. -/
def takeCurrent : Errand σ thread (List (TypeId × BoxNumber)) := fun a =>
  .ok a.current.entries { a with current := ∅ }

/-- The database is no longer open. -/
def shut : Errand σ thread Unit := modify fun a => { a with isOpen := false }

/-- Closes the current boxes and the database. -/
def closeAll : Errand σ thread Unit := do
  if !(← get).isOpen then throw .databaseAlreadyClosed
  closeCores (← takeCurrent)
  shut
  let _ ← demand .close

/-- Registers an entity type. -/
def register (entity : EntityInfo) : Errand σ thread Unit := do
  if entity.name.toList.contains '\x00' then throw (.nulInName entity.name)
  requireOpen
  let _ ← demand (.register entity.type (some (Utf8.encode entity.name.toList)))

/-- Registers entity types in order, up to the first failure. -/
def registerEach : List EntityInfo → Errand σ thread Unit
  | [] => return ()
  | entity :: entities => do
    register entity
    registerEach entities

/-- The agent works over a new connection. -/
def adopt (connection : Handle) : Errand σ thread Unit := modify fun a =>
  { a with connection := connection, isOpen := true, cores := [], current := ∅ }

/-- Opens a database and registers its entity types.  If one of them fails, the store is closed
again. -/
def build (plan : DatabasePlan) : Errand σ thread Unit := do
  let h ← opened "store" (← demandCall (.openStore (some plan.config.options) true))
  adopt h
  onFailure (registerEach plan.entities) (do
    shut
    passOver .close)

end Errand

/-! ## Calls of a user -/

/-- Does an operation through a box. -/
def BoxOp.carryOut {σ α : Type} {thread : Thread} (b : AgentBox σ thread α) :
    BoxOp α → Errand σ thread (BoxAnswer α)
  | .put object => do
    let (id, object) ← b.put object
    return .stored id object
  | .putAll objects => do
    let (ids, objects) ← b.putAll objects
    return .storedAll ids objects
  | .get id => return .found (← b.get id)
  | .getAll => return .list (← b.getAll)
  | .contains id => return .flag (← b.contains id)
  | .count => return .count (← b.count)
  | .remove id => do
    b.remove id
    return .done
  | .removeAll => do
    b.removeAll
    return .done

/-- Makes a call on a box. -/
def BoxCall.carryOut {σ α : Type} {thread : Thread} (b : AgentBox σ thread α) :
    BoxCall α → Errand σ thread (BoxAnswer α)
  | .perform op => op.carryOut b
  | .putAsync object => do
    let (id, object) ← b.putAsync object
    return .stored id object
  | .close => do
    Errand.closeCore true b.binding.type b.number
    return .done

end ObjectStore
