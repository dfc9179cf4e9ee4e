import ObjectStore.Database.Binding

/-!
# Boxes

A `TypedBox` stores the objects of one entity type.  Every operation but `putAsync` runs in a
transaction of its own, which is committed if the operation succeeds and aborted if it fails, and
the error is passed on as it is.  `putAsync` hands the object to the queue instead.

An object without an ID is put under a new one and must not meet another object there; an object
with an ID replaces what is stored under it.  Putting returns the object with its ID.
-/

namespace ObjectStore

/-- An operation on a database, which it may change even if it fails. -/
abbrev Operation (σ : Type) := EStateM BoxError (Context σ)

namespace Operation

variable {σ α : Type}

/-- Succeeds or fails without a change. -/
def lift : Except BoxError α → Operation σ α
  | .ok a => pure a
  | .error e => throw e

/-- Looks at the database. -/
def query (f : Database → Except BoxError α) : Operation σ α := do
  lift (f (← get).db)

/-- Changes the database, unless that fails. -/
def update (f : Database → Except BoxError (α × Database)) : Operation σ α := do
  let (a, db) ← query f
  modify fun ctx => { ctx with db := db }
  return a

/-- A call on the store. -/
def store (f : Store → Except StoreError (α × Store)) : Operation σ α :=
  update fun db =>
    match f db.store with
    | .ok (a, store) => .ok (a, { db with store := store })
    | .error e => .error (.ofStore e)

/-- A step that only the store's rules can refuse. -/
def liftStore (r : Except StoreError α) : Operation σ α := lift (r.mapError .ofStore)

/-- An operation together with its failure as a result. -/
def attempt (x : Operation σ α) : Operation σ (Except BoxError α) := fun ctx =>
  match x ctx with
  | .ok a ctx => .ok (.ok a) ctx
  | .error e ctx => .ok (.error e) ctx

end Operation

/-- The objects of one entity type. -/
structure TypedBox (σ α : Type) where
  binding : Binding σ α
  /-- The number that this box shares with its copies. -/
  number : BoxNumber

/-- The box for a binding. -/
def Database.boxOf {σ α : Type} (binding : Binding σ α) : Operation σ (TypedBox σ α) :=
  Operation.update fun db => do
    let (n, db) ← db.findOrOpen binding.type
    return (⟨binding, n⟩, db)

namespace TypedBox

open Operation

variable {σ α β : Type}

/-! ## Transactions -/

/-- The state of a box, which has to be open. -/
def require (b : TypedBox σ α) : Operation σ BoxState :=
  query fun db => db.requireBox b.binding.type b.number

/-- Opens a write transaction. -/
def beginWrite : Operation σ Overlay := do
  query Database.requireOpen
  store Store.openWriter

/-- Commits a write transaction; it is over even where that fails. -/
def commit (changes : Overlay) : Operation σ Unit := do
  match ← attempt (store fun s => (s.commit changes).map ((), ·)) with
  | .ok () => return ()
  | .error e =>
    store fun s => .ok ((), s.releaseWriter)
    throw e

/-- Runs work in a write transaction of its own. -/
def write (b : TypedBox σ α) (work : Overlay → Operation σ (β × Overlay)) :
    Operation σ β := do
  let _ ← b.require
  let changes ← beginWrite
  match ← attempt (do
    query fun db => (db.store.requireType b.binding.type).mapError .ofStore
    work changes) with
  | .ok (result, changes) =>
    commit changes
    return result
  | .error e =>
    store fun s => .ok ((), s.releaseWriter)
    throw e

/-- Answers from the committed objects of the box's type. -/
def read (b : TypedBox σ α) (answer : Payloads → Except BoxError β) : Operation σ β := do
  let _ ← b.require
  let snapshot ← query fun db => do
    db.requireOpen
    let snapshot ← db.store.snapshot.mapError .ofStore
    (db.store.requireType b.binding.type).mapError .ofStore
    return snapshot
  lift (answer (snapshot.payloads b.binding.type))

/-! ## Putting -/

/-- The bytes of an object, made with a builder; beside them stands the builder after use. -/
def serialize (b : TypedBox σ α) (object : α) (id : ObjectId) (builder : Builder) :
    Operation σ (Except BoxError Bytes × Builder) := fun ctx =>
  let (outcome, bench, ctx) := (b.binding.assemble object id).run (.ofBuilder builder) ctx
  match outcome with
  | .error e => .ok (.error e, bench.builder) ctx
  | .ok () =>
    match bench.builder.deliver with
    | .ok (bytes, builder) => .ok (.ok bytes, builder) ctx
    | .error e => .ok (.error (.codec e), bench.builder) ctx

/-- Asks for the ID to put an object under, zero standing for a new one. -/
def issueId (b : TypedBox σ α) (candidate : ObjectId) : Operation σ ObjectId :=
  store fun s => s.issueId b.binding.type candidate

/-- Puts an object within a write transaction. -/
def putWithin (b : TypedBox σ α) (object : α) (changes : Overlay) (builder : Builder) :
    Operation σ (ObjectId × Overlay × Builder) := do
  let current ← lift (b.binding.idOf object)
  let id ← b.issueId current
  let (outcome, builder) ← b.serialize object id builder
  let bytes ← lift outcome
  let changes ← liftStore (changes.put b.binding.type id bytes (current ≠ 0))
  return (id, changes, builder.reset)

/-- Puts objects one after the other within a write transaction. -/
def putEachWithin (b : TypedBox σ α) :
    List α → Overlay → Builder → Operation σ (List ObjectId × Overlay)
  | [], changes, _ => return ([], changes)
  | object :: objects, changes, builder => do
    let (id, changes, builder) ← b.putWithin object changes builder
    let (ids, changes) ← b.putEachWithin objects changes builder
    return (id :: ids, changes)

/-- Puts an object. -/
def put (b : TypedBox σ α) (object : α) : Operation σ (ObjectId × α) := do
  let id ← b.write fun changes => do
    let (id, changes, _) ← b.putWithin object changes .new
    return (id, changes)
  return (id, b.binding.withId object id)

/-- Puts all objects in one transaction.  Without objects nothing happens, not even on a closed
box. -/
def putAll (b : TypedBox σ α) (objects : List α) : Operation σ (List ObjectId × List α) := do
  if objects.isEmpty then return ([], [])
  let ids ← b.write fun changes => b.putEachWithin objects changes .new
  return (ids, List.zipWith b.binding.withId objects ids)

/-- Borrows a builder for an asynchronous put. -/
def borrow (b : TypedBox σ α) : Operation σ Loan :=
  update fun db => do
    let box ← db.requireBox b.binding.type b.number
    let (loan, lender) := box.lender.lend
    return (loan, db.setLender b.number lender)

/-- Gives a borrowed builder back. -/
def giveBack (b : TypedBox σ α) (loan : Loan) : Operation σ Unit :=
  modify fun ctx =>
    match ctx.db.boxes[b.number]? with
    | some box => { ctx with db := ctx.db.setLender b.number (box.lender.takeBack loan) }
    | none => ctx

/-- Queues an object to be put. -/
def putAsync (b : TypedBox σ α) (object : α) : Operation σ (ObjectId × α) := do
  let _ ← b.require
  let current ← lift (b.binding.idOf object)
  let id ← b.issueId current
  let loan ← b.borrow
  let (outcome, builder) ← b.serialize object id loan.builder
  let queued ← attempt (do
    let bytes ← lift outcome
    store fun s => (s.enqueue ⟨b.binding.type, id, bytes, current ≠ 0⟩).map ((), ·))
  b.giveBack (loan.withBuilder builder)
  lift queued
  return (id, b.binding.withId object id)

/-! ## Reading and removing -/

/-- The object with an ID, if there is one. -/
def get (b : TypedBox σ α) (id : ObjectId) : Operation σ (Option α) :=
  b.read fun payloads =>
    match payloads.get? id with
    | some bytes => (b.binding.restore bytes).map some
    | none => .ok none

/-- All objects by ascending ID. -/
def getAll (b : TypedBox σ α) : Operation σ (List α) :=
  b.read fun payloads => payloads.values.mapM b.binding.restore

/-- Whether there is an object with an ID. -/
def contains (b : TypedBox σ α) (id : ObjectId) : Operation σ Bool :=
  b.read fun payloads => .ok (payloads.contains id)

/-- How many objects there are. -/
def count (b : TypedBox σ α) : Operation σ Nat := b.read fun payloads => .ok payloads.size

/-- Removes the object with an ID. -/
def remove (b : TypedBox σ α) (id : ObjectId) : Operation σ Unit :=
  b.write fun changes => do
    let changes ← liftStore (changes.remove b.binding.type id)
    return ((), changes)

/-- Removes all objects. -/
def removeAll (b : TypedBox σ α) : Operation σ Unit :=
  b.write fun changes => return ((), (changes.removeAll b.binding.type).2)

/-! ## The box itself -/

/-- Closes the box and every box that shares its number. -/
def close (b : TypedBox σ α) : Operation σ Unit :=
  update fun db => (db.closeBox b.binding.type b.number).map ((), ·)

/-- Whether the box is closed. -/
def isClosed (b : TypedBox σ α) (db : Database) : Bool := !db.isOpen b.number

/-- The text of a box. -/
def text (b : TypedBox σ α) (db : Database) : String :=
  "EntityBox \x7b entity: " ++ Text.quoted b.binding.name ++
    ", type_id: " ++ TypeId.description b.binding.type ++
    ", closed: " ++ toString (b.isClosed db) ++ " \x7d"

end TypedBox

/-- Waits until every asynchronous put was applied. -/
def Database.awaitPuts {σ : Type} : Operation σ Unit :=
  Operation.update fun db => db.drain.map ((), ·)

/-- Closes the database and its boxes. -/
def Database.closeAll {σ : Type} : Operation σ Unit :=
  Operation.update fun db => db.close.map ((), ·)

end ObjectStore
