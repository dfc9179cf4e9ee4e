import ObjectStore.Store.Basic
import ObjectStore.Text.Utf8

/-!
# Connections

A `Connection` is a store together with the handles that were given out on it: boxes, transactions
and cursors, each under a number that is never used twice.  A `Call` names handles by number, and a
number that stands for no live handle is as good as none.

`Connection.call` makes a call.  A failing call leaves the connection as it was, with two exceptions:
the commit of a write transaction on a closed store fails and ends the transaction, and a put that
is rejected has copied the type among the changes of its transaction.
-/

namespace ObjectStore

/-- The number of a handle. -/
abbrev Handle := Nat

/-- What a transaction works on. -/
inductive TxnMode
  /-- The contents that were committed when the transaction began. -/
  | read (snapshot : Contents)
  /-- The contents with the transaction's own changes. -/
  | write (changes : Overlay)
  deriving DecidableEq

/-- The payloads of a type that a transaction sees. -/
def TxnMode.payloads : TxnMode → TypeId → Payloads
  | .read snapshot, type => snapshot.payloads type
  | .write changes, type => changes.payloads type

/-- A cursor: a transaction and an entity type. -/
structure Cursor where
  txn : Handle
  type : TypeId
  deriving DecidableEq, Repr

/-- A call on a store or on a handle of it.  `place` says whether the caller gives a place for the
answer. -/
inductive Call
  | register (type : TypeId) (name : Option Bytes)
  | awaitIdle
  | close
  | openBox (type : TypeId) (place : Bool)
  | closeBox (box : Handle)
  /-- Asks for the ID of a put through a box. -/
  | boxId (box : Handle) (candidate : ObjectId)
  | putAsync (box : Handle) (id : ObjectId) (data : Option Bytes) (mayReplace : Bool)
  | begin (readOnly : Bool) (place : Bool)
  | commit (txn : Handle)
  | abort (txn : Handle)
  | openCursor (txn : Handle) (type : TypeId) (place : Bool)
  | closeCursor (cursor : Handle)
  /-- Asks for the ID of a put through a cursor. -/
  | cursorId (cursor : Handle) (candidate : ObjectId)
  | put (cursor : Handle) (id : ObjectId) (data : Option Bytes) (mayReplace : Bool)
  | get (cursor : Handle) (id : ObjectId) (place : Bool)
  | getAll (cursor : Handle) (place : Bool)
  | contains (cursor : Handle) (id : ObjectId) (place : Bool)
  | count (cursor : Handle) (place : Bool)
  | remove (cursor : Handle) (id : ObjectId)
  | removeAll (cursor : Handle) (place : Bool)
  deriving DecidableEq, Repr

/-- How a call fails whose handle is missing. -/
def Call.missingHandle : Call → StoreError
  | .closeBox _ => .boxClosed
  | .boxId _ _ => .boxClosed
  | .putAsync _ _ _ _ => .boxClosed
  | _ => .nullPointer

/-- What a successful call answers. -/
inductive Answer
  | done
  /-- The handle that was opened. -/
  | opened (handle : Handle)
  | id (id : ObjectId)
  | data (payload : Bytes)
  | list (payloads : List Bytes)
  | flag (b : Bool)
  | count (n : Nat)
  deriving DecidableEq, Repr

/-- A store and its live handles. -/
structure Connection where
  store : Store
  /-- The type of each open box. -/
  boxes : SortedMap Handle TypeId
  /-- The open transactions. -/
  txns : SortedMap Handle TxnMode
  /-- The open cursors. -/
  cursors : SortedMap Handle Cursor
  /-- The number of the next handle. -/
  nextHandle : Handle
  deriving DecidableEq

namespace Connection

/-- A new store, on which no handle was given out. -/
def new (options : Options) : Connection :=
  { store := .new options, boxes := ∅, txns := ∅, cursors := ∅, nextHandle := 0 }

/-! ## Looking up handles -/

/-- The text of an entity name, which ends before its first zero byte. -/
def entityName (bytes : Bytes) : Except StoreError String :=
  match Utf8.decode? (bytes.takeWhile (· != 0)) with
  | some cs => .ok (String.ofList cs)
  | none => .error .nameNotText

/-- The store's own handle is gone once the store is closed. -/
def ensureHandle (conn : Connection) : Except StoreError Unit :=
  if conn.store.closed then .error .nullPointer else .ok ()

/-- The type of an open box. -/
def box (conn : Connection) (h : Handle) : Except StoreError TypeId :=
  match conn.boxes.get? h with
  | some type => .ok type
  | none => .error .boxClosed

/-- The mode of an open transaction. -/
def txn (conn : Connection) (h : Handle) : Except StoreError TxnMode :=
  match conn.txns.get? h with
  | some mode => .ok mode
  | none => .error .nullPointer

/-- An open cursor together with the mode of its transaction. -/
def cursor (conn : Connection) (h : Handle) : Except StoreError (Cursor × TxnMode) :=
  match conn.cursors.get? h with
  | some c => do
    let mode ← conn.txn c.txn
    return (c, mode)
  | none => .error .nullPointer

/-- An open cursor together with the changes of its write transaction. -/
def writer (conn : Connection) (h : Handle) : Except StoreError (Cursor × Overlay) := do
  match ← conn.cursor h with
  | (c, .write changes) => return (c, changes)
  | (_, .read _) => throw .readOnly

/-- Something that the caller has to give. -/
def given {α : Type} : Option α → Except StoreError α
  | some a => .ok a
  | none => .error .nullPointer

/-- The place for the answer has to be given. -/
def needPlace (place : Bool) : Except StoreError Unit :=
  if place then .ok () else .error .nullPointer

/-! ## Changing handles -/

/-- Replaces the changes of a write transaction. -/
def setChanges (conn : Connection) (txn : Handle) (changes : Overlay) : Connection :=
  { conn with txns := conn.txns.insert txn (.write changes) }

/-- Takes a transaction out. -/
def endTxn (conn : Connection) (txn : Handle) : Connection :=
  { conn with txns := conn.txns.erase txn }

/-! ## Calls -/

/-- Opens a transaction. -/
def begin (conn : Connection) (readOnly : Bool) : Except StoreError (Answer × Connection) := do
  let h := conn.nextHandle
  if readOnly then
    let snapshot ← conn.store.snapshot
    return (.opened h,
      { conn with txns := conn.txns.insert h (.read snapshot), nextHandle := h + 1 })
  else
    let (changes, store) ← conn.store.openWriter
    return (.opened h,
      { conn with
        store := store
        txns := conn.txns.insert h (.write changes)
        nextHandle := h + 1 })

/-- Commits a transaction.  A read transaction is just ended. -/
def commit (conn : Connection) (h : Handle) : Except StoreError (Answer × Connection) := do
  match ← conn.txn h with
  | .read _ => return (.done, conn.endTxn h)
  | .write changes =>
    let store ← conn.store.commit changes
    return (.done, { conn.endTxn h with store := store })

/-- Aborts a transaction. -/
def abort (conn : Connection) (h : Handle) : Except StoreError (Answer × Connection) := do
  match ← conn.txn h with
  | .read _ => return (.done, conn.endTxn h)
  | .write _ => return (.done, { conn.endTxn h with store := conn.store.releaseWriter })

/-- Makes a call, with the store after it if it succeeds. -/
def call? (conn : Connection) : Call → Except StoreError (Answer × Connection)
  | .register type name => do
    conn.ensureHandle
    let name ← entityName (← given name)
    let store ← conn.store.register type name
    return (.done, { conn with store := store })
  | .awaitIdle => do
    conn.ensureHandle
    let store ← conn.store.drain
    return (.done, { conn with store := store })
  | .close => do
    conn.ensureHandle
    let store ← conn.store.close
    return (.done, { conn with store := store })
  | .openBox type place => do
    needPlace place
    conn.ensureHandle
    conn.store.requireType type
    let h := conn.nextHandle
    return (.opened h,
      { conn with boxes := conn.boxes.insert h type, nextHandle := h + 1 })
  | .closeBox h => do
    let _ ← conn.box h
    return (.done, { conn with boxes := conn.boxes.erase h })
  | .boxId h candidate => do
    let type ← conn.box h
    let (id, store) ← conn.store.issueId type candidate
    return (.id id, { conn with store := store })
  | .putAsync h id data mayReplace => do
    let type ← conn.box h
    let data ← given data
    let store ← conn.store.enqueue ⟨type, id, data, mayReplace⟩
    return (.done, { conn with store := store })
  | .begin readOnly place => do
    needPlace place
    conn.ensureHandle
    conn.begin readOnly
  | .commit h => conn.commit h
  | .abort h => conn.abort h
  | .openCursor txn type place => do
    needPlace place
    let _ ← conn.txn txn
    conn.store.requireType type
    let h := conn.nextHandle
    return (.opened h,
      { conn with cursors := conn.cursors.insert h ⟨txn, type⟩, nextHandle := h + 1 })
  | .closeCursor h => do
    let _ ← given (conn.cursors.get? h)
    return (.done, { conn with cursors := conn.cursors.erase h })
  | .cursorId h candidate => do
    let (c, _) ← conn.cursor h
    let (id, store) ← conn.store.issueId c.type candidate
    return (.id id, { conn with store := store })
  | .put h id data mayReplace => do
    let data ← given data
    let (c, changes) ← conn.writer h
    let changes ← changes.put c.type id data mayReplace
    return (.done, conn.setChanges c.txn changes)
  | .get h id place => do
    let (c, mode) ← conn.cursor h
    match (mode.payloads c.type).get? id with
    | none => throw (.notFound id)
    | some payload =>
      needPlace place
      return (.data payload, conn)
  | .getAll h place => do
    let (c, mode) ← conn.cursor h
    needPlace place
    return (.list (mode.payloads c.type).values, conn)
  | .contains h id place => do
    let (c, mode) ← conn.cursor h
    needPlace place
    return (.flag ((mode.payloads c.type).contains id), conn)
  | .count h place => do
    let (c, mode) ← conn.cursor h
    needPlace place
    return (.count (mode.payloads c.type).size, conn)
  | .remove h id => do
    let (c, changes) ← conn.writer h
    let changes ← changes.remove c.type id
    return (.done, conn.setChanges c.txn changes)
  | .removeAll h place => do
    let (c, changes) ← conn.writer h
    let (removed, changes) := changes.removeAll c.type
    return (if place then .count removed else .done, conn.setChanges c.txn changes)

/-- The connection after a call that failed: a write transaction that could not be committed has
ended, a put that reached the changes of its transaction may have copied the type there, and nothing
else has changed. -/
def afterFailure (conn : Connection) : Call → Connection
  | .commit h =>
    match conn.txns.get? h with
    | some (.write _) => { conn.endTxn h with store := conn.store.releaseWriter }
    | _ => conn
  | .put h id (some data) _ =>
    match conn.writer h with
    | .ok (c, changes) => conn.setChanges c.txn (changes.afterRefusedPut c.type id data)
    | .error _ => conn
  | _ => conn

/-- Makes a call. -/
def call (conn : Connection) (c : Call) : Except StoreError Answer × Connection :=
  match conn.call? c with
  | .ok (answer, conn) => (.ok answer, conn)
  | .error e => (.error e, conn.afterFailure c)

/-- Lets the worker go as far as it can. -/
def settle (conn : Connection) : Connection := { conn with store := conn.store.settle }

end Connection

end ObjectStore
