import ObjectStore.Database.Config
import ObjectStore.Database.Error
import ObjectStore.Database.Loan
import ObjectStore.Store.Basic

/-!
# Databases

A `Database` is a store together with the boxes opened on it.  A box serves one entity type under
a number of its own, which everyone who uses the box shares.  The database keeps the current box
of each type and opens another one only after that was closed.  A box that was closed stays
closed.
-/

namespace ObjectStore

/-- The state of a box. -/
structure BoxState where
  type : TypeId
  isOpen : Bool
  /-- The builder for asynchronous puts. -/
  lender : Lender
  deriving DecidableEq

/-- The number of a box. -/
abbrev BoxNumber := Nat

/-- A store and its boxes. -/
structure Database where
  store : Store
  /-- Every box that was opened, by number. -/
  boxes : List BoxState
  /-- The current box of a type. -/
  current : SortedMap TypeId BoxNumber
  deriving DecidableEq

/-- The error for an operation on a closed box. -/
def BoxError.boxClosed (type : TypeId) : BoxError :=
  .closed ("box for " ++ TypeId.text type ++ " is closed")

/-- The error for closing a closed box. -/
def BoxError.boxAlreadyClosed (type : TypeId) : BoxError :=
  .closed ("box for " ++ TypeId.text type ++ " is already closed")

/-- The error for an operation on a closed database. -/
def BoxError.databaseClosed : BoxError := .closed "store is closed"

/-- The error for closing a closed database. -/
def BoxError.databaseAlreadyClosed : BoxError := .closed "store is already closed"

/-- The error for an entity name with a zero character. -/
def BoxError.nulInName (name : String) : BoxError :=
  .binding ("entity name " ++ Text.quoted name ++ " contains a NUL byte")

namespace Database

/-! ## Opening and closing -/

/-- Registers an entity type. -/
def register (s : Store) (entity : EntityInfo) : Except BoxError Store :=
  if entity.name.toList.contains '\x00' then .error (.nulInName entity.name)
  else (s.register entity.type entity.name).mapError .ofStore

/-- Opens a database and registers its entity types in order; the first one that fails counts. -/
def ofPlan (plan : DatabasePlan) : Except BoxError Database := do
  let store ← plan.entities.foldlM register (.new plan.config.options)
  return { store := store, boxes := [], current := ∅ }

/-- Whether the database was closed. -/
def isClosed (db : Database) : Bool := db.store.closed

/-- Fails on a closed database. -/
def requireOpen (db : Database) : Except BoxError Unit :=
  if db.isClosed then .error .databaseClosed else .ok ()

/-- Waits until every asynchronous put was applied. -/
def drain (db : Database) : Except BoxError Database := do
  db.requireOpen
  let store ← db.store.drain.mapError .ofStore
  return { db with store := store }

/-- Marks a box closed. -/
def markClosed (boxes : List BoxState) (n : BoxNumber) : List BoxState :=
  boxes.modify n fun box => { box with isOpen := false }

/-- Closes the store and the current boxes. -/
def close (db : Database) : Except BoxError Database :=
  if db.isClosed then .error .databaseAlreadyClosed
  else do
    let store ← db.store.close.mapError .ofStore
    return { store := store, boxes := db.current.values.foldl markClosed db.boxes, current := ∅ }

/-- The text of a database. -/
def text (db : Database) : String :=
  "ObjectBox \x7b closed: " ++ toString db.isClosed ++ ", boxes: " ++ toString db.current.size ++
    " \x7d"

/-- Lets the worker go as far as it can. -/
def settle (db : Database) : Database := { db with store := db.store.settle }

/-! ## Boxes -/

/-- Whether a box is open. -/
def isOpen (db : Database) (n : BoxNumber) : Bool :=
  match db.boxes[n]? with
  | some box => box.isOpen
  | none => false

/-- The state of a box of the given type, which has to be open. -/
def requireBox (db : Database) (type : TypeId) (n : BoxNumber) : Except BoxError BoxState :=
  match db.boxes[n]? with
  | some box => if box.isOpen then .ok box else .error (.boxClosed type)
  | none => .error (.boxClosed type)

/-- Opens a new box, which becomes the current one of its type. -/
def openBox (db : Database) (type : TypeId) : Except BoxError (BoxNumber × Database) := do
  db.requireOpen
  (db.store.requireType type).mapError .ofStore
  let n := db.boxes.length
  return (n,
    { db with
      boxes := db.boxes ++ [⟨type, true, .new⟩]
      current := db.current.insert type n })

/-- The box of a type: the current one, or a new one if there is none or it was closed. -/
def findOrOpen (db : Database) (type : TypeId) : Except BoxError (BoxNumber × Database) :=
  match db.current.get? type with
  | some n => if db.isOpen n then .ok (n, db) else db.openBox type
  | none => db.openBox type

/-- Closes a box. -/
def closeBox (db : Database) (type : TypeId) (n : BoxNumber) : Except BoxError Database :=
  if db.isOpen n then .ok { db with boxes := markClosed db.boxes n }
  else .error (.boxAlreadyClosed type)

/-- Replaces the lender of a box. -/
def setLender (db : Database) (n : BoxNumber) (lender : Lender) : Database :=
  { db with boxes := db.boxes.modify n fun box => { box with lender := lender } }

end Database

end ObjectStore
