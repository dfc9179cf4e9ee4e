import ObjectStore.Store.PutQueue
import ObjectStore.Store.EntityType

/-!
# Stores

A store holds the registered types, the committed contents, the queue of asynchronous puts, and
whether a write transaction is open, of which there is at most one at a time.

The worker moves in steps of its own (`Store.workerStep?`): it takes a batch and reports it done at
any time, and it applies its batch when no write transaction is open.  `Store.settle` lets it go as
far as it can.
-/

namespace ObjectStore

/-- A store. -/
structure Store where
  /-- The registered entity types. -/
  types : SortedMap TypeId EntityType
  /-- What is committed. -/
  committed : Contents
  /-- Whether a write transaction is open. -/
  writing : Bool
  /-- The asynchronous puts. -/
  queue : PutQueue
  /-- Whether the store was closed. -/
  closed : Bool
  deriving DecidableEq

namespace Store

/-- A new store. -/
def new (options : Options) : Store :=
  { types := ∅
    committed := ∅
    writing := false
    queue := .ofOptions options
    closed := false }

/-- Fails on a closed store. -/
def requireOpen (s : Store) : Except StoreError Unit :=
  if s.closed then .error .storeClosed else .ok ()

/-! ## Entity types -/

/-- Registers an entity type; registering it again under its name changes nothing. -/
def register (s : Store) (type : TypeId) (name : String) : Except StoreError Store := do
  s.requireOpen
  if type = 0 then throw .reservedType
  if name = "" then throw .emptyEntityName
  match s.types.get? type with
  | some known => if known.name = name then return s else throw (.typeTaken type known.name)
  | none => return { s with types := s.types.insert type (.named name) }

/-- The registered type with a number. -/
def findType (s : Store) (type : TypeId) : Except StoreError EntityType :=
  match s.types.get? type with
  | some known => .ok known
  | none => .error (.unknownType type)

/-- Fails unless the store is open and the type registered. -/
def requireType (s : Store) (type : TypeId) : Except StoreError Unit := do
  s.requireOpen
  let _ ← s.findType type

/-- Issues the ID for a put. -/
def issueId (s : Store) (type : TypeId) (candidate : ObjectId) :
    Except StoreError (ObjectId × Store) := do
  s.requireOpen
  let known ← s.findType type
  let (id, known) ← known.issue candidate
  return (id, { s with types := s.types.insert type known })

/-! ## Transactions -/

/-- The committed contents, for a read transaction. -/
def snapshot (s : Store) : Except StoreError Contents := do
  s.requireOpen
  return s.committed

/-- Opens the write transaction. -/
def openWriter (s : Store) : Except StoreError (Overlay × Store) := do
  s.requireOpen
  if s.writing then throw .wouldWait
  return (.ofBase s.committed, { s with writing := true })

/-- Ends the write transaction without its changes. -/
def releaseWriter (s : Store) : Store := { s with writing := false }

/-- Makes changes to the committed contents and ends the write transaction. -/
def install (s : Store) (o : Overlay) : Store :=
  { s with committed := o.result s.committed, writing := false }

/-- Commits the write transaction. -/
def commit (s : Store) (o : Overlay) : Except StoreError Store := do
  s.requireOpen
  return s.install o

/-! ## Asynchronous puts -/

/-- Queues a put. -/
def enqueue (s : Store) (item : QueuedPut) : Except StoreError Store := do
  s.requireOpen
  checkPut item.id item.data
  let queue ← s.queue.push item
  return { s with queue := queue }

/-- The contents after a batch was applied as one change, every put on its own. -/
def afterBatch (contents : Contents) (batch : List QueuedPut) : Contents :=
  (batch.foldl Overlay.attempt (.ofBase contents)).result contents

/-- The worker applies its batch, if it has one and no write transaction is open. -/
def applyBatch? (s : Store) : Option Store :=
  match s.queue.worker with
  | .carrying batch =>
    if s.writing then none
    else
      some
        { s with
          committed := afterBatch s.committed batch
          queue := { s.queue with worker := .reporting batch } }
  | _ => none

/-- The next step of the worker, if it can make one: it takes a batch, applies it, reports it done,
or stops. -/
def workerStep? (s : Store) : Option Store :=
  match s.queue.worker with
  | .free => s.queue.next?.map fun queue => { s with queue := queue }
  | .carrying _ => s.applyBatch?
  | .reporting _ => s.queue.report?.map fun queue => { s with queue := queue }
  | .stopped => none

/-- Lets the worker make at most `n` steps. -/
def runWorker : (n : Nat) → Store → Store
  | 0, s => s
  | n + 1, s =>
    match s.workerStep? with
    | some s => runWorker n s
    | none => s

/-- Lets the worker go as far as it can: a batch takes at most three steps, it may have one more
batch in hand, and it may stop. -/
def settle (s : Store) : Store := runWorker (3 * s.queue.waiting.length + 3) s

/-- Waits until every accepted put has been applied. -/
def drain (s : Store) : Except StoreError Store := do
  s.requireOpen
  let s := s.settle
  if s.queue.isIdle then return s else throw .wouldWait

/-- Closes the store once the worker has applied every accepted put and has stopped. -/
def close (s : Store) : Except StoreError Store := do
  s.requireOpen
  let s := settle { s with queue := s.queue.stopAccepting }
  if s.queue.worker = .stopped then return { s with closed := true } else throw .wouldWait

end Store

end ObjectStore
