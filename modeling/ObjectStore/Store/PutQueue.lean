import ObjectStore.Store.Contents
import ObjectStore.Store.Options

/-!
# The queue of asynchronous puts

Puts wait in a bounded queue.  A worker takes a batch off its front, applies the batch and reports
it done before it takes the next one.  A put that finds the queue full fails once its waiting time
is over and is not queued.  A closing queue accepts nothing more, and the worker stops once it has
taken everything that was accepted.
-/

namespace ObjectStore

/-- A put to be applied later. -/
structure QueuedPut where
  type : TypeId
  id : ObjectId
  data : Bytes
  /-- Whether an object under the ID is replaced; otherwise the put is rejected there. -/
  mayReplace : Bool
  deriving DecidableEq, Repr

/-- What the worker is at. -/
inductive Worker
  /-- It has nothing in hand. -/
  | free
  /-- It has taken this batch and not yet applied it. -/
  | carrying (batch : List QueuedPut)
  /-- It has applied this batch and not yet reported it done. -/
  | reporting (batch : List QueuedPut)
  /-- It will take no batch any more. -/
  | stopped
  deriving DecidableEq, Repr

/-- Whether the worker has no batch in hand. -/
def Worker.isIdle : Worker → Bool
  | .free => true
  | .stopped => true
  | _ => false

/-- Puts that wait, and the worker that takes them. -/
structure PutQueue where
  /-- How many puts may wait. -/
  capacity : Nat
  /-- How many puts a batch may have. -/
  maxBatch : Nat
  /-- How long a put waits for room. -/
  timeout : Duration
  /-- The puts that wait, the oldest first. -/
  waiting : List QueuedPut
  /-- What the worker is at. -/
  worker : Worker
  /-- Whether the queue takes no more puts. -/
  isClosing : Bool
  deriving DecidableEq, Repr

namespace PutQueue

/-- An empty queue with the limits of some options. -/
def ofOptions (opts : Options) : PutQueue :=
  { capacity := opts.withMinimums.queueCapacity
    maxBatch := opts.withMinimums.maxBatch
    timeout := opts.enqueueTimeout
    waiting := []
    worker := .free
    isClosing := false }

/-- Queues a put.  Where there is no room, nobody makes room while it waits. -/
def push (q : PutQueue) (item : QueuedPut) : Except StoreError PutQueue :=
  if q.isClosing then .error .queueClosing
  else if q.capacity ≤ q.waiting.length then .error (.queueFull q.capacity q.timeout)
  else .ok { q with waiting := q.waiting ++ [item] }

/-- A free worker takes the next batch, or stops if nothing waits and nothing more will come. -/
def next? (q : PutQueue) : Option PutQueue :=
  match q.worker with
  | .free =>
    if q.waiting ≠ [] then
      some
        { q with
          worker := .carrying (q.waiting.take q.maxBatch)
          waiting := q.waiting.drop q.maxBatch }
    else if q.isClosing then some { q with worker := .stopped }
    else none
  | _ => none

/-- The worker reports an applied batch done. -/
def report? (q : PutQueue) : Option PutQueue :=
  match q.worker with
  | .reporting _ => some { q with worker := .free }
  | _ => none

/-- Whether every accepted put was reported done. -/
def isIdle (q : PutQueue) : Bool := q.waiting.isEmpty && q.worker.isIdle

/-- Stops accepting puts; those that wait are still applied. -/
def stopAccepting (q : PutQueue) : PutQueue := { q with isClosing := true }

end PutQueue

/-- Applies one queued put; one that is rejected changes no object. -/
def Overlay.attempt (o : Overlay) (item : QueuedPut) : Overlay :=
  match o.put item.type item.id item.data item.mayReplace with
  | .ok o => o
  | .error _ => o.afterRefusedPut item.type item.id item.data

end ObjectStore
