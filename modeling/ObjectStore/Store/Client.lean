import ObjectStore.Store.Connection

/-!
# Clients

A `Client` is a process that uses stores from its threads, each over one connection.  It names
connections by number; `none` stands for a missing handle.  After every call, the calling thread's
last error is the cause of that call's failure, or absent if the call succeeded; other threads keep
theirs.
-/

namespace ObjectStore

/-- The number of a thread. -/
abbrev Thread := Nat

/-- A process with its connections and last errors. -/
structure Client where
  /-- Every connection that was opened. -/
  connections : SortedMap Handle Connection
  /-- The last error of each thread that has one. -/
  lastErrors : SortedMap Thread StoreError
  /-- The number of the next connection. -/
  nextConnection : Handle
  deriving DecidableEq

/-- A call of a client. -/
inductive ClientCall
  /-- Opens a store and a connection to it; without options the store gets the usual ones. -/
  | openStore (options : Option Options) (place : Bool)
  /-- A call on a connection. -/
  | on (connection : Option Handle) (call : Call)
  deriving DecidableEq, Repr

namespace Client

/-- A process that has opened nothing. -/
def new : Client := ⟨∅, ∅, 0⟩

/-- What a call answers and does, its trace in the last error apart. -/
def perform (c : Client) : ClientCall → Except StoreError Answer × Client
  | .openStore options place =>
    if place then
      let h := c.nextConnection
      (.ok (.opened h),
        { c with
          connections := c.connections.insert h (.new (options.getD {}))
          nextConnection := h + 1 })
    else (.error .nullPointer, c)
  | .on none call => (.error call.missingHandle, c)
  | .on (some h) call =>
    match c.connections.get? h with
    | none => (.error call.missingHandle, c)
    | some conn =>
      let (result, conn) := conn.call call
      (result, { c with connections := c.connections.insert h conn })

/-- Keeps the outcome of a call as the thread's last error. -/
def record (c : Client) (thread : Thread) (result : Except StoreError Answer) : Client :=
  match result with
  | .ok _ => { c with lastErrors := c.lastErrors.erase thread }
  | .error e => { c with lastErrors := c.lastErrors.insert thread e }

/-- Makes a call on a thread. -/
def call (c : Client) (thread : Thread) (call : ClientCall) : Except StoreError Answer × Client :=
  let (result, c) := c.perform call
  (result, c.record thread result)

/-- The last error of a thread. -/
def lastError (c : Client) (thread : Thread) : Option StoreError := c.lastErrors.get? thread

/-- The number of the status of a thread's last error, zero if there is none. -/
def lastErrorCode (c : Client) (thread : Thread) : Int32 :=
  match c.lastError thread with
  | some e => e.status.code
  | none => 0

/-- The wording of a thread's last error. -/
def lastErrorMessage (c : Client) (thread : Thread) : Option String :=
  (c.lastError thread).map StoreError.message

/-- Forgets the last error of a thread. -/
def clearLastError (c : Client) (thread : Thread) : Client :=
  { c with lastErrors := c.lastErrors.erase thread }

/-- Lets the workers of all stores go as far as they can. -/
def settle (c : Client) : Client :=
  { c with connections := c.connections.mapValues Connection.settle }

end Client

end ObjectStore
