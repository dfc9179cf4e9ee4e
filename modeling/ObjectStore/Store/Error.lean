import ObjectStore.Duration
import ObjectStore.Object.Basic

/-!
# Statuses and store errors

Every call on a store ends with a `Status`.  A failing call names its cause, a `StoreError`, which
determines the status and the wording.
-/

namespace ObjectStore

/-- The number of an entity type. -/
abbrev TypeId := UInt32

/-- How a call ended. -/
inductive Status
  | success
  /-- A failure without a kind of its own. -/
  | error
  | illegalArgument
  | notFound
  | illegalState
  | closed
  | nullPointer
  | readOnly
  | asyncQueueFull
  deriving DecidableEq, Repr

namespace Status

/-- The number of a status. -/
def code : Status → Int32
  | success => 0
  | error => 1
  | illegalArgument => 2
  | notFound => 3
  | illegalState => 4
  | closed => 5
  | nullPointer => 6
  | readOnly => 7
  | asyncQueueFull => 8

/-- The status with a number; an unknown number is a failure without a kind of its own. -/
def ofCode (n : Int32) : Status :=
  if n = 0 then success
  else if n = 2 then illegalArgument
  else if n = 3 then notFound
  else if n = 4 then illegalState
  else if n = 5 then closed
  else if n = 6 then nullPointer
  else if n = 7 then readOnly
  else if n = 8 then asyncQueueFull
  else error

/-- The name of a status. -/
def name : Status → String
  | success => "Success"
  | error => "Error"
  | illegalArgument => "IllegalArgument"
  | notFound => "NotFound"
  | illegalState => "IllegalState"
  | closed => "Closed"
  | nullPointer => "NullPointer"
  | readOnly => "ReadOnly"
  | asyncQueueFull => "AsyncQueueFull"

/-- Whether the call succeeded. -/
def isOk (s : Status) : Bool := s == success

/-- A status is found again under its number. -/
theorem ofCode_code (s : Status) : ofCode s.code = s := by cases s <;> rfl

end Status

/-- Why a call on a store failed. -/
inductive StoreError
  /-- A handle or a place for the answer is missing. -/
  | nullPointer
  /-- The store was closed. -/
  | storeClosed
  /-- Type 0 cannot be registered. -/
  | reservedType
  /-- An entity type needs a name. -/
  | emptyEntityName
  /-- The name of an entity type is no text. -/
  | nameNotText
  /-- The type is registered under another name. -/
  | typeTaken (type : TypeId) (name : String)
  /-- The type is not registered. -/
  | unknownType (type : TypeId)
  /-- Every ID of the entity type was issued. -/
  | idsExhausted (name : String)
  /-- The ID cannot be used for an object of the entity type. -/
  | reservedId (id : ObjectId) (name : String)
  /-- No object can have the ID. -/
  | invalidId (id : ObjectId)
  /-- An object has at least one byte. -/
  | emptyData
  /-- A new object was put under an ID that is in use. -/
  | alreadyExists (id : ObjectId)
  /-- There is no object to remove. -/
  | nothingToRemove (id : ObjectId) (type : TypeId)
  /-- There is no object to read. -/
  | notFound (id : ObjectId)
  /-- A read transaction was used to write. -/
  | readOnly
  /-- The box handle is missing. -/
  | boxClosed
  /-- The queue takes no more puts. -/
  | queueClosing
  /-- The queue stayed full for the whole waiting time. -/
  | queueFull (capacity : Nat) (waited : Duration)
  /-- The call can return only after the open write transaction has ended. -/
  | wouldWait
  /-- A failure in the caller's words. -/
  | described (status : Status) (text : String)
  deriving DecidableEq, Repr

namespace StoreError

/-- The status that a failing call reports. -/
def status : StoreError → Status
  | nullPointer => .nullPointer
  | storeClosed => .closed
  | reservedType => .illegalArgument
  | emptyEntityName => .illegalArgument
  | nameNotText => .illegalArgument
  | typeTaken _ _ => .illegalArgument
  | unknownType _ => .illegalArgument
  | idsExhausted _ => .illegalState
  | reservedId _ _ => .illegalArgument
  | invalidId _ => .illegalArgument
  | emptyData => .illegalArgument
  | alreadyExists _ => .illegalState
  | nothingToRemove _ _ => .notFound
  | notFound _ => .notFound
  | readOnly => .readOnly
  | boxClosed => .closed
  | queueClosing => .closed
  | queueFull _ _ => .asyncQueueFull
  | wouldWait => .error
  | described status _ => status

/-- The wording of a failure. -/
def message : StoreError → String
  | nullPointer => "null pointer argument"
  | storeClosed => "store is closed"
  | reservedType => "entity type ID 0 is reserved"
  | emptyEntityName => "entity name must not be empty"
  | nameNotText => "invalid UTF-8 in entity name"
  | typeTaken type name =>
    "entity type " ++ toString type ++ " is already registered as " ++ name
  | unknownType type => "entity type " ++ toString type ++ " is not registered"
  | idsExhausted name => "ID space of " ++ name ++ " is exhausted"
  | reservedId id name =>
    "ID " ++ toString id ++ " is reserved and cannot be used for " ++ name
  | invalidId id => "invalid object ID " ++ toString id
  | emptyData => "object data must not be empty"
  | alreadyExists id =>
    "object " ++ toString id ++ " already exists but was put without previous-value check"
  | nothingToRemove id type =>
    "object " ++ toString id ++ " of type " ++ toString type ++ " not found"
  | notFound id => "object " ++ toString id ++ " not found"
  | readOnly => "cannot write in a read-only transaction"
  | boxClosed => "box handle is null (already closed?)"
  | queueClosing => "store is closing, async queue no longer accepts puts"
  | queueFull capacity waited =>
    "async queue full (" ++ toString capacity ++ " items) after waiting " ++ waited.text
  | wouldWait => "the call would wait for the open write transaction"
  | described _ text => text

/-- The message together with the name of the status. -/
def display (e : StoreError) : String := e.message ++ " (status " ++ e.status.name ++ ")"

end StoreError

end ObjectStore
