import ObjectStore.Store.Error
import ObjectStore.Object.Error

/-!
# Errors of boxes

What a box or database call fails with.  A failing call on the store becomes an error by its status;
the statuses without an error of their own keep their number.
-/

namespace ObjectStore

/-- Why a box or database call failed. -/
inductive BoxError
  /-- The store failed with a status that has no error of its own. -/
  | store (code : Int32) (text : String)
  /-- The object does not exist. -/
  | notFound (text : String)
  /-- The store refused an argument. -/
  | invalidArgument (text : String)
  /-- The queue stayed full for the whole waiting time. -/
  | backpressure (text : String)
  /-- The box or the database was closed. -/
  | closed (text : String)
  /-- The builder was misused, or bytes are no object. -/
  | codec (cause : ObjectError)
  /-- The binding failed. -/
  | binding (text : String)
  deriving DecidableEq, Repr

namespace BoxError

/-- The error for a failed call on the store, by its status number and message. -/
def ofStatus (code : Int32) (text : String) : BoxError :=
  match Status.ofCode code with
  | .notFound => notFound text
  | .illegalArgument => invalidArgument text
  | .asyncQueueFull => backpressure text
  | .closed => closed text
  | _ => store code text

/-- The error for a failed call on the store. -/
def ofStore (e : StoreError) : BoxError := ofStatus e.status.code e.message

/-- The wording of an error. -/
def message : BoxError → String
  | store code text => "engine error " ++ toString code ++ ": " ++ text
  | notFound text => "not found: " ++ text
  | invalidArgument text => "invalid argument: " ++ text
  | backpressure text => "async queue full: " ++ text
  | closed text => "closed: " ++ text
  | codec cause => "codec error: " ++ cause.message
  | binding text => "binding error: " ++ text

/-- Whether the object does not exist. -/
def isNotFound : BoxError → Bool
  | notFound _ => true
  | _ => false

/-- Whether the box or the database was closed. -/
def isClosed : BoxError → Bool
  | closed _ => true
  | _ => false

end BoxError

end ObjectStore
