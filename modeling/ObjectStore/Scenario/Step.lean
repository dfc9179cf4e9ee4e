import ObjectStore.Entities

/-!
# Scenarios

A scenario is a list of steps on one database.  Its boxes have names, and its objects are written as
drafts.  The draft of an object of a scripted entity type carries a script of what its binding does
while the object is put together: builder calls, failures, and further steps on the same database.
-/

namespace ObjectStore.Scenario

/-- The entity types that scenarios know. -/
inductive Entity
  | task
  | tag
  | note
  | record
  /-- Scripted, in place of tasks. -/
  | raw
  /-- Scripted. -/
  | script
  /-- Scripted, with the highest type number. -/
  | maxType
  /-- Scripted, with the number of tasks under another name. -/
  | impostor
  /-- Scripted, with the type number that cannot be registered. -/
  | zero
  /-- Scripted, without a name. -/
  | noName
  /-- Scripted, with a zero character in its name. -/
  | nulName
  deriving DecidableEq, Repr

/-- What a draft says about an object apart from its script; every entity type takes its part. -/
structure Sheet where
  id : ObjectId := 0
  /-- The error with which the object refuses to tell its ID. -/
  idFailure : Option String := none
  text : String := ""
  name : String := ""
  payload : String := ""
  priority : Int64 := 0
  counter : Int64 := 0
  done : Bool := false
  deriving DecidableEq, Repr

mutual

/-- A step on a database. -/
inductive Step
  /-- Names the box of an entity type. -/
  | openBox (entity : Entity) (box : String)
  /-- Names a clone of a box. -/
  | cloneBox (box copy : String)
  /-- Forgets a name. -/
  | dropBox (box : String)
  | put (box : String) (draft : Draft)
  | putAsync (box : String) (draft : Draft)
  | putAll (box : String) (drafts : List Draft)
  | get (box : String) (id : ObjectId)
  | getAll (box : String)
  | contains (box : String) (id : ObjectId)
  | count (box : String)
  | remove (box : String) (id : ObjectId)
  | removeAll (box : String)
  | close (box : String)
  | awaitIdle
  | closeDatabase
  | isClosed (box : String)
  | databaseClosed
  | typeId (box : String)
  | describe (box : String)
  | describeDatabase

/-- An object to be put. -/
inductive Draft
  | mk (sheet : Sheet) (script : List Action)

/-- What a scripted binding does while an object is put together. -/
inductive Action
  /-- Makes a builder call; if it fails, the object fails. -/
  | build (call : BuilderCall)
  /-- Starts the object under the ID that it was given. -/
  | start
  /-- Fails. -/
  | fail (text : String)
  /-- Makes a step on the same database; how it ends does not matter to the object. -/
  | perform (step : Step)

end

instance : Inhabited Step := ⟨.awaitIdle⟩

instance : Inhabited Draft := ⟨.mk {} []⟩

instance : Inhabited Action := ⟨.start⟩

/-- An object as it was read back. -/
inductive Shown
  | task (t : Task)
  | tag (t : Tag)
  | note (n : Note)
  | record (r : Record)
  | object (o : Object)

/-- How a step ended. -/
inductive Outcome
  | done
  | failed (e : BoxError)
  /-- An object was put, or not; it has this ID afterwards. -/
  | stored (result : Except BoxError ObjectId) (idAfter : ObjectId)
  /-- Objects were put, or not; they have these IDs afterwards. -/
  | storedAll (result : Except BoxError (List ObjectId)) (idsAfter : List ObjectId)
  | found (object : Option Shown)
  | listed (objects : List Shown)
  | truth (b : Bool)
  | number (n : Nat)
  /-- Whether something is closed. -/
  | closed (b : Bool)
  | type (t : TypeId)
  | text (s : String)
  /-- No box has the name. -/
  | unknownBox (box : String)

/-- What a scenario keeps beside its database. -/
structure Desk where
  /-- The entity type and the number behind each name. -/
  boxes : SortedMap String (Entity × BoxNumber)
  /-- How the steps inside the current one ended, in the order of their ends. -/
  inner : List Outcome

end ObjectStore.Scenario
