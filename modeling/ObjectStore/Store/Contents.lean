import ObjectStore.Store.Error
import ObjectStore.SortedMap

/-!
# Contents, and changes to them

`Contents` is what a store holds: for each entity type the payloads by object ID, an absent type
counting as one without objects.  An `Overlay` is a set of pending changes on top of unchanged
contents: a type is copied when it is first changed, and reads see the copy from then on.
-/

namespace ObjectStore

/-- The highest ID that an object can have. -/
def highestId : ObjectId := 0xFFFFFFFFFFFFFFFE

/-- The payloads of one entity type by object ID. -/
abbrev Payloads := SortedMap ObjectId Bytes

/-- The payloads of every entity type. -/
abbrev Contents := SortedMap TypeId Payloads

/-- The payloads of a type. -/
def Contents.payloads (c : Contents) (type : TypeId) : Payloads := (c.get? type).getD ∅

/-- Takes over every type of `changes`. -/
def Contents.takeOver (c changes : Contents) : Contents :=
  changes.entries.foldl (fun c change => c.insert change.1 change.2) c

/-- The rules for what may be put: an ID that objects can have, and at least one byte. -/
def checkPut (id : ObjectId) (data : Bytes) : Except StoreError Unit :=
  if id = 0 ∨ highestId < id then .error (.invalidId id)
  else if data = [] then .error .emptyData
  else .ok ()

/-- Pending changes on top of contents. -/
structure Overlay where
  /-- What the changes are made to. -/
  base : Contents
  /-- The changed types, whole. -/
  changed : Contents
  deriving DecidableEq

namespace Overlay

/-- No changes. -/
def ofBase (base : Contents) : Overlay := ⟨base, ∅⟩

/-- The payloads of a type, pending changes included. -/
def payloads (o : Overlay) (type : TypeId) : Payloads :=
  match o.changed.get? type with
  | some payloads => payloads
  | none => o.base.payloads type

/-- Replaces the payloads of a type. -/
def change (o : Overlay) (type : TypeId) (payloads : Payloads) : Overlay :=
  { o with changed := o.changed.insert type payloads }

/-- Puts a payload under an ID.  A put that may not replace an object fails where there is one. -/
def put (o : Overlay) (type : TypeId) (id : ObjectId) (data : Bytes) (mayReplace : Bool) :
    Except StoreError Overlay := do
  checkPut id data
  let payloads := o.payloads type
  if !mayReplace && payloads.contains id then throw (.alreadyExists id)
  return o.change type (payloads.insert id data)

/-- Takes a copy of a type among the changes, unless it is there already. -/
def copy (o : Overlay) (type : TypeId) : Overlay := o.change type (o.payloads type)

/-- The changes after a put that failed: a put that was rejected because of the object under its ID
has copied the type to look there, and one that may not be made at all has not. -/
def afterRefusedPut (o : Overlay) (type : TypeId) (id : ObjectId) (data : Bytes) : Overlay :=
  match checkPut id data with
  | .ok () => o.copy type
  | .error _ => o

/-- Removes the object with an ID. -/
def remove (o : Overlay) (type : TypeId) (id : ObjectId) : Except StoreError Overlay :=
  let payloads := o.payloads type
  if payloads.contains id then .ok (o.change type (payloads.erase id))
  else .error (.nothingToRemove id type)

/-- Removes every object of a type and says how many there were. -/
def removeAll (o : Overlay) (type : TypeId) : Nat × Overlay :=
  ((o.payloads type).size, o.change type ∅)

/-- The contents with the changes made. -/
def result (o : Overlay) (contents : Contents) : Contents := contents.takeOver o.changed

end Overlay

end ObjectStore
