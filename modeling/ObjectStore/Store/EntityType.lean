import ObjectStore.Store.Contents

/-!
# Entity types and their IDs

An entity type has a name and issues IDs: an object without an ID gets the one after the last issued
ID, and an ID that a caller brings along is issued as it is.  IDs are never taken back.
-/

namespace ObjectStore

/-- A registered entity type. -/
structure EntityType where
  /-- Its name. -/
  name : String
  /-- The highest ID issued so far, zero at first. -/
  lastId : ObjectId
  deriving DecidableEq, Repr

namespace EntityType

/-- A type that has issued no ID. -/
def named (name : String) : EntityType := ⟨name, 0⟩

/-- Issues the ID for a put: a new one for the candidate zero, any other candidate as it is. -/
def issue (t : EntityType) (candidate : ObjectId) : Except StoreError (ObjectId × EntityType) :=
  if candidate = 0 then
    if t.lastId < highestId then .ok (t.lastId + 1, { t with lastId := t.lastId + 1 })
    else .error (.idsExhausted t.name)
  else if highestId < candidate then .error (.reservedId candidate t.name)
  else .ok (candidate, { t with lastId := if t.lastId < candidate then candidate else t.lastId })

end EntityType

end ObjectStore
