import ObjectStore.Database.TypedBox

/-!
# Some entity types

Plain entity types with their bindings: records, tasks, tags and notes.
-/

namespace ObjectStore

/-! ## Records -/

/-- A record with a payload and a counter. -/
structure Record where
  id : ObjectId := 0
  payload : String
  counter : Int64
  deriving DecidableEq, Repr

/-- The record that an object holds. -/
def Record.ofObject (o : Object) : Except ObjectError Record := do
  let payload ← o.text 1
  let counter ← o.int 2
  return ⟨o.id, payload, counter⟩

/-- How records are stored. -/
def Record.binding {σ : Type} : Binding σ Record where
  type := 1
  name := "Record"
  idOf r := .ok r.id
  withId r id := { r with id := id }
  assemble r id := .fields id [(1, .text r.payload), (2, .int r.counter)]
  restore := restoreWith Record.ofObject

/-! ## Tasks -/

/-- A task whose priority must not be negative. -/
structure Task where
  id : ObjectId := 0
  text : String
  priority : Int64
  done : Bool
  deriving DecidableEq, Repr

/-- The task that an object holds. -/
def Task.ofObject (o : Object) : Except ObjectError Task := do
  let text ← o.text 1
  let priority ← o.int 2
  let done ← o.bool 3
  return ⟨o.id, text, priority, done⟩

/-- How tasks are stored. -/
def Task.binding {σ : Type} : Binding σ Task where
  type := 1
  name := "Task"
  idOf t := .ok t.id
  withId t id := { t with id := id }
  assemble t id :=
    if t.priority < 0 then .fail "priority must not be negative"
    else .fields id [(1, .text t.text), (2, .int t.priority), (3, .bool t.done)]
  restore := restoreWith Task.ofObject

/-! ## Tags -/

/-- A tag. -/
structure Tag where
  id : ObjectId := 0
  name : String
  deriving DecidableEq, Repr

/-- The tag that an object holds. -/
def Tag.ofObject (o : Object) : Except ObjectError Tag := do
  let name ← o.text 1
  return ⟨o.id, name⟩

/-- How tags are stored. -/
def Tag.binding {σ : Type} : Binding σ Tag where
  type := 2
  name := "Tag"
  idOf t := .ok t.id
  withId t id := { t with id := id }
  assemble t id := .fields id [(1, .text t.name)]
  restore := restoreWith Tag.ofObject

/-! ## Notes -/

/-- A note whose text must not be empty. -/
structure Note where
  id : ObjectId := 0
  text : String
  deriving DecidableEq, Repr

/-- The note that an object holds. -/
def Note.ofObject (o : Object) : Except ObjectError Note := do
  let text ← o.text 1
  return ⟨o.id, text⟩

/-- How notes are stored.  The text is judged after the object was started. -/
def Note.binding {σ : Type} : Binding σ Note where
  type := 4
  name := "Note"
  idOf n := .ok n.id
  withId n id := { n with id := id }
  assemble n id :=
    .andThen (.start id)
      (if n.text = "" then .fail "note text must not be empty"
       else .calls [.add 1 (.text n.text)])
  restore := restoreWith Note.ofObject

end ObjectStore
