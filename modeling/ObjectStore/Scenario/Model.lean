import ObjectStore.Scenario.Step

/-!
# The entity types of scenarios

For each entity type the binding with which its objects are stored, how a draft becomes an object,
and how an object is shown.
-/

namespace ObjectStore.Scenario

/-- A draft whose script was made ready to run. -/
structure Prepared where
  sheet : Sheet
  /-- What the script does for an object with an ID. -/
  script : ObjectId → Assembly Desk

/-- An object of a scripted entity type: a draft to be stored or an object that was read. -/
structure Scripted where
  id : ObjectId
  idFailure : Option String
  script : ObjectId → Assembly Desk
  /-- The object that was read. -/
  read : Option Object

/-- How scripted objects are stored; any object can be read. -/
def Scripted.binding (type : TypeId) (name : String) : Binding Desk Scripted where
  type := type
  name := name
  idOf s :=
    match s.idFailure with
    | some text => .error (.binding text)
    | none => .ok s.id
  withId s id := { s with id := id }
  assemble s id := s.script id
  restore := restoreWith fun o => .ok ⟨o.id, none, fun _ => .done (.ok ()), some o⟩

/-- The objects of an entity type. -/
structure Model where
  /-- The type of its objects. -/
  Carrier : Type
  binding : Binding Desk Carrier
  ofDraft : Prepared → Carrier
  idOf : Carrier → ObjectId
  shown : Carrier → Shown

/-- The objects of a scripted entity type. -/
def Model.scripted (type : TypeId) (name : String) : Model where
  Carrier := Scripted
  binding := Scripted.binding type name
  ofDraft p := ⟨p.sheet.id, p.sheet.idFailure, p.script, none⟩
  idOf s := s.id
  shown s := .object (s.read.getD ⟨s.id, ∅⟩)

/-- The objects of each entity type. -/
def Entity.model : Entity → Model
  | .task =>
    { Carrier := Task
      binding := Task.binding
      ofDraft := fun p => ⟨p.sheet.id, p.sheet.text, p.sheet.priority, p.sheet.done⟩
      idOf := Task.id
      shown := .task }
  | .tag =>
    { Carrier := Tag
      binding := Tag.binding
      ofDraft := fun p => ⟨p.sheet.id, p.sheet.name⟩
      idOf := Tag.id
      shown := .tag }
  | .note =>
    { Carrier := Note
      binding := Note.binding
      ofDraft := fun p => ⟨p.sheet.id, p.sheet.text⟩
      idOf := Note.id
      shown := .note }
  | .record =>
    { Carrier := Record
      binding := Record.binding
      ofDraft := fun p => ⟨p.sheet.id, p.sheet.payload, p.sheet.counter⟩
      idOf := Record.id
      shown := .record }
  | .raw => .scripted 1 "Task"
  | .script => .scripted 3 "Script"
  | .maxType => .scripted 4294967295 "Größe"
  | .impostor => .scripted 1 "Impostor"
  | .zero => .scripted 0 "Zero"
  | .noName => .scripted 5 ""
  | .nulName => .scripted 6 "a\x00b"

/-- The entity type to be registered. -/
def Entity.info (e : Entity) : EntityInfo := e.model.binding.info

end ObjectStore.Scenario
