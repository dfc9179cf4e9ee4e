import ObjectStore.Database.Basic
import ObjectStore.Object.Workbench

/-!
# Bindings

A `Binding` says how the objects of an entity type are stored: which builder calls put an object
together, and how it is read back from bytes.

What puts an object together is an `Assembly`: builder calls, each of which may depend on the
answers to the ones before, until it succeeds or fails.  In between it may act on the database;
what it leaves behind for its caller is of the type `σ`.
-/

namespace ObjectStore

/-- A database together with what its user keeps beside it. -/
structure Context (σ : Type) where
  db : Database
  user : σ

/-- How an object is put together. -/
inductive Assembly (σ : Type)
  /-- The end, with success or an error. -/
  | done (outcome : Except BoxError Unit)
  /-- A builder call, and how to go on with its answer. -/
  | call (c : BuilderCall) (next : Except ObjectError BuilderAnswer → Assembly σ)
  /-- Something done with the database, and how to go on. -/
  | act (action : Context σ → Context σ) (next : Assembly σ)

namespace Assembly

variable {σ : Type}

/-- Puts an object together with a builder. -/
def run : Assembly σ → Workbench → Context σ → Except BoxError Unit × Workbench × Context σ
  | .done outcome, w, ctx => (outcome, w, ctx)
  | .call c next, w, ctx =>
    let (answer, w) := w.call c
    (next answer).run w ctx
  | .act action next, w, ctx => next.run w (action ctx)

/-- Fails with an error of the binding. -/
def fail (text : String) : Assembly σ := .done (.error (.binding text))

/-- Makes a builder call and goes on, unless the call fails. -/
def andThen (c : BuilderCall) (next : Assembly σ) : Assembly σ :=
  .call c fun answer =>
    match answer with
    | .ok _ => next
    | .error e => .done (.error (.codec e))

/-- Makes builder calls up to the first one that fails. -/
def calls (cs : List BuilderCall) : Assembly σ := cs.foldr andThen (.done (.ok ()))

/-- Starts an object and adds fields to it. -/
def fields (id : ObjectId) (fs : List (Slot × Value)) : Assembly σ :=
  calls (.start id :: fs.map fun f => .add f.1 f.2)

end Assembly

/-- How the objects of an entity type are stored. -/
structure Binding (σ α : Type) where
  /-- The entity type. -/
  type : TypeId
  /-- Its name. -/
  name : String
  /-- The ID of an object, zero if it has none yet. -/
  idOf : α → Except BoxError ObjectId
  /-- The object with its ID replaced. -/
  withId : α → ObjectId → α
  /-- Starts an object with an ID and adds the fields. -/
  assemble : α → ObjectId → Assembly σ
  /-- Reads an object back. -/
  restore : Bytes → Except BoxError α

/-- The entity type to be registered for a binding. -/
def Binding.info {σ α : Type} (b : Binding σ α) : EntityInfo := ⟨b.type, b.name⟩

/-- Reads an object and takes it apart. -/
def restoreWith {α : Type} (take : Object → Except ObjectError α) (bytes : Bytes) :
    Except BoxError α :=
  (do take (← Object.decode bytes) : Except ObjectError α).mapError .codec

end ObjectStore
