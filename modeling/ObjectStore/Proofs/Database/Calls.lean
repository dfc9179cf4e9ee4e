import Mathlib
import ObjectStore.Proofs.Database.Reference
import ObjectStore.Proofs.Database.Transactions

/-!
# Calls and programs

A `BoxCall` is a call on a box: an operation in a transaction of its own, an asynchronous put, or
the close.  A program (`Operation.Program`) is whatever can be done with a database from outside:
calls on its boxes, calls on the database and on its store, and looking at them, one after the
other, each depending on how those before it ended.  In the middle of a call the binding may again
run a program on the same database (`Assembly.Program`).
-/

namespace ObjectStore

/-- A call on a box. -/
inductive BoxCall (α : Type)
  /-- An operation in a transaction of its own. -/
  | perform (op : BoxOp α)
  | putAsync (object : α)
  | close

namespace BoxCall

variable {σ α : Type}

/-- Makes a call on a box. -/
def run (b : TypedBox σ α) : BoxCall α → Operation σ (BoxAnswer α)
  | .perform op => op.perform b
  | .putAsync object => do
    let (id, object) ← b.putAsync object
    return .stored id object
  | .close => do
    b.close
    return .done

/-- The objects that a call puts. -/
def puts : BoxCall α → List α
  | .perform op => op.puts
  | .putAsync object => [object]
  | .close => []

end BoxCall

/-- The context after an operation, however it ended. -/
def Operation.after {σ α : Type} (x : Operation σ α) (ctx : Context σ) : Context σ :=
  match x ctx with
  | .ok _ ctx => ctx
  | .error _ ctx => ctx

mutual

/-- What can be done with a database from outside. -/
inductive Operation.Program {σ : Type} : {α : Type} → Operation σ α → Prop
  | lift {α : Type} (r : Except BoxError α) : Operation.Program (.lift r)
  | bind {α β : Type} {x : Operation σ α} {f : α → Operation σ β} (hx : Operation.Program x)
      (hf : ∀ a, Operation.Program (f a)) : Operation.Program (x >>= f)
  /-- Going on after a failure. -/
  | attempt {α : Type} {x : Operation σ α} (hx : Operation.Program x) :
      Operation.Program x.attempt
  /-- Something done beside the database. -/
  | beside {α : Type} (f : σ → α × σ) :
      Operation.Program fun ctx => .ok (f ctx.user).1 { ctx with user := (f ctx.user).2 }
  /-- Looking at the store, at the current boxes and at which boxes are open. -/
  | look {α : Type} (f : Store → SortedMap TypeId BoxNumber → (BoxNumber → Bool) → α) :
      Operation.Program (.query fun db => .ok (f db.store db.current db.isOpen))
  /-- Something done to the store, such as a step of its worker. -/
  | store {α : Type} (f : Store → Except StoreError (α × Store)) : Operation.Program (.store f)
  | boxOf {α : Type} (b : Binding σ α) : Operation.Program (Database.boxOf b)
  | call {α : Type} (b : TypedBox σ α) (c : BoxCall α)
      (hputs : ∀ object ∈ c.puts, ∀ id, Assembly.Program (b.binding.assemble object id)) :
      Operation.Program (c.run b)
  | awaitPuts : Operation.Program Database.awaitPuts
  | closeAll : Operation.Program Database.closeAll

/-- An object is put together by builder calls, with programs in between. -/
inductive Assembly.Program {σ : Type} : Assembly σ → Prop
  | done (outcome : Except BoxError Unit) : Assembly.Program (.done outcome)
  | call {c : BuilderCall} {next : Except ObjectError BuilderAnswer → Assembly σ}
      (hnext : ∀ answer, Assembly.Program (next answer)) : Assembly.Program (.call c next)
  | act {α : Type} {x : Operation σ α} {next : Assembly σ} (hx : Operation.Program x)
      (hnext : Assembly.Program next) : Assembly.Program (.act x.after next)

end

end ObjectStore
