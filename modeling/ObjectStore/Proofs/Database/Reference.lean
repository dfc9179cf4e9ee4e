import Mathlib
import ObjectStore.Proofs.Database.Lawful

/-!
# A map for every type

What the boxes of a database amount to: for each entity type a `Shelf`, which is a finite map from
IDs to objects and the largest ID that was accepted or minted so far.  There are no transactions
here, no overlays, no builders and no bytes; whether a binding refuses an object is all that it is
asked.

Programs are lists of `Request`s.  A `Desk` serves them from a database, a `Reference` from its
shelves.
-/

namespace ObjectStore

/-! ## Operations on one type -/

/-- An operation on the objects of a type. -/
inductive BoxOp (α : Type)
  | put (object : α)
  | putAll (objects : List α)
  | get (id : ObjectId)
  | getAll
  | contains (id : ObjectId)
  | count
  | remove (id : ObjectId)
  | removeAll

/-- What an operation answers. -/
inductive BoxAnswer (α : Type)
  | done
  /-- The ID of an object that was put, and the object with it. -/
  | stored (id : ObjectId) (object : α)
  | storedAll (ids : List ObjectId) (objects : List α)
  | found (object : Option α)
  | list (objects : List α)
  | flag (b : Bool)
  | count (n : Nat)
  deriving DecidableEq

/-- The objects that an operation puts. -/
def BoxOp.puts {α : Type} : BoxOp α → List α
  | .put object => [object]
  | .putAll objects => objects
  | _ => []

/-- Does an operation through a box. -/
def BoxOp.perform {σ α : Type} (b : TypedBox σ α) : BoxOp α → Operation σ (BoxAnswer α)
  | .put object => do
    let (id, object) ← b.put object
    return .stored id object
  | .putAll objects => do
    let (ids, objects) ← b.putAll objects
    return .storedAll ids objects
  | .get id => return .found (← b.get id)
  | .getAll => return .list (← b.getAll)
  | .contains id => return .flag (← b.contains id)
  | .count => return .count (← b.count)
  | .remove id => do
    b.remove id
    return .done
  | .removeAll => do
    b.removeAll
    return .done

/-! ## Shelves -/

/-- The objects of a type by ID, and the largest ID that was accepted or minted so far. -/
structure Shelf (α : Type) where
  objects : SortedMap ObjectId α
  last : ObjectId

namespace Shelf

variable {σ α : Type}

/-- Nothing was put. -/
def empty : Shelf α := ⟨∅, 0⟩

/-- The ID to put an object under whose own ID is `candidate`: the next one for zero, until there is
none. -/
def idFor (s : Shelf α) (b : Binding σ α) (candidate : ObjectId) : Except BoxError ObjectId :=
  if candidate = 0 then
    if s.last = 0xFFFFFFFFFFFFFFFE then .error (.store 4 (StoreError.idsExhausted b.name).message)
    else .ok (s.last + 1)
  else if candidate = 0xFFFFFFFFFFFFFFFF then
    .error (.invalidArgument (StoreError.reservedId candidate b.name).message)
  else .ok candidate

/-- Puts one object.  The ID counts as used even if the binding then refuses the object. -/
def putOne (b : Binding σ α) (object : α) (s : Shelf α) : Except BoxError ObjectId × Shelf α :=
  match b.idOf object with
  | .error e => (.error e, s)
  | .ok candidate =>
    match s.idFor b candidate with
    | .error e => (.error e, s)
    | .ok id =>
      match b.flatten object id with
      | .error e => (.error e, { s with last := max s.last id })
      | .ok _ => (.ok id, ⟨s.objects.insert id (b.withId object id), max s.last id⟩)

/-- Puts objects one after the other, up to the first failure. -/
def putEach (b : Binding σ α) : List α → Shelf α → Except BoxError (List ObjectId) × Shelf α
  | [], s => (.ok [], s)
  | object :: objects, s =>
    match putOne b object s with
    | (.error e, s) => (.error e, s)
    | (.ok id, s) =>
      match putEach b objects s with
      | (.error e, s) => (.error e, s)
      | (.ok ids, s) => (.ok (id :: ids), s)

/-- The outcome of an operation and the shelf after it.  An operation that fails leaves the objects
as they were. -/
def perform (b : Binding σ α) (s : Shelf α) : BoxOp α → Except BoxError (BoxAnswer α) × Shelf α
  | .put object =>
    match s.putOne b object with
    | (.ok id, s') => (.ok (.stored id (b.withId object id)), s')
    | (.error e, s') => (.error e, { s with last := s'.last })
  | .putAll objects =>
    match s.putEach b objects with
    | (.ok ids, s') => (.ok (.storedAll ids (List.zipWith b.withId objects ids)), s')
    | (.error e, s') => (.error e, { s with last := s'.last })
  | .get id => (.ok (.found (s.objects.get? id)), s)
  | .getAll => (.ok (.list s.objects.values), s)
  | .contains id => (.ok (.flag (s.objects.contains id)), s)
  | .count => (.ok (.count s.objects.size), s)
  | .remove id =>
    if s.objects.contains id then (.ok .done, { s with objects := s.objects.erase id })
    else (.error (.notFound (StoreError.nothingToRemove id b.type).message), s)
  | .removeAll => (.ok .done, { s with objects := ∅ })

theorem objects_perform_of_error {b : Binding σ α} {s : Shelf α} {op : BoxOp α} {e : BoxError}
    (h : (s.perform b op).1 = .error e) : (s.perform b op).2.objects = s.objects := by
  cases op with
  | put object =>
    rw [perform] at h ⊢
    split at h
    · cases h
    · rfl
  | putAll objects =>
    rw [perform] at h ⊢
    split at h
    · cases h
    · rfl
  | remove id =>
    rw [perform] at h ⊢
    split at h
    · cases h
    · rename_i habsent
      rw [if_neg habsent]
  | get id => rfl
  | getAll => rfl
  | contains id => rfl
  | count => rfl
  | removeAll => cases h

end Shelf

/-! ## Programs on several types -/

/-- Kinds of objects with their bindings, each of an entity type of its own. -/
structure Schema (σ : Type) where
  Kind : Type
  [decEq : DecidableEq Kind]
  Object : Kind → Type
  binding : (k : Kind) → Binding σ (Object k)
  /-- Which objects of a kind a program puts. -/
  Fits : (k : Kind) → Object k → Prop
  lawful : ∀ k, (binding k).Lawful (Fits k)
  distinct : ∀ {k k'}, (binding k).type = (binding k').type → k = k'

attribute [instance] Schema.decEq

/-- What a program asks for. -/
inductive Request {σ : Type} (S : Schema σ)
  /-- The box of a kind. -/
  | box (k : S.Kind)
  /-- An operation through the `i`-th box that was given out for a kind. -/
  | call (k : S.Kind) (i : Nat) (op : BoxOp (S.Object k))

/-- What a program gets. -/
inductive Reply {σ : Type} (S : Schema σ)
  /-- A box, or the reason why there is none. -/
  | box (outcome : Except BoxError Unit)
  | call (k : S.Kind) (outcome : Except BoxError (BoxAnswer (S.Object k)))
  /-- No such box was given out. -/
  | noBox

/-- The objects that a request puts fit. -/
def Request.Fits {σ : Type} {S : Schema σ} : Request S → Prop
  | .box _ => True
  | .call k _ op => ∀ object ∈ op.puts, S.Fits k object

variable {σ : Type} {S : Schema σ}

/-- A database in use. -/
structure Desk (S : Schema σ) where
  context : Context σ
  /-- The boxes that were given out for each kind, in order. -/
  given : S.Kind → List BoxNumber

namespace Desk

/-- Serves a request. -/
def serve (d : Desk S) : Request S → Reply S × Desk S
  | .box k =>
    match Database.boxOf (S.binding k) d.context with
    | .ok b context =>
      (.box (.ok ()), ⟨context, Function.update d.given k (d.given k ++ [b.number])⟩)
    | .error e context => (.box (.error e), { d with context := context })
  | .call k i op =>
    match (d.given k)[i]? with
    | some number =>
      match op.perform ⟨S.binding k, number⟩ d.context with
      | .ok answer context => (.call k (.ok answer), { d with context := context })
      | .error e context => (.call k (.error e), { d with context := context })
    | none => (.noBox, d)

/-- Serves requests one after the other. -/
def run : Desk S → List (Request S) → List (Reply S) × Desk S
  | d, [] => ([], d)
  | d, r :: rs => ((d.serve r).1 :: ((d.serve r).2.run rs).1, ((d.serve r).2.run rs).2)

end Desk

/-- A shelf for each kind. -/
structure Reference (S : Schema σ) where
  shelf : (k : S.Kind) → Shelf (S.Object k)
  /-- How many boxes were given out for each kind. -/
  given : S.Kind → Nat

namespace Reference

/-- Nothing was put, and no box was given out. -/
def empty : Reference S := ⟨fun _ => .empty, fun _ => 0⟩

/-- Serves a request.  An operation on one kind has nothing to do with the shelves of the others. -/
def serve (m : Reference S) : Request S → Reply S × Reference S
  | .box k => (.box (.ok ()), { m with given := Function.update m.given k (m.given k + 1) })
  | .call k i op =>
    if i < m.given k then
      (.call k ((m.shelf k).perform (S.binding k) op).1,
        { m with
          shelf := Function.update m.shelf k ((m.shelf k).perform (S.binding k) op).2 })
    else (.noBox, m)

/-- Serves requests one after the other. -/
def run : Reference S → List (Request S) → List (Reply S) × Reference S
  | m, [] => ([], m)
  | m, r :: rs => ((m.serve r).1 :: ((m.serve r).2.run rs).1, ((m.serve r).2.run rs).2)

end Reference

end ObjectStore
