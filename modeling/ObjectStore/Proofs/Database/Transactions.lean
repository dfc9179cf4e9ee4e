import Mathlib
import ObjectStore.Database.TypedBox
import ObjectStore.Proofs.Store.Effects

/-!
# Operations step by step

What the pieces do that box operations are made of, and what a transaction of a box comes to: a read
answers from the committed payloads (`TypedBox.read_eq`), and a write does its work on an overlay of
the committed contents, which it installs or forgets (`TypedBox.write_of_ok`,
`TypedBox.write_of_error`).
-/

namespace ObjectStore

/-- The context with another store. -/
def Context.withStore {σ : Type} (ctx : Context σ) (s : Store) : Context σ :=
  { ctx with db := { ctx.db with store := s } }

namespace Operation

variable {σ α β : Type} {ctx ctx' : Context σ}

/-! ## Pieces -/

theorem bind_of_ok {x : Operation σ α} {f : α → Operation σ β} {a : α} (h : x ctx = .ok a ctx') :
    (x >>= f) ctx = f a ctx' := by
  show EStateM.bind x f ctx = f a ctx'
  rw [EStateM.bind, h]

theorem bind_of_error {x : Operation σ α} {f : α → Operation σ β} {e : BoxError}
    (h : x ctx = .error e ctx') : (x >>= f) ctx = .error e ctx' := by
  show EStateM.bind x f ctx = .error e ctx'
  rw [EStateM.bind, h]

theorem attempt_of_ok {x : Operation σ α} {a : α} (h : x ctx = .ok a ctx') :
    attempt x ctx = .ok (.ok a) ctx' := by
  rw [attempt, h]

theorem attempt_of_error {x : Operation σ α} {e : BoxError} (h : x ctx = .error e ctx') :
    attempt x ctx = .ok (.error e) ctx' := by
  rw [attempt, h]

theorem query_eq (f : Database → Except BoxError α) (ctx : Context σ) :
    query f ctx = lift (f ctx.db) ctx := rfl

/-- A question that is answered. -/
theorem query_of_ok {f : Database → Except BoxError α} {a : α} (h : f ctx.db = .ok a) :
    query f ctx = .ok a ctx := by
  rw [query_eq, h]
  rfl

/-- A question that fails. -/
theorem query_of_error {f : Database → Except BoxError α} {e : BoxError}
    (h : f ctx.db = .error e) : query f ctx = .error e ctx := by
  rw [query_eq, h]
  rfl

theorem modify_eq (f : Context σ → Context σ) (ctx : Context σ) :
    (modify f : Operation σ Unit) ctx = .ok () (f ctx) := rfl

theorem lift_ok (a : α) (ctx : Context σ) : lift (.ok a) ctx = .ok a ctx := rfl

theorem lift_error (e : BoxError) (ctx : Context σ) :
    (lift (.error e) : Operation σ α) ctx = .error e ctx := rfl

/-- A change of the database that succeeds. -/
theorem update_of_ok {f : Database → Except BoxError (α × Database)} {a : α} {db : Database}
    (h : f ctx.db = .ok (a, db)) : update f ctx = .ok a { ctx with db := db } := by
  rw [update, bind_of_ok (query_of_ok h)]
  rfl

/-- A change of the database that fails. -/
theorem update_of_error {f : Database → Except BoxError (α × Database)} {e : BoxError}
    (h : f ctx.db = .error e) : update f ctx = .error e ctx := by
  rw [update, bind_of_error (query_of_error h)]

/-- A call on the store that succeeds. -/
theorem store_of_ok {f : Store → Except StoreError (α × Store)} {a : α} {s : Store}
    (h : f ctx.db.store = .ok (a, s)) : store f ctx = .ok a (ctx.withStore s) := by
  rw [store]
  refine update_of_ok ?_
  simp only [h]

/-- A call on the store that fails. -/
theorem store_of_error {f : Store → Except StoreError (α × Store)} {e : StoreError}
    (h : f ctx.db.store = .error e) : store f ctx = .error (.ofStore e) ctx := by
  rw [store]
  refine update_of_error ?_
  simp only [h]

/-! ## Pieces that succeeded -/

/-- Of two operations that succeed one after the other, both do. -/
theorem ok_of_bind_ok {x : Operation σ α} {f : α → Operation σ β} {b : β}
    (h : (x >>= f) ctx = .ok b ctx') :
    ∃ a ctx₁, x ctx = .ok a ctx₁ ∧ f a ctx₁ = .ok b ctx' := by
  cases hx : x ctx with
  | ok a ctx₁ =>
    rw [bind_of_ok hx] at h
    exact ⟨a, ctx₁, rfl, h⟩
  | error e ctx₁ =>
    rw [bind_of_error hx] at h
    cases h

theorem query_eq_ok {f : Database → Except BoxError α} {a : α} :
    query f ctx = .ok a ctx' ↔ f ctx.db = .ok a ∧ ctx' = ctx := by
  rw [query_eq]
  cases f ctx.db with
  | error e => exact ⟨nofun, nofun⟩
  | ok a' =>
    constructor
    · rintro ⟨⟩
      exact ⟨rfl, rfl⟩
    · rintro ⟨⟨⟩, rfl⟩
      rfl

theorem store_eq_ok {f : Store → Except StoreError (α × Store)} {a : α} :
    store f ctx = .ok a ctx' ↔ ∃ s, f ctx.db.store = .ok (a, s) ∧ ctx' = ctx.withStore s := by
  cases hf : f ctx.db.store with
  | error e =>
    rw [store_of_error hf]
    exact ⟨nofun, nofun⟩
  | ok r =>
    obtain ⟨a', s⟩ := r
    rw [store_of_ok hf]
    constructor
    · rintro ⟨⟩
      exact ⟨s, rfl, rfl⟩
    · rintro ⟨_, ⟨⟩, rfl⟩
      rfl

theorem attempt_eq_ok {x : Operation σ α} {r : Except BoxError α}
    (h : attempt x ctx = .ok r ctx') :
    (∃ a, r = .ok a ∧ x ctx = .ok a ctx') ∨ ∃ e, r = .error e ∧ x ctx = .error e ctx' := by
  rw [attempt] at h
  cases hx : x ctx with
  | ok a ctx₁ =>
    rw [hx] at h
    cases h
    exact Or.inl ⟨a, rfl, rfl⟩
  | error e ctx₁ =>
    rw [hx] at h
    cases h
    exact Or.inr ⟨e, rfl, rfl⟩

end Operation

namespace TypedBox

open Operation

variable {σ α β : Type}

/-- Giving a builder back changes the lender of the box at most. -/
theorem giveBack_eq (b : TypedBox σ α) (loan : Loan) (ctx : Context σ) :
    ∃ db, b.giveBack loan ctx = .ok () { ctx with db := db } ∧
      (db = ctx.db ∨ ∃ box, ctx.db.boxes[b.number]? = some box ∧
        db = ctx.db.setLender b.number (box.lender.takeBack loan)) := by
  rw [giveBack, modify_eq]
  cases hbox : ctx.db.boxes[b.number]? with
  | none => exact ⟨ctx.db, rfl, Or.inl rfl⟩
  | some box => exact ⟨_, rfl, Or.inr ⟨box, rfl, rfl⟩⟩

/-! ## Transactions -/

/-- A box can be used: it is open, and so is the store, which knows the type of the box. -/
structure Usable (b : TypedBox σ α) (db : Database) : Prop where
  box : db.isOpen b.number = true
  store : db.store.closed = false
  type : ∃ t, db.store.types.get? b.binding.type = some t

variable {b : TypedBox σ α} {ctx ctx' : Context σ}

theorem Usable.require_eq (h : b.Usable ctx.db) : ∃ box, b.require ctx = .ok box ctx := by
  have hbox := h.box
  rw [Database.isOpen] at hbox
  cases hstate : ctx.db.boxes[b.number]? with
  | none =>
    rw [hstate] at hbox
    cases hbox
  | some box =>
    rw [hstate] at hbox
    refine ⟨box, ?_⟩
    have hopen : box.isOpen = true := hbox
    rw [require, query_eq, Database.requireBox, hstate]
    simp only [hopen, if_true]
    rfl

theorem Usable.requireOpen_eq (h : b.Usable ctx.db) : ctx.db.requireOpen = .ok () := by
  rw [Database.requireOpen, Database.isClosed, h.store]
  rfl

theorem Usable.requireType_eq (h : b.Usable ctx.db) :
    ctx.db.store.requireType b.binding.type = .ok () :=
  Store.requireType_eq_ok.2 ⟨h.store, h.type⟩

/-- **A read answers from what is committed.** -/
theorem read_eq (h : b.Usable ctx.db) (answer : Payloads → Except BoxError β) :
    b.read answer ctx = lift (answer (ctx.db.store.committed.payloads b.binding.type)) ctx := by
  obtain ⟨box, hrequire⟩ := h.require_eq
  have hsnapshot : ctx.db.store.snapshot = .ok ctx.db.store.committed := by
    rw [Store.snapshot, Store.requireOpen, h.store]
    rfl
  have hquery : query (fun db => do
      db.requireOpen
      let snapshot ← db.store.snapshot.mapError .ofStore
      (db.store.requireType b.binding.type).mapError .ofStore
      return snapshot) ctx = .ok ctx.db.store.committed ctx := by
    rw [query_eq, h.requireOpen_eq, hsnapshot, h.requireType_eq]
    rfl
  rw [read, bind_of_ok hrequire, bind_of_ok hquery]

/-- The context in which a write does its work. -/
def writing (ctx : Context σ) : Context σ :=
  ctx.withStore { ctx.db.store with writing := true }

/-- The write transaction can be opened while nobody else writes. -/
theorem Usable.beginWrite_eq (h : b.Usable ctx.db) (hfree : ctx.db.store.writing = false) :
    beginWrite ctx = .ok (.ofBase ctx.db.store.committed) (writing ctx) := by
  have hopen : query Database.requireOpen ctx = .ok () ctx := by
    rw [query_eq, h.requireOpen_eq]
    rfl
  rw [beginWrite, bind_of_ok hopen]
  exact store_of_ok (Store.openWriter_eq_ok.2 ⟨h.store, hfree, rfl, rfl⟩)

/-- In the write transaction the type of the box is still known. -/
theorem Usable.cursor_eq (h : b.Usable ctx.db) :
    query (fun db => (db.store.requireType b.binding.type).mapError .ofStore) (writing ctx)
      = .ok () (writing ctx) := by
  have hrequired : (writing ctx).db.store.requireType b.binding.type = .ok () :=
    Store.requireType_eq_ok.2 ⟨h.store, h.type⟩
  rw [query_eq, hrequired]
  rfl

/-- The work of a put in its write transaction. -/
def putWork (b : TypedBox σ α) (object : α) (changes : Overlay) :
    Operation σ (ObjectId × Overlay) := do
  let (id, changes, _) ← b.putWithin object changes .new
  return (id, changes)

/-- **A write whose work succeeds** installs its changes. -/
theorem write_of_ok (h : b.Usable ctx.db) (hfree : ctx.db.store.writing = false)
    {work : Overlay → Operation σ (β × Overlay)} {result : β} {changes : Overlay}
    (hwork : work (.ofBase ctx.db.store.committed) (writing ctx) = .ok (result, changes) ctx')
    (hopen : ctx'.db.store.closed = false) :
    b.write work ctx = .ok result (ctx'.withStore (ctx'.db.store.install changes)) := by
  have hcommit : commit changes ctx' = .ok () (ctx'.withStore (ctx'.db.store.install changes)) := by
    have hstore : store (fun s => (s.commit changes).map ((), ·)) ctx'
        = .ok () (ctx'.withStore (ctx'.db.store.install changes)) := by
      refine store_of_ok ?_
      rw [Store.commit_eq_ok.2 ⟨hopen, rfl⟩]
      rfl
    rw [commit, bind_of_ok (attempt_of_ok hstore)]
    rfl
  obtain ⟨box, hrequire⟩ := h.require_eq
  rw [write, bind_of_ok hrequire, bind_of_ok (h.beginWrite_eq hfree)]
  refine (bind_of_ok (attempt_of_ok ((bind_of_ok h.cursor_eq).trans hwork))).trans ?_
  exact bind_of_ok hcommit

/-- **A write whose work fails** leaves the committed contents as they are. -/
theorem write_of_error (h : b.Usable ctx.db) (hfree : ctx.db.store.writing = false)
    {work : Overlay → Operation σ (β × Overlay)} {e : BoxError}
    (hwork : work (.ofBase ctx.db.store.committed) (writing ctx) = .error e ctx') :
    b.write work ctx = .error e (ctx'.withStore ctx'.db.store.releaseWriter) := by
  have hrelease : store (fun s => .ok ((), s.releaseWriter)) ctx'
      = .ok () (ctx'.withStore ctx'.db.store.releaseWriter) := store_of_ok rfl
  obtain ⟨box, hrequire⟩ := h.require_eq
  rw [write, bind_of_ok hrequire, bind_of_ok (h.beginWrite_eq hfree)]
  refine (bind_of_ok (attempt_of_error ((bind_of_ok h.cursor_eq).trans hwork))).trans ?_
  exact bind_of_ok hrelease

end TypedBox

end ObjectStore
