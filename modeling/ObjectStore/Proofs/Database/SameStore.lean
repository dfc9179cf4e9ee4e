import Mathlib
import ObjectStore.Proofs.Database.AwaitedPut
import ObjectStore.Proofs.Database.Calls

/-!
# Boxes on one store

A box is a way to the objects of its type and holds none of them.  Two boxes of one binding, on
databases with the same store, stand for each other as long as both can be used: a call has the same
outcome through either and leaves the same store (`BoxCall.ending_eq`).

Once the box was looked at, an operation sees nothing but the store, and is level
(`Operation.Level`): on the same store it ends in the same way.
-/

namespace ObjectStore

namespace Operation

variable {σ α β : Type}

/-- An attempt ends with the outcome of what was attempted. -/
theorem ending_attempt (x : Operation σ α) (ctx : Context σ) :
    x.attempt.ending ctx = (.ok (x.ending ctx).1, (x.ending ctx).2) := by
  unfold ending attempt
  cases x ctx <;> rfl

/-- A changed result ends with the store of the unchanged one. -/
theorem ending_map (x : Operation σ α) (f : α → β) (ctx : Context σ) :
    (x >>= fun a => pure (f a)).ending ctx = ((x.ending ctx).1.map f, (x.ending ctx).2) := by
  unfold ending
  cases hx : x ctx with
  | ok a ctx' =>
    rw [bind_of_ok hx]
    rfl
  | error e ctx' =>
    rw [bind_of_error hx]
    rfl

/-- On the same store two operations have the same outcome and leave the same store. -/
def Level (x y : Operation σ α) : Prop :=
  ∀ ctx ctx' : Context σ, ctx.db.store = ctx'.db.store → x.ending ctx = y.ending ctx'

namespace Level

variable {x y : Operation σ α}

theorem of_pure (a : α) : Level (pure a : Operation σ α) (pure a) := fun _ _ hstore =>
  congrArg (Except.ok a, ·) hstore

theorem lift (r : Except BoxError α) : Level (lift r : Operation σ α) (lift r) := by
  intro ctx ctx' hstore
  cases r with
  | ok a => exact congrArg (Except.ok a, ·) hstore
  | error e => exact congrArg (Except.error e, ·) hstore

/-- One operation after the other, on both sides. -/
theorem bind {f g : α → Operation σ β} (h : Level x y) (hrest : ∀ a, Level (f a) (g a)) :
    Level (x >>= f) (y >>= g) := by
  intro ctx ctx' hstore
  have hone := h ctx ctx' hstore
  unfold ending at hone ⊢
  cases hx : x ctx with
  | ok a ctx₁ =>
    rw [hx] at hone
    cases hy : y ctx' with
    | ok a' ctx₁' =>
      rw [hy] at hone
      obtain ⟨⟨⟩, hstore'⟩ := Prod.mk.inj hone
      rw [bind_of_ok hx, bind_of_ok hy]
      exact hrest a ctx₁ ctx₁' hstore'
    | error e ctx₁' =>
      rw [hy] at hone
      cases hone
  | error e ctx₁ =>
    rw [hx] at hone
    cases hy : y ctx' with
    | ok a' ctx₁' =>
      rw [hy] at hone
      cases hone
    | error e' ctx₁' =>
      rw [hy] at hone
      rw [bind_of_error hx, bind_of_error hy]
      obtain ⟨⟨⟩, hstore'⟩ := Prod.mk.inj hone
      exact congrArg (Except.error e, ·) hstore'

/-- A failure that becomes a result. -/
theorem attempt (h : Level x y) : Level x.attempt y.attempt := by
  intro ctx ctx' hstore
  rw [ending_attempt, ending_attempt, h ctx ctx' hstore]

/-- A call on the store. -/
theorem store (f : Store → Except StoreError (α × Store)) :
    Level (store f : Operation σ α) (store f) := by
  intro ctx ctx' hstore
  cases hf : f ctx.db.store with
  | ok r =>
    obtain ⟨a, s⟩ := r
    have hf' : f ctx'.db.store = .ok (a, s) := by rw [← hstore, hf]
    rw [ending_of_ok (store_of_ok hf), ending_of_ok (store_of_ok hf')]
    rfl
  | error e =>
    have hf' : f ctx'.db.store = .error e := by rw [← hstore, hf]
    rw [ending_of_error (store_of_error hf), ending_of_error (store_of_error hf'), hstore]

/-- A question about the store. -/
theorem look (f : Store → Except BoxError α) :
    Level (query fun db => f db.store : Operation σ α) (query fun db => f db.store) := by
  intro ctx ctx' hstore
  have hlevel := lift (σ := σ) (f ctx.db.store) ctx ctx' hstore
  unfold ending at hlevel ⊢
  rw [query_eq, query_eq, ← hstore]
  exact hlevel

end Level

end Operation

namespace TypedBox

open Operation

variable {σ α β : Type} {b : TypedBox σ α} {n m : BoxNumber} {binding : Binding σ α}

/-! ## Transactions -/

theorem level_beginWrite : Level (beginWrite : Operation σ Overlay) beginWrite := by
  have hopen : Level (query Database.requireOpen : Operation σ Unit) (query Database.requireOpen) :=
    Level.look fun s => Database.requireOpen ⟨s, [], ∅⟩
  exact hopen.bind fun _ => Level.store _

/-- The write transaction ends with a failure. -/
theorem level_release (e : BoxError) :
    Level (do
        store fun s => .ok ((), s.releaseWriter)
        throw e : Operation σ β) (do
        store fun s => .ok ((), s.releaseWriter)
        throw e) :=
  (Level.store _).bind fun _ => Level.lift (.error e)

theorem level_commit (changes : Overlay) :
    Level (commit changes : Operation σ Unit) (commit changes) := by
  refine (Level.store _).attempt.bind ?_
  intro committed
  cases committed with
  | ok _ => exact Level.of_pure ()
  | error e => exact level_release e

/-- **A write through either of two boxes** ends in the same way if its work does. -/
theorem ending_write_eq {work work' : Overlay → Operation σ (β × Overlay)}
    (hwork : ∀ o, Level (work o) (work' o)) {ctx ctx' : Context σ}
    (h : Usable ⟨binding, n⟩ ctx.db) (h' : Usable ⟨binding, m⟩ ctx'.db)
    (hstore : ctx.db.store = ctx'.db.store) :
    (write ⟨binding, n⟩ work).ending ctx = (write ⟨binding, m⟩ work').ending ctx' := by
  obtain ⟨box, hrequire⟩ := h.require_eq
  obtain ⟨box', hrequire'⟩ := h'.require_eq
  have hcursor : Level
      (query fun db => (db.store.requireType binding.type).mapError .ofStore : Operation σ Unit)
      (query fun db => (db.store.requireType binding.type).mapError .ofStore) :=
    Level.look fun s => (s.requireType binding.type).mapError .ofStore
  unfold write ending
  rw [bind_of_ok hrequire, bind_of_ok hrequire']
  refine level_beginWrite.bind (fun o => ?_) ctx ctx' hstore
  refine (hcursor.bind fun _ => hwork o).attempt.bind ?_
  intro outcome
  cases outcome with
  | ok r => exact (level_commit r.2).bind fun _ => Level.of_pure r.1
  | error e => exact level_release e

/-- **A read through either of two boxes** gives the same answer. -/
theorem ending_read_eq (answer : Payloads → Except BoxError β) {ctx ctx' : Context σ}
    (h : Usable ⟨binding, n⟩ ctx.db) (h' : Usable ⟨binding, m⟩ ctx'.db)
    (hstore : ctx.db.store = ctx'.db.store) :
    (read ⟨binding, n⟩ answer).ending ctx = (read ⟨binding, m⟩ answer).ending ctx' := by
  have hlevel := Level.lift (σ := σ) (answer (ctx.db.store.committed.payloads binding.type)) ctx ctx'
    hstore
  unfold ending at hlevel ⊢
  rw [read_eq h, read_eq h', ← hstore]
  exact hlevel

/-! ## Putting -/

/-- An object is put within a write transaction with some idle builder, and it goes on with another:
it depends on the store only how that ends, if what comes then does. -/
theorem level_putWithin_bind {object : α} (hquiet : ∀ id, (binding.assemble object id).Quiet)
    {o : Overlay} {builder builder' : Builder} (hidle : builder.isIdle = true)
    (hidle' : builder'.isIdle = true) {f g : ObjectId × Overlay × Builder → Operation σ β}
    (hrest : ∀ id o next next', next.isIdle = true → next'.isIdle = true →
      Level (f (id, o, next)) (g (id, o, next'))) :
    Level (putWithin ⟨binding, n⟩ object o builder >>= f)
      (putWithin ⟨binding, m⟩ object o builder' >>= g) := by
  intro ctx ctx' hstore
  obtain ⟨user, next, hnext, hput⟩ :=
    @putWithin_of_intent _ _ ⟨binding, n⟩ _ hquiet builder hidle o ctx
  obtain ⟨user', next', hnext', hput'⟩ :=
    @putWithin_of_intent _ _ ⟨binding, m⟩ _ hquiet builder' hidle' o ctx'
  -- the intent comes from the binding and the store, which are the same
  have hintents : intent ⟨binding, m⟩ object ctx'.db.store
      = intent ⟨binding, n⟩ object ctx.db.store := by
    rw [hstore]
    rfl
  rw [hintents] at hput'
  cases hintent : intent ⟨binding, n⟩ object ctx.db.store with
  | mk outcome s =>
    rw [hintent] at hput hput'
    cases outcome with
    | error e => rw [ending_of_error (bind_of_error hput), ending_of_error (bind_of_error hput')]
    | ok r =>
      dsimp only at hput hput'
      cases hoverlay : o.put r.1.type r.1.id r.2 (r.1.candidate ≠ 0) with
      | error e =>
        rw [hoverlay] at hput hput'
        rw [ending_of_error (bind_of_error hput), ending_of_error (bind_of_error hput')]
      | ok o' =>
        rw [hoverlay] at hput hput'
        unfold ending
        rw [bind_of_ok hput, bind_of_ok hput']
        exact hrest r.1.id o' next next' hnext hnext' _ _ rfl

/-- Several objects are put one after the other. -/
theorem level_putEachWithin {objects : List α}
    (hquiet : ∀ object ∈ objects, ∀ id, (binding.assemble object id).Quiet) {o : Overlay}
    {builder builder' : Builder} (hidle : builder.isIdle = true) (hidle' : builder'.isIdle = true) :
    Level (putEachWithin ⟨binding, n⟩ objects o builder)
      (putEachWithin ⟨binding, m⟩ objects o builder') := by
  induction objects generalizing o builder builder' with
  | nil => exact Level.of_pure ([], o)
  | cons object objects ih =>
    apply level_putWithin_bind (hquiet object List.mem_cons_self) hidle hidle'
    intro id o' next next' hnext hnext'
    have hothers := ih (fun other hother => hquiet other (List.mem_cons_of_mem _ hother)) hnext
      hnext' (o := o')
    exact hothers.bind fun r => Level.of_pure (id :: r.1, r.2)

theorem ending_put_eq {object : α} (hquiet : ∀ id, (binding.assemble object id).Quiet)
    {ctx ctx' : Context σ} (h : Usable ⟨binding, n⟩ ctx.db) (h' : Usable ⟨binding, m⟩ ctx'.db)
    (hstore : ctx.db.store = ctx'.db.store) :
    (put ⟨binding, n⟩ object).ending ctx = (put ⟨binding, m⟩ object).ending ctx' := by
  unfold put
  rw [ending_map, ending_map, ending_write_eq (fun o => ?_) h h' hstore]
  exact level_putWithin_bind hquiet rfl rfl fun id o _ _ _ _ => Level.of_pure (id, o)

theorem ending_putAll_eq {objects : List α}
    (hquiet : ∀ object ∈ objects, ∀ id, (binding.assemble object id).Quiet)
    {ctx ctx' : Context σ} (h : Usable ⟨binding, n⟩ ctx.db) (h' : Usable ⟨binding, m⟩ ctx'.db)
    (hstore : ctx.db.store = ctx'.db.store) :
    (putAll ⟨binding, n⟩ objects).ending ctx = (putAll ⟨binding, m⟩ objects).ending ctx' := by
  have hwork : ∀ o, Level (putEachWithin ⟨binding, n⟩ objects o .new)
      (putEachWithin ⟨binding, m⟩ objects o .new) := fun o =>
    level_putEachWithin hquiet rfl rfl
  have hwrite := ending_write_eq hwork h h' hstore
  cases objects with
  | nil => exact Level.of_pure ([], []) ctx ctx' hstore
  | cons object objects =>
    show Operation.ending (_ >>= fun ids => pure _) ctx
      = Operation.ending (_ >>= fun ids => pure _) ctx'
    rw [ending_map, ending_map, hwrite]

/-- An asynchronous put borrows whatever builder the box has. -/
theorem ending_putAsync_eq {object : α} (hquiet : ∀ id, (binding.assemble object id).Quiet)
    {ctx ctx' : Context σ} (h : Usable ⟨binding, n⟩ ctx.db) (h' : Usable ⟨binding, m⟩ ctx'.db)
    (htidy : ctx.db.Tidy) (htidy' : ctx'.db.Tidy) (hstore : ctx.db.store = ctx'.db.store) :
    (putAsync ⟨binding, n⟩ object).ending ctx = (putAsync ⟨binding, m⟩ object).ending ctx' := by
  obtain ⟨box, hget, hopen⟩ := Database.isOpen_iff.1 h.box
  obtain ⟨box', hget', hopen'⟩ := Database.isOpen_iff.1 h'.box
  obtain ⟨boxes, user, hput⟩ := @putAsync_of_intent _ _ ⟨binding, n⟩ object ctx box
    (Database.requireBox_eq_ok.2 ⟨hget, hopen⟩) (htidy.idle hget) hquiet
  obtain ⟨boxes', user', hput'⟩ := @putAsync_of_intent _ _ ⟨binding, m⟩ object ctx' box'
    (Database.requireBox_eq_ok.2 ⟨hget', hopen'⟩) (htidy'.idle hget') hquiet
  have hintents : intent ⟨binding, m⟩ object ctx'.db.store
      = intent ⟨binding, n⟩ object ctx.db.store := by
    rw [hstore]
    rfl
  rw [hintents] at hput'
  cases hintent : intent ⟨binding, n⟩ object ctx.db.store with
  | mk outcome s =>
    rw [hintent] at hput hput'
    cases outcome with
    | error e => rw [ending_of_error hput, ending_of_error hput']
    | ok r =>
      dsimp only at hput hput'
      cases henqueue : s.enqueue (r.1.toPut r.2) with
      | error e =>
        rw [henqueue] at hput hput'
        rw [ending_of_error hput, ending_of_error hput']
      | ok s' =>
        rw [henqueue] at hput hput'
        rw [ending_of_ok hput, ending_of_ok hput']

end TypedBox

/-! ## Calls -/

/-- An operation through either of two boxes that can be used. -/
theorem BoxOp.ending_perform_eq {σ α : Type} {n m : BoxNumber} {binding : Binding σ α}
    (op : BoxOp α) (hquiet : ∀ object ∈ op.puts, ∀ id, (binding.assemble object id).Quiet)
    {ctx ctx' : Context σ} (h : TypedBox.Usable ⟨binding, n⟩ ctx.db)
    (h' : TypedBox.Usable ⟨binding, m⟩ ctx'.db) (hstore : ctx.db.store = ctx'.db.store) :
    (op.perform ⟨binding, n⟩).ending ctx = (op.perform ⟨binding, m⟩).ending ctx' := by
  -- every operation is a change of the result of the one it is named after
  have hmap : ∀ {β : Type} {x y : Operation σ β} (f : β → BoxAnswer α),
      x.ending ctx = y.ending ctx' →
        (x >>= fun a => pure (f a)).ending ctx = (y >>= fun a => pure (f a)).ending ctx' := by
    intro β x y f hxy
    rw [Operation.ending_map, Operation.ending_map, hxy]
  cases op with
  | put object =>
    exact hmap _ (TypedBox.ending_put_eq (hquiet object List.mem_cons_self) h h' hstore)
  | putAll objects => exact hmap _ (TypedBox.ending_putAll_eq hquiet h h' hstore)
  | get id => exact hmap _ (TypedBox.ending_read_eq _ h h' hstore)
  | getAll => exact hmap _ (TypedBox.ending_read_eq _ h h' hstore)
  | contains id => exact hmap _ (TypedBox.ending_read_eq _ h h' hstore)
  | count => exact hmap _ (TypedBox.ending_read_eq _ h h' hstore)
  | remove id =>
    refine hmap _ (TypedBox.ending_write_eq (fun o => ?_) h h' hstore)
    exact (Operation.Level.lift _).bind fun changes => Operation.Level.of_pure ((), changes)
  | removeAll =>
    exact hmap _ (TypedBox.ending_write_eq (fun o => Operation.Level.of_pure _) h h' hstore)

namespace BoxCall

open Operation

variable {σ α : Type} {n m : BoxNumber} {binding : Binding σ α}

/-- **A call through either of two boxes of a binding** that can be used, on databases with the same
store, has the same outcome and leaves the same store, unless it closes the box. -/
theorem ending_eq {call : BoxCall α} (hcall : call ≠ .close)
    (hquiet : ∀ object ∈ call.puts, ∀ id, (binding.assemble object id).Quiet)
    {ctx ctx' : Context σ} (h : TypedBox.Usable ⟨binding, n⟩ ctx.db)
    (h' : TypedBox.Usable ⟨binding, m⟩ ctx'.db) (htidy : ctx.db.Tidy) (htidy' : ctx'.db.Tidy)
    (hstore : ctx.db.store = ctx'.db.store) :
    (call.run ⟨binding, n⟩).ending ctx = (call.run ⟨binding, m⟩).ending ctx' := by
  cases call with
  | close => exact absurd rfl hcall
  | putAsync object =>
    have hput := TypedBox.ending_putAsync_eq (hquiet object List.mem_cons_self) h h' htidy htidy'
      hstore
    unfold run
    rw [ending_map, ending_map, hput]
  | perform op => exact op.ending_perform_eq hquiet h h' hstore

end BoxCall

end ObjectStore
