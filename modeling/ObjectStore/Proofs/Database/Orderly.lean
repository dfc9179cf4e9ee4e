import Mathlib
import ObjectStore.Proofs.Database.Activity
import ObjectStore.Proofs.Database.Flatten
import ObjectStore.Proofs.Database.Reference

/-!
# Operations as runs of steps

Every operation on a database, whether it succeeds or fails, is a run of the steps of an `Activity`:
it takes a database at work to a database at work, with the same write transaction open and the same
puts under way as before (`Operation.Orderly`).  An operation is followed along its binds
(`Operation.Leads.bind`); within a put, the binding may itself operate on the database as long as
that is orderly (`Assembly.Orderly`).
-/

namespace ObjectStore

/-- The database is at work, with this write transaction open and these puts under way. -/
def Context.At {σ : Type} (w : Option Writer) (ps : List Intent) (ctx : Context σ) : Prop :=
  Activity.Reachable ⟨ctx.db, w, ps⟩

/-- The database is at work, with some write transaction open and these puts under way. -/
def Context.InWrite {σ : Type} (ps : List Intent) (ctx : Context σ) : Prop :=
  ∃ writer, ctx.At (some writer) ps

theorem Context.At.inWrite {σ : Type} {writer : Writer} {ps : List Intent} {ctx : Context σ}
    (h : ctx.At (some writer) ps) : ctx.InWrite ps := ⟨writer, h⟩

/-! ## Following an operation -/

namespace Operation

variable {σ α β : Type}

/-- From where `P` holds, an operation leads to where `Q` holds of its result, or, if it fails, to
where `E` holds. -/
def Leads (P : Context σ → Prop) (x : Operation σ α) (Q : α → Context σ → Prop)
    (E : Context σ → Prop) : Prop :=
  ∀ ctx, P ctx →
    match x ctx with
    | .ok a ctx' => Q a ctx'
    | .error _ ctx' => E ctx'

namespace Leads

variable {P E E' : Context σ → Prop} {Q : α → Context σ → Prop} {R : β → Context σ → Prop}
  {x : Operation σ α}

theorem of_pure {a : α} (h : ∀ ctx, P ctx → Q a ctx) : Leads P (pure a) Q E := h

/-- One operation after the other. -/
theorem bind {f : α → Operation σ β} (hx : Leads P x Q E) (hf : ∀ a, Leads (Q a) (f a) R E) :
    Leads P (x >>= f) R E := by
  intro ctx hctx
  have hone := hx ctx hctx
  cases hrun : x ctx with
  | ok a ctx' =>
    rw [hrun] at hone
    rw [bind_of_ok hrun]
    exact hf a ctx' hone
  | error e ctx' =>
    rw [hrun] at hone
    rw [bind_of_error hrun]
    exact hone

/-- After a failure less may be known. -/
theorem failing (hx : Leads P x Q E) (hE : ∀ ctx, E ctx → E' ctx) : Leads P x Q E' := by
  intro ctx hctx
  have h := hx ctx hctx
  cases hrun : x ctx with
  | ok a ctx' =>
    rw [hrun] at h
    exact h
  | error e ctx' =>
    rw [hrun] at h
    exact hE ctx' h

/-- What comes after an attempt goes on from its result, or from its failure. -/
theorem attempt_bind {f : Except BoxError α → Operation σ β} (hx : Leads P x Q E)
    (hok : ∀ a, Leads (Q a) (f (.ok a)) R E') (herror : ∀ e, Leads E (f (.error e)) R E') :
    Leads P (attempt x >>= f) R E' := by
  intro ctx hctx
  have h := hx ctx hctx
  cases hrun : x ctx with
  | ok a ctx' =>
    rw [hrun] at h
    rw [bind_of_ok (attempt_of_ok hrun)]
    exact hok a ctx' h
  | error e ctx' =>
    rw [hrun] at h
    rw [bind_of_ok (attempt_of_error hrun)]
    exact herror e ctx' h

/-- A result that is passed on changes nothing. -/
theorem lift (r : Except BoxError α) : Leads P (lift r) (fun _ => P) P := by
  intro ctx hctx
  cases r with
  | ok a => exact hctx
  | error e => exact hctx

/-- A question changes nothing. -/
theorem query (f : Database → Except BoxError α) : Leads P (query f) (fun _ => P) P := by
  intro ctx hctx
  rw [query_eq]
  exact lift (f ctx.db) ctx hctx

theorem update {f : Database → Except BoxError (α × Database)}
    (h : ∀ ctx a db, P ctx → f ctx.db = .ok (a, db) → Q a { ctx with db := db }) :
    Leads P (update f) Q P := by
  intro ctx hctx
  cases hf : f ctx.db with
  | ok r =>
    obtain ⟨a, db⟩ := r
    rw [update_of_ok hf]
    exact h ctx a db hctx hf
  | error e =>
    rw [update_of_error hf]
    exact hctx

theorem store {f : Store → Except StoreError (α × Store)}
    (h : ∀ ctx a s, P ctx → f ctx.db.store = .ok (a, s) → Q a (ctx.withStore s)) :
    Leads P (store f) Q P := by
  intro ctx hctx
  cases hf : f ctx.db.store with
  | ok r =>
    obtain ⟨a, s⟩ := r
    rw [store_of_ok hf]
    exact h ctx a s hctx hf
  | error e =>
    rw [store_of_error hf]
    exact hctx

/-- What the store's rules allow or refuse changes nothing by itself. -/
theorem liftStore {r : Except StoreError α} (h : ∀ ctx a, P ctx → r = .ok a → Q a ctx) :
    Leads P (liftStore r) Q P := by
  intro ctx hctx
  cases r with
  | ok a => exact h ctx a hctx rfl
  | error e => exact hctx

end Leads

/-- An operation leaves the database at work, with the write transaction and the puts under way that
it found. -/
def Orderly (x : Operation σ α) : Prop :=
  ∀ w ps, Leads (Context.At w ps) x (fun _ => Context.At w ps) (Context.At w ps)

theorem Orderly.bind {x : Operation σ α} {f : α → Operation σ β} (hx : x.Orderly)
    (hf : ∀ a, (f a).Orderly) : (x >>= f).Orderly :=
  fun w ps => (hx w ps).bind fun a => hf a w ps

theorem orderly_pure (a : α) : (pure a : Operation σ α).Orderly :=
  fun _ _ => .of_pure fun _ => id

end Operation

/-! ## Assemblies -/

namespace Assembly

variable {σ : Type}

/-- What a binding does with the database while it puts an object together is orderly. -/
inductive Orderly : Assembly σ → Prop
  | done (outcome : Except BoxError Unit) : Orderly (.done outcome)
  | call {c : BuilderCall} {next : Except ObjectError BuilderAnswer → Assembly σ}
      (hnext : ∀ answer, Orderly (next answer)) : Orderly (.call c next)
  | act {action : Context σ → Context σ} {next : Assembly σ}
      (haction : ∀ w ps ctx, Context.At w ps ctx → Context.At w ps (action ctx))
      (hnext : Orderly next) : Orderly (.act action next)

/-- Leaving the database alone is orderly. -/
theorem Quiet.orderly {a : Assembly σ} (h : a.Quiet) : a.Orderly := by
  induction h with
  | done outcome => exact .done outcome
  | call _ ih => exact .call ih
  | act haction _ ih =>
    refine .act (fun w ps ctx hat => ?_) ih
    unfold Context.At at hat ⊢
    rw [haction]
    exact hat

theorem Orderly.run {a : Assembly σ} (h : a.Orderly) {w : Option Writer} {ps : List Intent}
    (bench : Workbench) {ctx : Context σ} (hat : ctx.At w ps) : (a.run bench ctx).2.2.At w ps := by
  induction h generalizing bench ctx with
  | done outcome => exact hat
  | call _ ih => exact ih _ _ hat
  | act haction _ ih => exact ih bench (haction w ps ctx hat)

end Assembly

/-- Whatever a binding does with the database while it puts an object together is orderly. -/
def Binding.Orderly {σ α : Type} (b : Binding σ α) (object : α) : Prop :=
  ∀ id, (b.assemble object id).Orderly

/-! ## Operations -/

open Operation

namespace TypedBox

variable {σ α β : Type} {w : Option Writer} {ps : List Intent} {o : Overlay} {E : Context σ → Prop}

/-- Putting an object together leaves the database at work. -/
theorem leads_serialize (b : TypedBox σ α) {object : α} (hobject : b.binding.Orderly object)
    (id : ObjectId) (builder : Builder) :
    Leads (Context.At w ps) (b.serialize object id builder) (fun _ => Context.At w ps) E := by
  intro ctx hat
  have hrun := (hobject id).run (.ofBuilder builder) hat
  unfold serialize
  cases hbuilt : (b.binding.assemble object id).run (.ofBuilder builder) ctx with
  | mk outcome rest =>
    rw [hbuilt] at hrun
    cases outcome with
    | error e => exact hrun
    | ok _ =>
      dsimp only
      cases rest.1.builder.deliver <;> exact hrun

/-! ### Asynchronous puts -/

/-- A put that has failed is forgotten. -/
theorem at_of_forget (p : Intent) {ctx : Context σ} (h : ctx.At w (p :: ps)) : ctx.At w ps := by
  have hstep := Activity.Reachable.step h (.forget p)
  simp only [List.erase_cons_head] at hstep
  exact hstep

theorem leads_issueId (b : TypedBox σ α) (candidate : ObjectId) :
    Leads (Context.At w ps) (b.issueId candidate)
      (fun id => Context.At w (⟨b.binding.type, candidate, id⟩ :: ps)) (Context.At w ps) :=
  .store fun _ _ _ hat hissue => hat.step (.issue hissue)

theorem leads_enqueue (p : Intent) (data : Bytes) :
    Leads (Context.At (σ := σ) w (p :: ps))
      (store fun s => (s.enqueue (p.toPut data)).map ((), ·)) (fun _ => Context.At w ps)
      (Context.At w (p :: ps)) := by
  refine .store fun ctx _ s hat henqueue => ?_
  obtain ⟨_, hs, heq⟩ := map_eq_ok.1 henqueue
  cases heq
  have hstep := Activity.Reachable.step hat (.enqueue List.mem_cons_self hs)
  simp only [List.erase_cons_head] at hstep
  exact hstep

theorem leads_borrow (b : TypedBox σ α) :
    Leads (Context.At w ps) b.borrow (fun _ => Context.At w ps) (Context.At w ps) := by
  refine .update fun ctx loan db hat hborrow => ?_
  simp only [bind_eq_ok, pure_eq_ok] at hborrow
  obtain ⟨box, hbox, heq⟩ := hborrow
  cases heq
  exact hat.step (.lend hbox)

theorem leads_giveBack (b : TypedBox σ α) (loan : Loan) :
    Leads (Context.At w ps) (b.giveBack loan) (fun _ => Context.At w ps) E := by
  intro ctx hat
  obtain ⟨db, hgive, rfl | ⟨box, hbox, rfl⟩⟩ := b.giveBack_eq loan ctx
  · rw [hgive]
    exact hat
  · rw [hgive]
    exact hat.step (.takeBack hbox loan)

/-- **An asynchronous put is a run of steps**: an ID is issued, a builder lent, the put queued or
forgotten, and the builder taken back. -/
theorem orderly_putAsync (b : TypedBox σ α) {object : α} (hobject : b.binding.Orderly object) :
    (b.putAsync object).Orderly := by
  intro w ps
  refine (Leads.query _).bind fun _ => (Leads.lift _).bind fun current => ?_
  refine (b.leads_issueId current).bind fun minted => ?_
  -- from here on the put is under way, and where it fails it is forgotten
  refine (b.leads_borrow.failing fun _ => at_of_forget _).bind fun loan => ?_
  refine (b.leads_serialize hobject minted loan.builder).bind fun ⟨outcome, builder⟩ => ?_
  have hqueue : Leads (Context.At (σ := σ) w (⟨b.binding.type, current, minted⟩ :: ps)) (do
      let bytes ← lift outcome
      store fun s => (s.enqueue ⟨b.binding.type, minted, bytes, current ≠ 0⟩).map ((), ·))
      (fun _ => Context.At w ps) (Context.At w (⟨b.binding.type, current, minted⟩ :: ps)) :=
    (Leads.lift outcome).bind fun bytes => leads_enqueue ⟨b.binding.type, current, minted⟩ bytes
  have hrest : ∀ queued : Except BoxError Unit, Leads (Context.At (σ := σ) w ps) (do
      b.giveBack (loan.withBuilder builder)
      lift queued
      return (minted, b.binding.withId object minted))
      (fun _ => Context.At w ps) (Context.At w ps) := by
    intro queued
    refine (b.leads_giveBack _).bind fun _ => ?_
    exact (Leads.lift queued).bind fun _ => .of_pure fun _ => id
  have hqueued := hqueue.failing fun _ => at_of_forget _
  exact hqueued.attempt_bind (fun _ => hrest (.ok ())) fun e => hrest (.error e)

/-! ### Write transactions -/

/-- The write transaction ends without its changes. -/
theorem leads_release (e : BoxError) {Q : β → Context σ → Prop} :
    Leads (Context.InWrite ps) (do
      store fun s => .ok ((), s.releaseWriter)
      throw e) Q (Context.At none ps) := by
  rintro ctx ⟨writer, hat⟩
  have hrelease : store (fun s => .ok ((), s.releaseWriter)) ctx
      = .ok () (ctx.withStore ctx.db.store.releaseWriter) := store_of_ok rfl
  rw [bind_of_ok hrelease]
  exact hat.step (.writeRelease rfl)

theorem leads_commit (changes : Overlay) :
    Leads (Context.At (σ := σ) (some ⟨changes, none⟩) ps) (commit changes)
      (fun _ => Context.At none ps) (Context.At none ps) := by
  have hcommit : Leads (Context.At (σ := σ) (some ⟨changes, none⟩) ps)
      (store fun s => (s.commit changes).map ((), ·)) (fun _ => Context.At none ps)
      (Context.At (some ⟨changes, none⟩) ps) := by
    refine .store fun ctx _ s hat hok => ?_
    obtain ⟨_, hs, heq⟩ := map_eq_ok.1 hok
    cases heq
    exact hat.step (.writeCommit rfl hs)
  have hfailing := hcommit.failing fun _ => Context.At.inWrite
  exact hfailing.attempt_bind (fun _ => .of_pure fun _ => id) fun e => leads_release e

/-- A write transaction can be opened only while there is none. -/
theorem leads_beginWrite :
    Leads (Context.At (σ := σ) w ps) beginWrite
      (fun o ctx => w = none ∧ ctx.At (some ⟨o, none⟩) ps) (Context.At w ps) := by
  refine (Leads.query _).bind fun _ => .store fun ctx o s hat hopen => ⟨?_, ?_⟩
  · have hwriting := (Activity.Reachable.covered hat).writing
    obtain ⟨-, hfree, -, -⟩ := Store.openWriter_eq_ok.1 hopen
    have hnone : w.isSome = false := hwriting.symm.trans hfree
    cases w with
    | none => rfl
    | some writer => cases hnone
  · exact hat.step (.writeBegin hopen)

/-- **A write is a run of steps** if its work is one within the write transaction. -/
theorem orderly_write (b : TypedBox σ α) {work : Overlay → Operation σ (β × Overlay)}
    (hwork : ∀ o ps, Leads (Context.At (some ⟨o, none⟩) ps) (work o)
      (fun r => Context.At (some ⟨r.2, none⟩) ps) (Context.InWrite ps)) :
    (b.write work).Orderly := by
  intro w ps
  refine (Leads.query _).bind fun _ => leads_beginWrite.bind fun o => ?_
  rintro ctx ⟨rfl, hat⟩
  have hinside : Leads (Context.At (some ⟨o, none⟩) ps) (do
      query fun db => (db.store.requireType b.binding.type).mapError .ofStore
      work o) (fun r => Context.At (some ⟨r.2, none⟩) ps) (Context.InWrite ps) := by
    refine Leads.bind ?_ fun _ => hwork o ps
    exact (Leads.query _).failing fun _ => Context.At.inWrite
  refine hinside.attempt_bind (fun r => ?_) (fun e => leads_release e) ctx hat
  exact (leads_commit r.2).bind fun _ => .of_pure fun _ => id

/-- A read leaves the database as it is. -/
theorem orderly_read (b : TypedBox σ α) (answer : Payloads → Except BoxError β) :
    (b.read answer).Orderly :=
  fun _ _ => (Leads.query _).bind fun _ => (Leads.query _).bind fun _ => .lift _

/-- **A put within the write transaction**: an ID is issued, and the transaction puts the object or
stays at it. -/
theorem leads_putWithin (b : TypedBox σ α) {object : α} (hobject : b.binding.Orderly object)
    (builder : Builder) :
    Leads (Context.At (some ⟨o, none⟩) ps) (b.putWithin object o builder)
      (fun r => Context.At (some ⟨r.2.1, none⟩) ps) (Context.InWrite ps) := by
  have hopen : ∀ {writer : Writer} (ctx : Context σ), ctx.At (some writer) ps → ctx.InWrite ps :=
    fun _ => Context.At.inWrite
  refine ((Leads.lift _).failing hopen).bind fun current => ?_
  have hissue : Leads (Context.At (some ⟨o, none⟩) ps) (b.issueId current)
      (fun minted => Context.At (some ⟨o, some ⟨b.binding.type, current, minted⟩⟩) ps)
      (Context.At (some ⟨o, none⟩) ps) :=
    .store fun _ _ _ hat hissue => hat.step (.writeIssue rfl hissue)
  refine (hissue.failing hopen).bind fun minted => ?_
  refine (b.leads_serialize hobject minted builder).bind fun ⟨outcome, builder⟩ => ?_
  refine ((Leads.lift outcome).failing hopen).bind fun bytes => ?_
  have hput : Leads (Context.At (σ := σ) (some ⟨o, some ⟨b.binding.type, current, minted⟩⟩) ps)
      (liftStore (o.put b.binding.type minted bytes (current ≠ 0)))
      (fun o' => Context.At (some ⟨o', none⟩) ps)
      (Context.At (some ⟨o, some ⟨b.binding.type, current, minted⟩⟩) ps) :=
    .liftStore fun _ _ hat hput => hat.step (.writePut rfl hput)
  exact (hput.failing hopen).bind fun _ => .of_pure fun _ => id

/-- Puts within the write transaction, by induction on the objects. -/
theorem leads_putEachWithin (b : TypedBox σ α) {objects : List α}
    (hobjects : ∀ object ∈ objects, b.binding.Orderly object) (builder : Builder) :
    Leads (Context.At (some ⟨o, none⟩) ps) (b.putEachWithin objects o builder)
      (fun r => Context.At (some ⟨r.2, none⟩) ps) (Context.InWrite ps) := by
  induction objects generalizing o builder with
  | nil => exact .of_pure fun _ => id
  | cons object objects ih =>
    have hobject := hobjects object List.mem_cons_self
    refine (b.leads_putWithin hobject builder).bind fun ⟨_, o', builder'⟩ => ?_
    have hrest := fun object hmem => hobjects object (List.mem_cons_of_mem _ hmem)
    exact (ih hrest builder').bind fun ⟨_, _⟩ => .of_pure fun _ => id

theorem orderly_put (b : TypedBox σ α) {object : α} (hobject : b.binding.Orderly object) :
    (b.put object).Orderly := by
  refine (b.orderly_write fun o ps => ?_).bind fun _ => orderly_pure _
  exact (b.leads_putWithin hobject .new).bind fun ⟨_, _, _⟩ => .of_pure fun _ => id

theorem orderly_putAll (b : TypedBox σ α) {objects : List α}
    (hobjects : ∀ object ∈ objects, b.binding.Orderly object) : (b.putAll objects).Orderly := by
  unfold putAll
  split
  · exact orderly_pure _
  · refine (b.orderly_write fun o ps => ?_).bind fun _ => orderly_pure _
    exact b.leads_putEachWithin hobjects .new

theorem orderly_remove (b : TypedBox σ α) (id : ObjectId) : (b.remove id).Orderly := by
  refine b.orderly_write fun o ps => ?_
  have hremove : Leads (Context.At (σ := σ) (some ⟨o, none⟩) ps) (liftStore (o.remove b.binding.type id))
      (fun o' => Context.At (some ⟨o', none⟩) ps) (Context.At (some ⟨o, none⟩) ps) :=
    .liftStore fun _ _ hat hremove => hat.step (.writeRemove rfl hremove)
  exact (hremove.failing fun _ => Context.At.inWrite).bind fun _ => .of_pure fun _ hat => hat

theorem orderly_removeAll (b : TypedBox σ α) : b.removeAll.Orderly :=
  b.orderly_write fun _ _ => .of_pure fun _ hat => hat.step (.writeRemoveAll rfl _)

/-- **What is done with the objects of a box is a run of steps.** -/
theorem orderly_perform (b : TypedBox σ α) {op : BoxOp α}
    (hputs : ∀ object ∈ op.puts, b.binding.Orderly object) : (op.perform b).Orderly := by
  cases op with
  | put object => exact (b.orderly_put (hputs object List.mem_cons_self)).bind fun _ => orderly_pure _
  | putAll objects => exact (b.orderly_putAll hputs).bind fun _ => orderly_pure _
  | get id => exact (b.orderly_read _).bind fun _ => orderly_pure _
  | getAll => exact (b.orderly_read _).bind fun _ => orderly_pure _
  | contains id => exact (b.orderly_read _).bind fun _ => orderly_pure _
  | count => exact (b.orderly_read _).bind fun _ => orderly_pure _
  | remove id => exact (b.orderly_remove id).bind fun _ => orderly_pure _
  | removeAll => exact b.orderly_removeAll.bind fun _ => orderly_pure _

/-- Closing a box is a step. -/
theorem orderly_close (b : TypedBox σ α) : b.close.Orderly := by
  refine fun w ps => .update fun ctx _ db hat hok => ?_
  obtain ⟨_, hclose, heq⟩ := map_eq_ok.1 hok
  cases heq
  exact hat.step (.closeBox hclose)

end TypedBox

namespace Database

variable {σ α : Type}

/-- Getting a box is a step. -/
theorem orderly_boxOf (b : Binding σ α) : (boxOf b).Orderly := by
  refine fun w ps => .update fun ctx _ db hat hok => ?_
  simp only [bind_eq_ok, pure_eq_ok] at hok
  obtain ⟨⟨n, db'⟩, hfind, heq⟩ := hok
  cases heq
  exact hat.step (.openBox hfind)

/-- Waiting is nothing but steps of the worker. -/
theorem orderly_awaitPuts : (awaitPuts : Operation σ Unit).Orderly := by
  refine fun w ps => .update fun ctx _ db hat hok => ?_
  obtain ⟨_, hdrain, heq⟩ := map_eq_ok.1 hok
  cases heq
  simp only [drain, bind_eq_ok, mapError_eq_ok, pure_eq_ok, Store.drain_eq_ok] at hdrain
  obtain ⟨_, -, s, ⟨-, -, rfl⟩, rfl⟩ := hdrain
  exact Activity.Reachable.runWorker hat _

/-- Closing the database is a step. -/
theorem orderly_closeAll : (closeAll : Operation σ Unit).Orderly := by
  refine fun w ps => .update fun ctx _ db hat hok => ?_
  obtain ⟨_, hclose, heq⟩ := map_eq_ok.1 hok
  cases heq
  exact hat.step (.close hclose)

end Database

end ObjectStore
