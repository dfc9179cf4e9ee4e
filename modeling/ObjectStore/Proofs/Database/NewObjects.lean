import Mathlib
import ObjectStore.Entities
import ObjectStore.Proofs.Database.Orderly

/-!
# New objects do not collide

An object that is put without an ID gets a new one, and nobody holds that: no object is committed,
pending, queued or in flight under it, whatever else is under way on the database.  So the put is
never refused because an object exists already, and it replaces none
(`new_objects_never_collide`).
-/

namespace ObjectStore

open Operation

/-- New objects do not collide with others. -/
structure Activity.NoCollision (x : Activity) : Prop where
  /-- Every ID that is held was issued. -/
  issued : ∀ type id, x.Holds type id → id ≤ x.db.store.lastId type
  /-- Nobody holds a new ID. -/
  unheld : ∀ type id s, x.db.store.issueId type 0 = .ok (id, s) → ¬ x.Holds type id
  /-- What is put under a new ID is accepted, and it replaces nothing. -/
  accepted : ∀ o p, x.writer = some ⟨o, some p⟩ → p.candidate = 0 →
    (x.db.store.committed.payloads p.type).contains p.id = false ∧
      (o.payloads p.type).contains p.id = false ∧
      ∀ data, data ≠ [] → o.put p.type p.id data false
        = .ok (o.change p.type ((o.payloads p.type).insert p.id data))

/-- **Nothing collides** in a database at work. -/
theorem Activity.Reachable.noCollision {x : Activity} (h : x.Reachable) : x.NoCollision where
  issued := fun _ _ => h.covered.holds_le
  unheld := fun _ _ _ => h.covered.not_holds_of_issueId
  accepted := by
    intro o p hw hzero
    obtain ⟨hvalid, hbound⟩ := h.covered.valid hw rfl
    obtain ⟨hcommitted, hpending⟩ := h.covered.new hw rfl hzero
    refine ⟨hcommitted, hpending, fun data hdata => ?_⟩
    exact Overlay.put_eq_ok.2 ⟨checkPut_eq_ok hvalid hbound hdata, Or.inr hpending, rfl⟩

namespace TypedBox

variable {σ α : Type}

/-- The bytes of an object are never none. -/
theorem serialize_ne_nil {b : TypedBox σ α} {object : α} {id : ObjectId}
    {builder builder' : Builder} {ctx ctx' : Context σ} {bytes : Bytes}
    (h : b.serialize object id builder ctx = .ok (.ok bytes, builder') ctx') : bytes ≠ [] := by
  unfold serialize at h
  cases hrun : (b.binding.assemble object id).run (.ofBuilder builder) ctx with
  | mk outcome rest =>
    rw [hrun] at h
    cases outcome with
    | error e => cases h
    | ok _ =>
      dsimp only at h
      cases hdeliver : rest.1.builder.deliver with
      | error e =>
        rw [hdeliver] at h
        cases h
      | ok r =>
        rw [hdeliver] at h
        cases h
        obtain ⟨object, hobject⟩ := Builder.deliver_eq_ok hdeliver
        rw [hobject]
        exact object.encode_ne_nil

/-- In a write transaction, a new object gets an ID that nobody holds, and once the binding has made
its bytes, the put is accepted and adds one object. -/
def AddsNew (b : TypedBox σ α) : Prop :=
  ∀ {ctx ctx' : Context σ} {o : Overlay} {ps : List Intent} {object : α} {id : ObjectId} {s : Store}
    {builder builder' : Builder} {bytes : Bytes},
    ctx.At (some ⟨o, none⟩) ps → b.binding.idOf object = .ok 0 →
    ctx.db.store.issueId b.binding.type 0 = .ok (id, s) →
    b.serialize object id builder (ctx.withStore s) = .ok (.ok bytes, builder') ctx' →
      ¬ Activity.Holds ⟨ctx.db, some ⟨o, none⟩, ps⟩ b.binding.type id ∧
        b.putWithin object o builder ctx = .ok (id,
          o.change b.binding.type ((o.payloads b.binding.type).insert id bytes), builder'.reset) ctx'

theorem addsNew (b : TypedBox σ α) : b.AddsNew := by
  intro ctx ctx' o ps object id s builder builder' bytes hat hcurrent hissue hserialize
  refine ⟨(Activity.Reachable.noCollision hat).unheld _ _ _ hissue, ?_⟩
  -- the transaction is at this put now
  have hstep : Activity.Reachable _ := hat.step (.writeIssue rfl hissue)
  obtain ⟨-, -, haccepted⟩ := hstep.noCollision.accepted _ _ rfl rfl
  have hissued : b.issueId 0 ctx = .ok id (ctx.withStore s) := store_of_ok hissue
  have hput : (liftStore (o.put b.binding.type id bytes (decide ((0 : ObjectId) ≠ 0))) :
      Operation σ Overlay) ctx' = .ok (o.change b.binding.type
        ((o.payloads b.binding.type).insert id bytes)) ctx' := by
    rw [liftStore]
    have hok := haccepted bytes (serialize_ne_nil hserialize)
    have hflag : decide ((0 : ObjectId) ≠ 0) = false := rfl
    rw [hflag, hok]
    rfl
  unfold putWithin
  rw [hcurrent, bind_of_ok (lift_ok (0 : ObjectId) ctx), bind_of_ok hissued, bind_of_ok hserialize]
  exact bind_of_ok hput

/-- Whatever is done through a box, successful or not, leaves the database at work. -/
structure Orderly (b : TypedBox σ α) : Prop where
  perform : ∀ op : BoxOp α, (∀ object ∈ op.puts, b.binding.Orderly object) → (op.perform b).Orderly
  putAsync : ∀ object, b.binding.Orderly object → (b.putAsync object).Orderly
  close : b.close.Orderly
  reopen : (Database.boxOf b.binding).Orderly

end TypedBox

/-- **New objects never collide**: not in any database at work, to which every operation on boxes and
databases leads, even one that fails or that a binding makes while it puts an object together. -/
theorem new_objects_never_collide {σ α : Type} (b : TypedBox σ α) :
    (∀ x : Activity, x.Reachable → x.NoCollision) ∧ b.AddsNew ∧ b.Orderly ∧
      (Database.awaitPuts : Operation σ Unit).Orderly ∧
      (Database.closeAll : Operation σ Unit).Orderly :=
  ⟨fun _ hx => hx.noCollision, b.addsNew,
    ⟨fun _ => b.orderly_perform, fun _ => b.orderly_putAsync, b.orderly_close,
      Database.orderly_boxOf _⟩,
    Database.orderly_awaitPuts, Database.orderly_closeAll⟩

/-- A store of records that has issued the IDs up to 8; the put of ID 7 waits in the queue, and a
write transaction is open. -/
def Store.recordsAtWork : Store where
  types := .ofList [(1, ⟨"Record", 8⟩)]
  committed := ∅
  writing := true
  queue := { PutQueue.ofOptions ({} : Config).options with waiting := [⟨1, 7, [0xA0], true⟩] }
  closed := false

/-- The record that got the ID 8 is being put. -/
def Activity.recordsAtWork : Activity :=
  ⟨⟨Store.recordsAtWork, [], ∅⟩, some ⟨.ofBase ∅, some ⟨1, 0, 8⟩⟩, []⟩

theorem new_objects_never_collide_recordsAtWork :
    Activity.recordsAtWork.Reachable ∧ Activity.recordsAtWork.Holds 1 7 ∧
      Activity.recordsAtWork.NoCollision ∧
      ((⟨Record.binding, 0⟩ : TypedBox Unit Record).putAsync ⟨0, "first", -3⟩).Orderly := by
  have hissued := Activity.reachable_ofRecords.step (@Activity.Step.issue _ 1 7 7 _ rfl)
  have hqueued := hissued.step (@Activity.Step.enqueue _ ⟨1, 7, 7⟩ [0xA0] _ (by decide) rfl)
  have hbegun := hqueued.step (.writeBegin rfl)
  have hminted : Activity.recordsAtWork.Reachable :=
    hbegun.step (@Activity.Step.writeIssue _ _ 1 0 8 _ rfl rfl)
  have hheld : Activity.recordsAtWork.Holds 1 7 :=
    Or.inl (Or.inr ⟨⟨1, 7, [0xA0], true⟩, List.mem_cons_self, rfl, rfl⟩)
  have h := new_objects_never_collide (⟨Record.binding, 0⟩ : TypedBox Unit Record)
  refine ⟨hminted, hheld, h.1 _ hminted, h.2.2.1.putAsync _ fun _ => ?_⟩
  exact (Assembly.quiet_calls _).orderly

end ObjectStore
