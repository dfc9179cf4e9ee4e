import Mathlib
import ObjectStore.Database.TypedBox
import ObjectStore.Proofs.Object.RoundTrip
import ObjectStore.Proofs.Store.Effects

/-!
# What a binding makes of an object

`Binding.flatten b object id` is what a binding makes of an object under an ID: the bytes that a new
builder delivers.  A box does not use a new builder for every object; it resets the one that it has.
A reset changes nothing but the generation of a builder, and no answer of a builder depends on the
generation that it started in (`Assembly.build_shift`).  So the bytes are the same
(`TypedBox.serialize_eq`), provided that the binding leaves the database alone while it puts an
object together (`Assembly.Quiet`).
-/

namespace ObjectStore

/-! ## Generations -/

/-- The ticket of a builder that was reset `k` times more. -/
def Ticket.shift (k : UInt64) (t : Ticket) : Ticket := ⟨t.generation + k⟩

/-- The builder after `k` resets more before its object. -/
def Builder.shift (k : UInt64) (b : Builder) : Builder := { b with generation := b.generation + k }

/-- The workbench with a builder that was reset `k` times more before its object. -/
def Workbench.shift (k : UInt64) (w : Workbench) : Workbench :=
  ⟨w.builder.shift k, w.tickets.map (Ticket.shift k)⟩

/-- Tickets stay equal and stay different. -/
theorem Ticket.shift_inj {k : UInt64} {t t' : Ticket} : t.shift k = t'.shift k ↔ t = t' := by
  obtain ⟨g⟩ := t
  obtain ⟨g'⟩ := t'
  simp [shift]

namespace Builder

variable (k : UInt64) (b : Builder)

theorem start_shift (id : ObjectId) :
    (b.shift k).start id = (b.start id).map (shift k) := by
  obtain ⟨state, generation⟩ := b
  cases state <;> rfl

theorem add_shift (slot : Slot) (value : Value) :
    (b.shift k).add slot value = (b.add slot value).map (shift k) := by
  obtain ⟨state, generation⟩ := b
  cases state with
  | filling object =>
    simp only [shift, add]
    split <;> rfl
  | _ => rfl

theorem complete_shift :
    (b.shift k).complete = b.complete.map fun r => (r.1.shift k, r.2.shift k) := by
  obtain ⟨state, generation⟩ := b
  cases state <;> rfl

theorem pack_shift (t : Ticket) :
    (b.shift k).pack (t.shift k) = (b.pack t).map (shift k) := by
  obtain ⟨state, generation⟩ := b
  obtain ⟨g⟩ := t
  simp only [shift, Ticket.shift, pack_eq, ne_eq, UInt64.add_left_inj]
  split
  · rfl
  · cases state <;> rfl

theorem packedBytes_shift : (b.shift k).packedBytes = b.packedBytes := rfl

theorem reset_shift : (b.shift k).reset = b.reset.shift k := by
  simp only [shift, reset, mk.injEq, true_and]
  rw [UInt64.add_assoc, UInt64.add_comm k 1, ← UInt64.add_assoc]

/-- The bytes that are delivered do not depend on the generation. -/
theorem deliver_shift :
    (b.shift k).deliver = b.deliver.map fun r => (r.1, r.2.shift k) := by
  rw [deliver, deliver, complete_shift]
  cases b.complete with
  | error e => rfl
  | ok r =>
    obtain ⟨ticket, b⟩ := r
    simp only [bind, Except.bind, Except.map, pack_shift]
    cases b.pack ticket with
    | error e => rfl
    | ok b =>
      simp only [packedBytes_shift]
      cases b.packedBytes <;> rfl

end Builder

namespace Workbench

variable (k : UInt64) (w : Workbench)

theorem ticket_shift (number : Nat) :
    (w.shift k).ticket number = (w.ticket number).map (Ticket.shift k) := by
  simp only [ticket, shift, List.getElem?_map]
  cases w.tickets[number]? <;> rfl

/-- **No answer depends on the generation** that a builder started in. -/
theorem call?_shift (c : BuilderCall) :
    (w.shift k).call? c = (w.call? c).map fun r => (r.1, r.2.shift k) := by
  obtain ⟨b, tickets⟩ := w
  cases c with
  | start id =>
    simp only [call?, shift, Builder.start_shift]
    cases b.start id <;> rfl
  | add slot value =>
    simp only [call?, shift, Builder.add_shift]
    cases b.add slot value <;> rfl
  | complete =>
    simp only [call?, shift, Builder.complete_shift]
    cases b.complete with
    | error e => rfl
    | ok r => simp [bind, Except.bind, Except.map, pure, Except.pure]
  | pack number =>
    simp only [call?, ticket_shift]
    cases Workbench.ticket ⟨b, tickets⟩ number with
    | error e => rfl
    | ok ticket =>
      simp only [bind, Except.bind, Except.map, shift, Builder.pack_shift]
      cases b.pack ticket <;> rfl
  | packedBytes =>
    simp only [call?, shift, Builder.packedBytes_shift]
    cases b.packedBytes <;> rfl
  | isIdle => rfl
  | reset =>
    simp only [call?, shift, Builder.reset_shift]
    rfl
  | decode =>
    simp only [call?, shift, Builder.packedBytes_shift]
    cases b.packedBytes with
    | error e => rfl
    | ok bytes =>
      simp only [bind, Except.bind]
      cases Object.decode bytes <;> rfl
  | sameTicket i j =>
    simp only [call?, ticket_shift]
    cases Workbench.ticket ⟨b, tickets⟩ i with
    | error e => rfl
    | ok t =>
      simp only [bind, Except.bind, Except.map]
      cases Workbench.ticket ⟨b, tickets⟩ j with
      | error e => rfl
      | ok t' =>
        have hsame : (t.shift k == t'.shift k) = (t == t') := by
          rw [Bool.eq_iff_iff, beq_iff_eq, beq_iff_eq, Ticket.shift_inj]
        simp only [hsame, pure, Except.pure]

theorem call_shift (c : BuilderCall) :
    (w.shift k).call c = ((w.call c).1, (w.call c).2.shift k) := by
  have hshift := call?_shift k w c
  cases h : w.call? c with
  | ok r =>
    rw [h] at hshift
    rw [call_of_ok h, call_of_ok hshift]
  | error e =>
    rw [h] at hshift
    rw [call_of_error h, call_of_error hshift]

end Workbench

/-! ## Assemblies -/

namespace Assembly

variable {σ : Type}

/-- What an assembly does with a builder, whatever it does besides. -/
def build : Assembly σ → Workbench → Except BoxError Unit × Workbench
  | .done outcome, w => (outcome, w)
  | .call c next, w => (next (w.call c).1).build (w.call c).2
  | .act _ next, w => next.build w

/-- The assembly leaves the database alone. -/
inductive Quiet : Assembly σ → Prop
  | done (outcome : Except BoxError Unit) : Quiet (.done outcome)
  | call {c : BuilderCall} {next : Except ObjectError BuilderAnswer → Assembly σ}
      (hnext : ∀ answer, Quiet (next answer)) : Quiet (.call c next)
  | act {action : Context σ → Context σ} {next : Assembly σ}
      (haction : ∀ ctx, (action ctx).db = ctx.db) (hnext : Quiet next) : Quiet (.act action next)

/-- What a quiet assembly does with a builder does not depend on the database, and nothing happens
to the database. -/
theorem run_of_quiet {a : Assembly σ} (h : a.Quiet) (w : Workbench) (ctx : Context σ) :
    ∃ user, a.run w ctx = ((a.build w).1, (a.build w).2, ⟨ctx.db, user⟩) := by
  induction h generalizing w ctx with
  | done outcome => exact ⟨ctx.user, rfl⟩
  | call hnext ih => exact ih _ _ ctx
  | @act action next haction hnext ih =>
    obtain ⟨user, hrun⟩ := ih w (action ctx)
    -- what the user keeps may change, the database does not
    rw [haction] at hrun
    exact ⟨user, hrun⟩

/-- **The outcome does not depend on the generation** of the builder. -/
theorem build_shift (k : UInt64) (a : Assembly σ) (w : Workbench) :
    a.build (w.shift k) = ((a.build w).1, (a.build w).2.shift k) := by
  induction a generalizing w with
  | done outcome => rfl
  | call c next ih => rw [build, Workbench.call_shift, ih, build]
  | act action next ih => exact ih w

/-- A builder call is quiet. -/
theorem quiet_andThen (c : BuilderCall) {next : Assembly σ} (h : next.Quiet) :
    (andThen c next).Quiet := by
  refine .call fun answer => ?_
  cases answer with
  | ok _ => exact h
  | error e => exact .done _

/-- Builder calls are quiet. -/
theorem quiet_calls (cs : List BuilderCall) : (calls cs : Assembly σ).Quiet := by
  induction cs with
  | nil => exact .done _
  | cons c cs ih => exact quiet_andThen c ih

end Assembly

/-! ## Flattening -/

/-- **What a binding makes of an object** under an ID. -/
def Binding.flatten {σ α : Type} (b : Binding σ α) (object : α) (id : ObjectId) :
    Except BoxError Bytes :=
  match (b.assemble object id).build .new with
  | (.ok (), w) => (w.builder.deliver.map Prod.fst).mapError .codec
  | (.error e, _) => .error e

/-- What is delivered is the encoding of an object. -/
theorem Builder.deliver_eq_ok {b b' : Builder} {bytes : Bytes} (h : b.deliver = .ok (bytes, b')) :
    ∃ object : Object, bytes = object.encode := by
  simp only [deliver, bind_eq_ok, pure_eq_ok] at h
  obtain ⟨⟨ticket, completed⟩, -, packed, hpack, bytes', hbytes, heq⟩ := h
  cases heq
  rw [pack_eq] at hpack
  split at hpack
  · cases hpack
  · split at hpack
    · cases hpack
      cases hbytes
      exact ⟨_, rfl⟩
    · cases hpack

/-- The bytes of an object are never none. -/
theorem Object.encode_ne_nil (o : Object) : o.encode ≠ [] := by
  rw [encode]
  exact List.append_ne_nil_of_left_ne_nil (by decide) _

/-- A binding never makes an object of no bytes. -/
theorem Binding.flatten_ne_nil {σ α : Type} {b : Binding σ α} {object : α} {id : ObjectId}
    {bytes : Bytes} (h : b.flatten object id = .ok bytes) : bytes ≠ [] := by
  rw [flatten] at h
  split at h
  · rename_i w _
    cases hdeliver : w.builder.deliver with
    | error e =>
      rw [hdeliver] at h
      cases h
    | ok r =>
      rw [hdeliver] at h
      cases h
      obtain ⟨object, hobject⟩ := Builder.deliver_eq_ok hdeliver
      rw [hobject]
      exact object.encode_ne_nil
  · cases h

/-- **Any idle builder serves as well as a new one.** -/
theorem TypedBox.serialize_eq {σ α : Type} (b : TypedBox σ α) {object : α} {id : ObjectId}
    (hquiet : (b.binding.assemble object id).Quiet) {builder : Builder}
    (hidle : builder.isIdle = true) (ctx : Context σ) :
    ∃ builder' user, b.serialize object id builder ctx
      = .ok (b.binding.flatten object id, builder') ⟨ctx.db, user⟩ := by
  -- an idle builder is a new one that was reset as often as its generation says
  have hbuilder : Workbench.ofBuilder builder = Workbench.new.shift builder.generation := by
    obtain ⟨state, generation⟩ := builder
    cases state with
    | idle =>
      have hzero : (0 : UInt64) + generation = generation := UInt64.zero_add generation
      simp only [Workbench.ofBuilder, Workbench.new, Workbench.shift, Builder.shift, Builder.new,
        hzero, List.map_nil]
    | _ => cases hidle
  obtain ⟨user, hrun⟩ := Assembly.run_of_quiet hquiet (.ofBuilder builder) ctx
  rw [hbuilder, Assembly.build_shift] at hrun
  rw [serialize, hbuilder, hrun, Binding.flatten]
  cases hbuild : (b.binding.assemble object id).build .new with
  | mk outcome w =>
    cases outcome with
    | error e => exact ⟨_, user, rfl⟩
    | ok _ =>
      simp only [Workbench.shift, Builder.deliver_shift]
      cases w.builder.deliver with
      | error e => exact ⟨_, user, rfl⟩
      | ok r => exact ⟨_, user, rfl⟩

end ObjectStore
