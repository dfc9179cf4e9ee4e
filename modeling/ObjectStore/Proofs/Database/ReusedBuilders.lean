import Mathlib
import ObjectStore.Proofs.Database.PutAlone

/-!
# Builders that are used again

On the boxes of a database objects are put, one after the other, at once, in batches and
asynchronously, while the worker goes on.  Whatever the bindings do with the builders that they are
given, and whatever fails, nothing of one object gets into another one: the history goes as it would
if each object were made alone (`PutEvent.run_eq`), and all bytes that are in the store in the end are
one object's own (`PutEvent.hasBytes_runAlone`).

The invariant of the history is that the database is at work, so a builder that is not lent is idle,
and that its doors are as they were.

Main statement: `reused_builders_do_not_leak`.
-/

namespace ObjectStore

open Operation

/-! ## Histories -/

/-- What happens to a database on which objects are put. -/
inductive PutEvent (σ : Type) : Type 1
  /-- The worker makes a step, if it can. -/
  | work
  /-- A call on a box. -/
  | call {α : Type} (b : TypedBox σ α) (request : PutRequest α)

/-- Bytes that a new builder delivers for one of these objects. -/
def TypedBox.Makes {σ α : Type} (b : TypedBox σ α) (objects : List α) (type : TypeId)
    (id : ObjectId) (bytes : Bytes) : Prop :=
  b.binding.type = type ∧ ∃ object ∈ objects, b.binding.flatten object id = .ok bytes

namespace PutEvent

variable {σ : Type}

def perform : PutEvent σ → Operation σ (List ObjectId)
  | .work => store fun s => .ok ([], s.runWorker 1)
  | .call b request => b.serve request

def performAlone (isOpen : BoxNumber → Bool) : PutEvent σ → Store →
    Except BoxError (List ObjectId) × Store
  | .work, s => (.ok [], s.runWorker 1)
  | .call b request, s => b.serveAlone (isOpen b.number) request s

/-- The outcomes of events, and the store after them. -/
def run : List (PutEvent σ) → Context σ → List (Except BoxError (List ObjectId)) × Store
  | [], ctx => ([], ctx.db.store)
  | e :: events, ctx =>
    let (outcomes, s) := run events (e.perform.after ctx)
    ((e.perform.ending ctx).1 :: outcomes, s)

/-- The outcomes of events, and the store after them, if every object is made alone. -/
def runAlone (isOpen : BoxNumber → Bool) : List (PutEvent σ) → Store →
    List (Except BoxError (List ObjectId)) × Store
  | [], s => ([], s)
  | e :: events, s =>
    let (outcomes, s') := runAlone isOpen events (e.performAlone isOpen s).2
    ((e.performAlone isOpen s).1 :: outcomes, s')

/-- A call is made on a box of the database, whose binding makes builder calls in any order, and
succeeds or fails in the end, but leaves the database alone. -/
def Fair (db : Database) : PutEvent σ → Prop
  | .work => True
  | .call b request => db.Serves b.number b.binding.type ∧
      ∀ object ∈ request.objects, ∀ id, (b.binding.assemble object id).Quiet

/-- Bytes that a new builder delivers for an object of the event. -/
def Makes (type : TypeId) (id : ObjectId) (bytes : Bytes) : PutEvent σ → Prop
  | .work => False
  | .call b request => b.Makes request.objects type id bytes

/-! ## Runs -/

variable {e : PutEvent σ} {db : Database} {ctx : Context σ} {ps : List Intent}

/-- What matters of a database is its doors. -/
theorem Fair.of_doors {db' : Database} (h : e.Fair db) (hdoors : db'.doors = db.doors) :
    e.Fair db' := by
  cases e with
  | work => trivial
  | call b request => exact ⟨h.1.of_doors hdoors, h.2⟩

/-- **An event goes as if every object were made alone**; the doors stay as they are, and the database
stays at work. -/
theorem perform_eq (hat : ctx.At none ps) (hfair : e.Fair ctx.db) :
    e.perform.ending ctx = e.performAlone ctx.db.isOpen ctx.db.store ∧
      (e.perform.after ctx).db.doors = ctx.db.doors ∧ (e.perform.after ctx).At none ps := by
  cases e with
  | work => exact ⟨rfl, rfl, Activity.Reachable.runWorker hat 1⟩
  | call b request =>
    obtain ⟨hserves, hquiet⟩ := hfair
    have hfree : ctx.db.store.writing = false := (Activity.Reachable.covered hat).writing
    obtain ⟨hending, hdoors⟩ := TypedBox.serve_eq hat.tidy.1 hfree hserves hquiet
    exact ⟨hending, hdoors, (b.orderly_serve hquiet none ps).after hat⟩

/-- **A history goes as if every object were made alone**, by induction on the events. -/
theorem run_eq (events : List (PutEvent σ)) (hat : ctx.At none ps)
    (hfair : ∀ e ∈ events, e.Fair ctx.db) :
    run events ctx = runAlone ctx.db.isOpen events ctx.db.store := by
  induction events generalizing ctx with
  | nil => rfl
  | cons e events ih =>
    obtain ⟨hending, hdoors, hat'⟩ := perform_eq hat (hfair e List.mem_cons_self)
    have hrest := ih hat' fun e' he' => (hfair e' (List.mem_cons_of_mem e he')).of_doors hdoors
    have hstore : (e.perform.after ctx).db.store = (e.performAlone ctx.db.isOpen ctx.db.store).2 := by
      rw [store_after, hending]
    -- the same boxes are open, so the rest goes on from the same store in the same way
    rw [Database.isOpen_eq_of_doors hdoors, hstore] at hrest
    rw [run, runAlone, hrest, hending]

end PutEvent

/-! ## Where bytes come from -/

namespace TypedBox

variable {σ α : Type} {b : TypedBox σ α} {object : α} {objects : List α} {o o' : Overlay}
  {s s' : Store} {type : TypeId} {id : ObjectId} {bytes : Bytes}

/-- An object that was put brings its own bytes into the transaction. -/
theorem get?_of_putOneAlone {minted : ObjectId}
    (h : b.putOneAlone object o s = (.ok (minted, o'), s'))
    (hget : (o'.payloads type).get? id = some bytes) :
    (o.payloads type).get? id = some bytes ∨ b.Makes [object] type id bytes := by
  unfold putOneAlone at h
  rcases hintent : b.intent object s with ⟨e | ⟨p, data⟩, s₁⟩
  · rw [hintent] at h
    cases h
  · rw [hintent] at h
    dsimp only at h
    rcases hput : o.put p.type p.id data (p.candidate ≠ 0) with e | o₁
    · rw [hput] at h
      cases h
    · rw [hput] at h
      cases h
      obtain ⟨htype, -, -, hflatten⟩ := intent_eq_ok hintent
      rcases Overlay.get?_of_put hput hget with hbefore | ⟨rfl, rfl, rfl⟩
      · exact Or.inl hbefore
      · exact Or.inr ⟨htype.symm, object, List.mem_cons_self, hflatten⟩

/-- Objects that were put bring their own bytes, by induction on the objects. -/
theorem get?_of_putEachAlone {ids : List ObjectId}
    (h : b.putEachAlone objects o s = (.ok (ids, o'), s'))
    (hget : (o'.payloads type).get? id = some bytes) :
    (o.payloads type).get? id = some bytes ∨ b.Makes objects type id bytes := by
  induction objects generalizing o s ids with
  | nil =>
    cases h
    exact Or.inl hget
  | cons object objects ih =>
    unfold putEachAlone at h
    rcases hone : b.putOneAlone object o s with ⟨e | ⟨minted, o₁⟩, s₁⟩
    · rw [hone] at h
      cases h
    · rw [hone] at h
      dsimp only at h
      rcases hrest : b.putEachAlone objects o₁ s₁ with ⟨e | others, s₂⟩
      · rw [hrest] at h
        cases h
      · rw [hrest] at h
        cases h
        rcases ih hrest with hbefore | ⟨htype, other, hother, hflatten⟩
        · rcases get?_of_putOneAlone hone hbefore with hbefore | ⟨htype, _, hmem, hflatten⟩
          · exact Or.inl hbefore
          · obtain rfl := List.mem_singleton.1 hmem
            exact Or.inr ⟨htype, _, List.mem_cons_self, hflatten⟩
        · exact Or.inr ⟨htype, other, List.mem_cons_of_mem object hother, hflatten⟩

/-- A transaction leaves the bytes of its work, and what was there before. -/
theorem hasBytes_inTransaction {β : Type} {P : Prop}
    {work : Overlay → Store → Except BoxError (β × Overlay) × Store} (haside : Aside work)
    (hwork : ∀ {o r s'}, work o s = (.ok r, s') → (r.2.payloads type).get? id = some bytes →
      (o.payloads type).get? id = some bytes ∨ P)
    (h : (inTransaction work s).2.HasBytes type id bytes) : s.HasBytes type id bytes ∨ P := by
  obtain ⟨types, htypes⟩ := haside.types (.ofBase s.committed) s
  unfold inTransaction at h
  rcases hdone : work (.ofBase s.committed) s with ⟨e | r, s₁⟩
  · rw [hdone] at h htypes
    obtain rfl : s₁ = { s with types := types } := htypes
    exact Or.inl h
  · rw [hdone] at h htypes
    obtain rfl : s₁ = { s with types := types } := htypes
    rcases Store.hasBytes_install h with hbefore | hshown
    · exact Or.inl hbefore
    · -- the transaction started with what is committed
      exact (hwork hdone hshown).imp_left Or.inl

/-- An object that was queued brings its own bytes. -/
theorem hasBytes_queueAlone (h : (b.queueAlone object s).2.HasBytes type id bytes) :
    s.HasBytes type id bytes ∨ b.Makes [object] type id bytes := by
  obtain ⟨types, htypes⟩ := b.intent_snd object s
  unfold queueAlone at h
  rcases hintent : b.intent object s with ⟨e | ⟨p, data⟩, s₁⟩
  · rw [hintent] at h htypes
    obtain rfl : s₁ = { s with types := types } := htypes
    exact Or.inl h
  · rw [hintent] at h htypes
    obtain rfl : s₁ = { s with types := types } := htypes
    dsimp only at h
    rcases henqueue : Store.enqueue { s with types := types } (p.toPut data) with e | s₂
    · rw [henqueue] at h
      exact Or.inl h
    · rw [henqueue] at h
      obtain ⟨htype, -, -, hflatten⟩ := intent_eq_ok hintent
      rcases Store.hasBytes_enqueue henqueue h with hbefore | ⟨rfl, rfl, rfl⟩
      · exact Or.inl hbefore
      · exact Or.inr ⟨htype.symm, object, List.mem_cons_self, hflatten⟩

/-- What is asked of a box brings the bytes of its objects and no others. -/
theorem hasBytes_serveAlone {isOpen : Bool} {request : PutRequest α}
    (h : (b.serveAlone isOpen request s).2.HasBytes type id bytes) :
    s.HasBytes type id bytes ∨ b.Makes request.objects type id bytes := by
  unfold serveAlone at h
  split at h
  · exact Or.inl h
  split at h
  · cases request with
    | now object =>
      exact hasBytes_inTransaction (b.aside_putOneAlone object) get?_of_putOneAlone h
    | together objects =>
      exact hasBytes_inTransaction (b.aside_putEachAlone objects) get?_of_putEachAlone h
    | later object => exact hasBytes_queueAlone h
  · exact Or.inl h

end TypedBox

namespace PutEvent

variable {σ : Type} {isOpen : BoxNumber → Bool} {s : Store} {type : TypeId} {id : ObjectId}
  {bytes : Bytes}

theorem hasBytes_performAlone {e : PutEvent σ}
    (h : (e.performAlone isOpen s).2.HasBytes type id bytes) :
    s.HasBytes type id bytes ∨ e.Makes type id bytes := by
  cases e with
  | work => exact Or.inl ((Store.worked_runWorker s 1).hasBytes h)
  | call b request => exact TypedBox.hasBytes_serveAlone h

/-- **All bytes are one object's own**, or were there before, by induction on the events. -/
theorem hasBytes_runAlone {events : List (PutEvent σ)}
    (h : (runAlone isOpen events s).2.HasBytes type id bytes) :
    s.HasBytes type id bytes ∨ ∃ e ∈ events, e.Makes type id bytes := by
  induction events generalizing s with
  | nil => exact Or.inl h
  | cons e events ih =>
    rcases ih h with hone | ⟨later, hlater, hmakes⟩
    · rcases hasBytes_performAlone hone with hbefore | hmakes
      · exact Or.inl hbefore
      · exact Or.inr ⟨e, List.mem_cons_self, hmakes⟩
    · exact Or.inr ⟨later, List.mem_cons_of_mem e hlater, hmakes⟩

end PutEvent

/-! ## The main theorem -/

/-- **Builders that are used again do not leak.**  On a database at work to which nobody writes, let
boxes be asked to put objects, at once, in batches and asynchronously, while the worker goes on, and
let the binding of each object make any builder calls before it succeeds or fails.  Then

* every outcome, and the store in the end, are those of putting every object alone, made by a builder
  that is new;
* all bytes in the store are those that a new builder delivers for one of the objects, or were there
  before. -/
theorem reused_builders_do_not_leak {σ : Type} {x : Activity} (hx : x.Reachable)
    (hwriter : x.writer = none) (events : List (PutEvent σ)) (hfair : ∀ e ∈ events, e.Fair x.db)
    (user : σ) :
    PutEvent.run events ⟨x.db, user⟩ = PutEvent.runAlone x.db.isOpen events x.db.store ∧
      ∀ {type id bytes}, (PutEvent.run events ⟨x.db, user⟩).2.HasBytes type id bytes →
        x.db.store.HasBytes type id bytes ∨ ∃ e ∈ events, e.Makes type id bytes := by
  have hat : Context.At none x.intents ⟨x.db, user⟩ := by
    rw [← hwriter]
    exact hx
  have hrun := PutEvent.run_eq events hat hfair
  refine ⟨hrun, fun hbytes => ?_⟩
  rw [hrun] at hbytes
  exact PutEvent.hasBytes_runAlone hbytes

/-- Notes are put by way of one box, and some of them are refused after they were started. -/
def PutEvent.notes : List (PutEvent Unit) :=
  let b : TypedBox Unit Note := ⟨Note.binding, 0⟩
  [.call b (.later ⟨0, ""⟩), .call b (.later ⟨0, "a"⟩), .call b (.together [⟨0, "b"⟩, ⟨0, ""⟩]),
    .call b (.now ⟨0, "c"⟩), .work, .work, .work]

/-- The notes that are in order are stored as if there had been no others. -/
theorem reused_builders_do_not_leak_refusedNotes :
    let refused : BoxError := .binding "note text must not be empty"
    let (outcomes, s) := PutEvent.run PutEvent.notes ⟨Activity.notesOpened.db, ()⟩
    Activity.notesOpened.Reachable ∧
      outcomes = [.error refused, .ok [2], .error refused, .ok [5], .ok [], .ok [], .ok []] ∧
      s.committed.payloads 4 = .ofList
        [(2, Object.encode ⟨2, .ofList [(1, .text "a")]⟩),
          (5, Object.encode ⟨5, .ofList [(1, .text "c")]⟩)] := by
  intro refused
  have hplan : Database.ofPlan { entities := [⟨4, "Note"⟩] } = .ok Database.ofNotes := rfl
  have hfind : Database.ofNotes.findOrOpen 4 = .ok (0, Activity.notesOpened.db) := rfl
  have hstart := Activity.Reachable.start hplan
  have hopened : Activity.notesOpened.Reachable := hstart.step (.openBox hfind)
  have hserves : Activity.notesOpened.db.Serves 0 4 := hstart.serves_of_findOrOpen hfind .refl
  have hwork : PutEvent.Fair Activity.notesOpened.db (.work : PutEvent Unit) := trivial
  have hcall : ∀ request : PutRequest Note, PutEvent.Fair Activity.notesOpened.db
      (.call (⟨Note.binding, 0⟩ : TypedBox Unit Note) request) :=
    fun request => ⟨hserves, fun n _ => n.quiet_assemble⟩
  have hfair : ∀ e ∈ PutEvent.notes, e.Fair Activity.notesOpened.db := by
    simp [PutEvent.notes, hcall, hwork]
  obtain ⟨hrun, -⟩ := reused_builders_do_not_leak hopened rfl PutEvent.notes hfair ()
  rw [hrun]
  exact ⟨hopened, by decide +kernel, by decide +kernel⟩

end ObjectStore
