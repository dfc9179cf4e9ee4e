import Mathlib
import ObjectStore.Proofs.Database.BoxCache
import ObjectStore.Proofs.Database.FailedBoxCalls

/-!
# Every object alone

A batch makes all of its objects with one builder, and asynchronous puts share the builder of their
box.  What is asked of a box comes to the same as if every object were made alone, by a builder that
is new and thrown away afterwards (`TypedBox.serve_eq`).  What is done then is `TypedBox.serveAlone`,
a function of stores that knows no builder but the new one of `Binding.flatten`.

What carries the induction over the objects of a batch is that the builder is idle when an object's
turn comes (`TypedBox.comesTo_putEachWithin`).  Of the database nothing else is changed by a put but
the builder of a box, which is no part of its `Database.doors`.
-/

namespace ObjectStore

open Operation

/-! ## Requests -/

/-- What is asked of a box. -/
inductive PutRequest (α : Type)
  /-- A put of one object. -/
  | now (object : α)
  /-- A put of all objects in one transaction. -/
  | together (objects : List α)
  /-- An asynchronous put. -/
  | later (object : α)

/-- The objects of a request. -/
def PutRequest.objects {α : Type} : PutRequest α → List α
  | .now object => [object]
  | .together objects => objects
  | .later object => [object]

/-- Does what is asked of a box, and answers the IDs of the objects. -/
def TypedBox.serve {σ α : Type} (b : TypedBox σ α) : PutRequest α → Operation σ (List ObjectId)
  | .now object => do return [(← b.put object).1]
  | .together objects => do return (← b.putAll objects).1
  | .later object => do return [(← b.putAsync object).1]

/-- Work in a write transaction of its own: its changes are installed if it succeeds. -/
def inTransaction {β : Type} (work : Overlay → Store → Except BoxError (β × Overlay) × Store)
    (s : Store) : Except BoxError β × Store :=
  match work (.ofBase s.committed) s with
  | (.error e, s) => (.error e, s)
  | (.ok (answer, o), s) => (.ok answer, s.install o)

namespace TypedBox

variable {σ α : Type}

/-- Puts an object, made alone, into a write transaction. -/
def putOneAlone (b : TypedBox σ α) (object : α) (o : Overlay) (s : Store) :
    Except BoxError (ObjectId × Overlay) × Store :=
  match b.intent object s with
  | (.error e, s) => (.error e, s)
  | (.ok (p, bytes), s) =>
    match o.put p.type p.id bytes (p.candidate ≠ 0) with
    | .error e => (.error (.ofStore e), s)
    | .ok o => (.ok (p.id, o), s)

/-- Puts objects, each of them made alone, into a write transaction. -/
def putEachAlone (b : TypedBox σ α) :
    List α → Overlay → Store → Except BoxError (List ObjectId × Overlay) × Store
  | [], o, s => (.ok ([], o), s)
  | object :: objects, o, s =>
    match b.putOneAlone object o s with
    | (.error e, s) => (.error e, s)
    | (.ok (id, o), s) =>
      match b.putEachAlone objects o s with
      | (.error e, s) => (.error e, s)
      | (.ok (ids, o), s) => (.ok (id :: ids, o), s)

/-- Queues an object that was made alone. -/
def queueAlone (b : TypedBox σ α) (object : α) (s : Store) : Except BoxError ObjectId × Store :=
  match b.intent object s with
  | (.error e, s) => (.error e, s)
  | (.ok (p, bytes), s) =>
    match s.enqueue (p.toPut bytes) with
    | .error e => (.error (.ofStore e), s)
    | .ok s => (.ok p.id, s)

/-- Does what is asked of a box, each object made alone. -/
def serveAlone (b : TypedBox σ α) (isOpen : Bool) (request : PutRequest α) (s : Store) :
    Except BoxError (List ObjectId) × Store :=
  if request.objects.isEmpty then (.ok [], s)
  else if isOpen then
    match request with
    | .now object =>
      let (outcome, s) := inTransaction (b.putOneAlone object) s
      (outcome.map ([·]), s)
    | .together objects => inTransaction (b.putEachAlone objects) s
    | .later object =>
      let (outcome, s) := b.queueAlone object s
      (outcome.map ([·]), s)
  else (.error (.boxClosed b.binding.type), s)

end TypedBox

/-! ## Doors -/

/-- The types of the boxes, and which boxes are open. -/
def Database.doors (db : Database) : List (TypeId × Bool) :=
  db.boxes.map fun box => (box.type, box.isOpen)

namespace Database

variable {db db' : Database}

theorem isOpen_eq_of_doors (h : db'.doors = db.doors) : db'.isOpen = db.isOpen := by
  have hdoors : ∀ (db : Database) (n : BoxNumber),
      db.isOpen n = (db.doors[n]?.map Prod.snd).getD false := by
    intro db n
    unfold isOpen doors
    rw [List.getElem?_map]
    rcases db.boxes[n]? with _ | box <;> rfl
  funext n
  rw [hdoors, h, hdoors]

theorem Serves.of_doors (h : db'.doors = db.doors) {n : BoxNumber} {type : TypeId}
    (hserves : db.Serves n type) : db'.Serves n type := by
  obtain ⟨box, hbox, rfl⟩ := hserves
  have hdoor : db'.doors[n]? = some (box.type, box.isOpen) := by
    rw [h, doors, List.getElem?_map, hbox]
    rfl
  rw [doors, List.getElem?_map, Option.map_eq_some_iff] at hdoor
  obtain ⟨box', hbox', heq⟩ := hdoor
  exact ⟨box', hbox', (Prod.mk.inj heq).1⟩

/-- Lending a builder opens and closes no door. -/
theorem doors_setLender (db : Database) (n : BoxNumber) (l : Lender) :
    (db.setLender n l).doors = db.doors := by
  unfold doors setLender
  apply List.ext_getElem?
  intro m
  dsimp only
  rw [List.getElem?_map, List.getElem?_map, List.getElem?_modify]
  rcases db.boxes[m]? with _ | box
  · rfl
  · by_cases hm : n = m <;> simp [hm]

end Database

/-! ## What operations come to -/

namespace Operation

variable {σ α β : Type} {x : Operation σ α} {ctx : Context σ} {r : Except BoxError α × Store}

/-- What an operation comes to that has this outcome and leaves this store. -/
def finish (ctx : Context σ) : Except BoxError α × Store → EStateM.Result BoxError (Context σ) α
  | (.ok a, s) => .ok a (ctx.withStore s)
  | (.error e, s) => .error e (ctx.withStore s)

/-- An operation has this outcome, and of the database it changes the store alone, to this one. -/
def ComesTo (x : Operation σ α) (ctx : Context σ) (r : Except BoxError α × Store) : Prop :=
  ∃ user, x ctx = finish ⟨ctx.db, user⟩ r

namespace ComesTo

theorem ending (h : x.ComesTo ctx r) : x.ending ctx = r := by
  obtain ⟨user, hx⟩ := h
  rcases r with ⟨e | a, s⟩
  · exact ending_of_error hx
  · exact ending_of_ok hx

theorem boxes (h : x.ComesTo ctx r) : (x.after ctx).db.boxes = ctx.db.boxes := by
  obtain ⟨user, hx⟩ := h
  unfold after
  rw [hx]
  rcases r with ⟨e | a, s⟩ <;> rfl

/-- A result that is turned into another one. -/
theorem map (h : x.ComesTo ctx r) (f : α → β) :
    ComesTo (do return f (← x)) ctx (r.1.map f, r.2) := by
  obtain ⟨user, hx⟩ := h
  rcases r with ⟨e | a, s⟩
  · exact ⟨user, bind_of_error hx⟩
  · exact ⟨user, bind_of_ok hx⟩

end ComesTo

/-- What holds after an operation, however it ended. -/
theorem Leads.after {P Q : Context σ → Prop} (h : Leads P x (fun _ => Q) Q) (hctx : P ctx) :
    Q (x.after ctx) := by
  have hrun := h ctx hctx
  unfold Operation.after
  generalize x ctx = r at hrun
  cases r with
  | ok _ _ => exact hrun
  | error _ _ => exact hrun

theorem store_after (x : Operation σ α) (ctx : Context σ) :
    (x.after ctx).db.store = (x.ending ctx).2 := by
  unfold Operation.after ending
  cases x ctx <;> rfl

end Operation

/-! ## Puts in a transaction -/

/-- Work that changes the types of a store alone and does not ask who writes. -/
structure Aside {β : Type} (work : Overlay → Store → Except BoxError (β × Overlay) × Store) :
    Prop where
  types : ∀ o s, ∃ types, (work o s).2 = { s with types := types }
  writing : ∀ o s, work o { s with writing := true }
    = ((work o s).1, { (work o s).2 with writing := true })

namespace TypedBox

variable {σ α β : Type} {b : TypedBox σ α} {object : α} {objects : List α} {ctx : Context σ}

theorem aside_putOneAlone (b : TypedBox σ α) (object : α) : Aside (b.putOneAlone object) where
  types := by
    intro o s
    obtain ⟨types, htypes⟩ := b.intent_snd object s
    refine ⟨types, ?_⟩
    unfold putOneAlone
    rcases hintent : b.intent object s with ⟨e | ⟨p, bytes⟩, s'⟩
    · rw [hintent] at htypes
      exact htypes
    · rw [hintent] at htypes
      dsimp only
      rcases o.put p.type p.id bytes (p.candidate ≠ 0) with e | o' <;> exact htypes
  writing := by
    intro o s
    unfold putOneAlone
    rw [intent_writing]
    rcases b.intent object s with ⟨e | ⟨p, bytes⟩, s'⟩
    · rfl
    · dsimp only
      rcases o.put p.type p.id bytes (p.candidate ≠ 0) with e | o' <;> rfl

theorem aside_putEachAlone (b : TypedBox σ α) (objects : List α) :
    Aside (b.putEachAlone objects) := by
  induction objects with
  | nil => exact ⟨fun _ s => ⟨s.types, rfl⟩, fun _ _ => rfl⟩
  | cons object objects ih =>
    constructor
    · intro o s
      obtain ⟨types, htypes⟩ := (b.aside_putOneAlone object).types o s
      unfold putEachAlone
      rcases hone : b.putOneAlone object o s with ⟨e | ⟨id, o'⟩, s'⟩
      · rw [hone] at htypes
        exact ⟨types, htypes⟩
      · rw [hone] at htypes
        obtain rfl : s' = { s with types := types } := htypes
        obtain ⟨types', htypes'⟩ := ih.types o' { s with types := types }
        refine ⟨types', ?_⟩
        dsimp only
        generalize b.putEachAlone objects o' { s with types := types } = r at htypes' ⊢
        rcases r with ⟨e | others, s''⟩ <;> exact htypes'
    · intro o s
      unfold putEachAlone
      rw [(b.aside_putOneAlone object).writing]
      rcases b.putOneAlone object o s with ⟨e | ⟨id, o'⟩, s'⟩
      · rfl
      · dsimp only
        rw [ih.writing]
        rcases b.putEachAlone objects o' s' with ⟨e | others, s''⟩ <;> rfl

/-- **A write comes to its work** in a transaction of its own. -/
theorem comesTo_write (h : b.Usable ctx.db) (hfree : ctx.db.store.writing = false)
    {work : Overlay → Operation σ (β × Overlay)}
    {alone : Overlay → Store → Except BoxError (β × Overlay) × Store} (haside : Aside alone)
    (hwork : ∀ o ctx, (work o).ComesTo ctx (alone o ctx.db.store)) :
    (b.write work).ComesTo ctx (inTransaction alone ctx.db.store) := by
  obtain ⟨user, hdone⟩ := hwork (.ofBase ctx.db.store.committed) (writing ctx)
  have hstore : (writing ctx).db.store = { ctx.db.store with writing := true } := rfl
  -- the store is marked as written to, which the work does not notice
  rw [hstore, haside.writing] at hdone
  obtain ⟨types, htypes⟩ := haside.types (.ofBase ctx.db.store.committed) ctx.db.store
  unfold inTransaction
  generalize alone (.ofBase ctx.db.store.committed) ctx.db.store = r at hdone htypes
  rcases r with ⟨e | ⟨answer, o⟩, s⟩
  · obtain rfl : s = { ctx.db.store with types := types } := htypes
    have hreleased : Store.releaseWriter { ctx.db.store with types := types }
        = { ctx.db.store with types := types } := Store.releaseWriter_eq hfree
    refine ⟨user, (write_of_error h hfree hdone).trans ?_⟩
    exact congrArg (fun s => finish ⟨ctx.db, user⟩ (.error e, s)) hreleased
  · obtain rfl : s = { ctx.db.store with types := types } := htypes
    exact ⟨user, write_of_ok h hfree hdone h.store⟩

/-- **A put within a transaction** puts what a new builder delivers, and leaves an idle builder. -/
theorem comesTo_putWithin (hquiet : ∀ id, (b.binding.assemble object id).Quiet) {builder : Builder}
    (hidle : builder.isIdle = true) (o : Overlay) (ctx : Context σ) :
    ∃ builder', builder'.isIdle = true ∧ (b.putWithin object o builder).ComesTo ctx
      ((b.putOneAlone object o ctx.db.store).1.map fun r => (r.1, r.2, builder'),
        (b.putOneAlone object o ctx.db.store).2) := by
  obtain ⟨user, builder', hidle', hput⟩ := putWithin_of_intent hquiet builder hidle o ctx
  refine ⟨builder', hidle', user, hput.trans ?_⟩
  unfold putOneAlone
  rcases b.intent object ctx.db.store with ⟨e | ⟨p, bytes⟩, s⟩
  · rfl
  · dsimp only
    rcases o.put p.type p.id bytes (p.candidate ≠ 0) with e | o' <;> rfl

/-- **Puts within a transaction**, by induction on the objects: the builder that is passed on from one
to the next is idle each time. -/
theorem comesTo_putEachWithin
    (hquiet : ∀ object ∈ objects, ∀ id, (b.binding.assemble object id).Quiet) {builder : Builder}
    (hidle : builder.isIdle = true) (o : Overlay) (ctx : Context σ) :
    (b.putEachWithin objects o builder).ComesTo ctx (b.putEachAlone objects o ctx.db.store) := by
  induction objects generalizing builder o ctx with
  | nil => exact ⟨ctx.user, rfl⟩
  | cons object objects ih =>
    have hrest := fun other hmem => hquiet other (List.mem_cons_of_mem _ hmem)
    obtain ⟨builder', hidle', user, hone⟩ :=
      comesTo_putWithin (hquiet object List.mem_cons_self) hidle o ctx
    unfold putEachWithin putEachAlone
    generalize b.putOneAlone object o ctx.db.store = r at hone
    rcases r with ⟨e | ⟨id, o'⟩, s⟩
    · exact ⟨user, bind_of_error hone⟩
    · -- the builder that the first put leaves serves the others
      obtain ⟨user', hothers⟩ := ih hrest hidle' o' ⟨{ ctx.db with store := s }, user⟩
      refine ⟨user', (bind_of_ok hone).trans ?_⟩
      dsimp only at hothers ⊢
      generalize b.putEachAlone objects o' s = r at hothers ⊢
      rcases r with ⟨e | others, s'⟩
      · exact bind_of_error hothers
      · exact bind_of_ok hothers

/-! ## Requests on open and closed boxes -/

theorem comesTo_put (h : b.Usable ctx.db) (hfree : ctx.db.store.writing = false)
    (hquiet : ∀ id, (b.binding.assemble object id).Quiet) :
    (b.serve (.now object)).ComesTo ctx (b.serveAlone true (.now object) ctx.db.store) := by
  have hwork : ∀ o ctx, (b.putWork object o).ComesTo ctx (b.putOneAlone object o ctx.db.store) := by
    intro o ctx
    obtain ⟨builder, -, user, hput⟩ :=
      comesTo_putWithin hquiet (rfl : Builder.new.isIdle = true) o ctx
    refine ⟨user, ?_⟩
    generalize b.putOneAlone object o ctx.db.store = r at hput ⊢
    rcases r with ⟨e | put, s⟩
    · exact bind_of_error hput
    · exact bind_of_ok hput
  have hwrite := comesTo_write h hfree (b.aside_putOneAlone object) hwork
  have hanswer := (hwrite.map fun id => (id, b.binding.withId object id)).map fun stored => [stored.1]
  unfold serveAlone
  dsimp only [PutRequest.objects, List.isEmpty_cons, if_true, if_false, Bool.false_eq_true]
  generalize inTransaction (b.putOneAlone object) ctx.db.store = r at hanswer ⊢
  rcases r with ⟨e | id, s⟩ <;> exact hanswer

theorem comesTo_putAll (h : b.Usable ctx.db) (hfree : ctx.db.store.writing = false)
    (hquiet : ∀ object ∈ objects, ∀ id, (b.binding.assemble object id).Quiet) :
    (b.serve (.together objects)).ComesTo ctx
      (b.serveAlone true (.together objects) ctx.db.store) := by
  rcases objects with _ | ⟨object, objects⟩
  · exact ⟨ctx.user, rfl⟩
  · have hwork : ∀ o ctx, (b.putEachWithin (object :: objects) o .new).ComesTo ctx
        (b.putEachAlone (object :: objects) o ctx.db.store) := comesTo_putEachWithin hquiet rfl
    have hwrite := comesTo_write h hfree (b.aside_putEachAlone _) hwork
    have hanswer := (hwrite.map fun ids =>
      (ids, List.zipWith b.binding.withId (object :: objects) ids)).map Prod.fst
    unfold serveAlone
    dsimp only [PutRequest.objects, List.isEmpty_cons, if_true, if_false, Bool.false_eq_true]
    generalize inTransaction (b.putEachAlone (object :: objects)) ctx.db.store = r at hanswer ⊢
    rcases r with ⟨e | ids, s⟩ <;> exact hanswer

/-- A builder that is not lent is idle, so it serves an asynchronous put as well as a new one. -/
theorem ending_putAsync (h : b.Usable ctx.db) (htidy : ctx.db.Tidy)
    (hquiet : ∀ id, (b.binding.assemble object id).Quiet) :
    (b.serve (.later object)).ending ctx = b.serveAlone true (.later object) ctx.db.store := by
  obtain ⟨box, hget, hopen⟩ := Database.isOpen_iff.1 h.box
  obtain ⟨boxes, user, hput⟩ := putAsync_of_intent (Database.requireBox_eq_ok.2 ⟨hget, hopen⟩)
    (htidy.idle hget) hquiet
  unfold serveAlone queueAlone
  dsimp only [PutRequest.objects, List.isEmpty_cons, if_true, if_false, Bool.false_eq_true]
  generalize b.intent object ctx.db.store = r at hput ⊢
  rcases r with ⟨e | ⟨p, bytes⟩, s⟩
  · exact ending_of_error (bind_of_error hput)
  · dsimp only at hput ⊢
    generalize s.enqueue (p.toPut bytes) = r at hput ⊢
    rcases r with e | s'
    · exact ending_of_error (bind_of_error hput)
    · have hanswer : b.serve (.later object) ctx = .ok [p.id] _ := bind_of_ok hput
      exact ending_of_ok hanswer

/-- A request on a box that was closed is refused, unless it has no objects. -/
theorem comesTo_of_shut (h : ctx.db.Shut b.number) (request : PutRequest α) :
    (b.serve request).ComesTo ctx (b.serveAlone false request ctx.db.store) := by
  refine ⟨ctx.user, ?_⟩
  rcases request with object | ⟨_ | ⟨object, objects⟩⟩ | object
  · exact bind_of_error (bind_of_error (write_of_shut h _))
  · rfl
  · exact bind_of_error (bind_of_error (write_of_shut h _))
  · exact bind_of_error (bind_of_error (require_of_shut h))

/-- The database in a context has these doors. -/
def HasDoors (doors : List (TypeId × Bool)) (ctx : Context σ) : Prop := ctx.db.doors = doors

/-- An asynchronous put opens and closes no door, whatever becomes of it. -/
theorem doors_putAsync (hquiet : ∀ id, (b.binding.assemble object id).Quiet)
    (doors : List (TypeId × Bool)) :
    Leads (HasDoors doors) (b.putAsync object) (fun _ => HasDoors doors) (HasDoors doors) := by
  have hstore : ∀ {γ : Type} (f : Store → Except StoreError (γ × Store)),
      Leads (HasDoors (σ := σ) doors) (store f) (fun _ => HasDoors doors) (HasDoors doors) :=
    fun f => .store fun _ _ _ hctx _ => hctx
  have hborrow : Leads (HasDoors doors) b.borrow (fun _ => HasDoors doors) (HasDoors doors) := by
    refine .update fun ctx loan db hctx h => ?_
    simp only [bind_eq_ok, pure_eq_ok] at h
    obtain ⟨box, -, heq⟩ := h
    cases heq
    exact (Database.doors_setLender _ _ _).trans hctx
  have hgive : ∀ loan, Leads (HasDoors doors) (b.giveBack loan) (fun _ => HasDoors doors)
      (HasDoors doors) := by
    intro loan ctx hctx
    obtain ⟨db, hgive, rfl | ⟨box, -, rfl⟩⟩ := b.giveBack_eq loan ctx
    · rw [hgive]
      exact hctx
    · rw [hgive]
      exact (Database.doors_setLender _ _ _).trans hctx
  refine (Leads.query _).bind fun _ => (Leads.lift _).bind fun current => ?_
  refine (hstore _).bind fun minted => hborrow.bind fun loan => ?_
  refine (b.spends_serialize (hquiet minted) _ fun _ _ hctx => hctx).bind fun ⟨outcome, builder⟩ => ?_
  have hqueue := (Leads.lift (P := HasDoors (σ := σ) doors) outcome).bind fun bytes =>
    hstore fun s => (s.enqueue ⟨b.binding.type, minted, bytes, current ≠ 0⟩).map ((), ·)
  have hrest : ∀ queued : Except BoxError Unit, Leads (HasDoors (σ := σ) doors) (do
      b.giveBack (loan.withBuilder builder)
      lift queued
      return (minted, b.binding.withId object minted)) (fun _ => HasDoors doors) (HasDoors doors) :=
    fun queued => (hgive _).bind fun _ => (Leads.lift queued).bind fun _ => .of_pure fun _ => id
  exact hqueue.attempt_bind (fun _ => hrest (.ok ())) fun e => hrest (.error e)

/-- **What is asked of a box** is done as if every object were made alone, and no door is opened or
closed. -/
theorem serve_eq {request : PutRequest α} (htidy : ctx.db.Tidy)
    (hfree : ctx.db.store.writing = false) (hserves : ctx.db.Serves b.number b.binding.type)
    (hquiet : ∀ object ∈ request.objects, ∀ id, (b.binding.assemble object id).Quiet) :
    (b.serve request).ending ctx
        = b.serveAlone (ctx.db.isOpen b.number) request ctx.db.store ∧
      ((b.serve request).after ctx).db.doors = ctx.db.doors := by
  -- all but an asynchronous put leave the boxes as they are
  have hcomes : ∀ {r}, (b.serve request).ComesTo ctx r →
      (b.serve request).ending ctx = r ∧ ((b.serve request).after ctx).db.doors = ctx.db.doors :=
    fun h => ⟨h.ending, congrArg (List.map _) h.boxes⟩
  cases hopen : ctx.db.isOpen b.number with
  | false =>
    obtain ⟨box, hbox, -⟩ := hserves
    rw [Database.isOpen, hbox] at hopen
    exact hcomes (comesTo_of_shut ⟨box, hbox, hopen⟩ request)
  | true =>
    have husable : b.Usable ctx.db := htidy.usable_of_isOpen hserves hopen
    cases request with
    | now object => exact hcomes (comesTo_put husable hfree (hquiet object List.mem_cons_self))
    | together objects => exact hcomes (comesTo_putAll husable hfree hquiet)
    | later object =>
      have hobject := hquiet object List.mem_cons_self
      refine ⟨ending_putAsync husable htidy hobject, ?_⟩
      have hdoors : Leads (HasDoors ctx.db.doors) (b.serve (.later object))
          (fun _ => HasDoors ctx.db.doors) (HasDoors ctx.db.doors) :=
        (doors_putAsync hobject _).bind fun _ => .of_pure fun _ => id
      exact hdoors.after rfl

/-- What is asked of a box is a run of steps. -/
theorem orderly_serve (b : TypedBox σ α) {request : PutRequest α}
    (hquiet : ∀ object ∈ request.objects, ∀ id, (b.binding.assemble object id).Quiet) :
    (b.serve request).Orderly := by
  have horderly : ∀ object ∈ request.objects, b.binding.Orderly object :=
    fun object hobject id => (hquiet object hobject id).orderly
  cases request with
  | now object =>
    exact (b.orderly_put (horderly object List.mem_cons_self)).bind fun _ => orderly_pure _
  | together objects => exact (b.orderly_putAll horderly).bind fun _ => orderly_pure _
  | later object =>
    exact (b.orderly_putAsync (horderly object List.mem_cons_self)).bind fun _ => orderly_pure _

end TypedBox

end ObjectStore
