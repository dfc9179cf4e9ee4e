import Mathlib
import ObjectStore.Entities
import ObjectStore.Proofs.Database.Activity
import ObjectStore.Proofs.Database.Flatten
import ObjectStore.Proofs.Database.Transactions

/-!
# Putting now and putting later

An asynchronous put that is waited for comes to the same as a put at once: the same outcome, the
same IDs used, and the same bytes committed (`putAwaited_agrees_put`).  Both are shown to do what
`TypedBox.putOutcome` says.  They do so on different ways: one serializes with a new builder inside
a write transaction, the other with a builder that the box lends, and leaves it to the worker to
put the object, which drops what it may not put.
-/

namespace ObjectStore

open Operation

/-- How an operation ends: its outcome, and the store after it. -/
def Operation.ending {σ α : Type} (x : Operation σ α) (ctx : Context σ) :
    Except BoxError α × Store :=
  match x ctx with
  | .ok a ctx' => (.ok a, ctx'.db.store)
  | .error e ctx' => (.error e, ctx'.db.store)

theorem Operation.ending_of_ok {σ α : Type} {x : Operation σ α} {ctx ctx' : Context σ} {a : α}
    (h : x ctx = .ok a ctx') : x.ending ctx = (.ok a, ctx'.db.store) := by
  rw [ending, h]

theorem Operation.ending_of_error {σ α : Type} {x : Operation σ α} {ctx ctx' : Context σ}
    {e : BoxError} (h : x ctx = .error e ctx') : x.ending ctx = (.error e, ctx'.db.store) := by
  rw [ending, h]

/-! ## Stores -/

namespace Store

variable {s : Store}

/-- IDs are issued whether or not somebody writes. -/
theorem issueId_writing (s : Store) (type : TypeId) (candidate : ObjectId) :
    issueId { s with writing := true } type candidate
      = (s.issueId type candidate).map fun r => (r.1, { r.2 with writing := true }) := by
  obtain ⟨types, committed, writing, queue, closed⟩ := s
  unfold issueId requireOpen findType
  cases closed with
  | true => rfl
  | false =>
    dsimp only
    cases types.get? type with
    | none => rfl
    | some t =>
      simp only [bind, Except.bind, Bool.false_eq_true, if_false]
      cases t.issue candidate <;> rfl

/-- Ending a write transaction changes nothing where there is none. -/
theorem releaseWriter_eq (h : s.writing = false) : s.releaseWriter = s := by
  obtain ⟨types, committed, writing, queue, closed⟩ := s
  cases h
  rfl

/-- **The worker puts the one object that waits**, and has nothing to do then. -/
theorem settle_single {item : QueuedPut} (hready : s.Ready) (hopen : s.closed = false)
    (hfree : s.writing = false) (hworker : s.queue.worker = .free) (hwaiting : s.queue.waiting = []) :
    settle { s with queue := { s.queue with waiting := [item] } }
      = { s with committed := afterBatch s.committed [item] } := by
  obtain ⟨hclosing, -⟩ := hready.accepting hopen
  have hbatch := hready.maxBatch
  obtain ⟨types, committed, writing, ⟨capacity, maxBatch, timeout, waiting, worker, isClosing⟩,
    closed⟩ := s
  cases hfree
  cases hworker
  cases hwaiting
  cases hclosing
  cases maxBatch with
  | zero => cases hbatch
  | succ k =>
    -- it takes the object, puts it and reports it done
    simp [settle, runWorker, workerStep?, applyBatch?, PutQueue.next?, PutQueue.report?]

/-- **A put that is queued alone** is installed as soon as the worker gets to it. -/
theorem enqueue_settle {item : QueuedPut} {o : Overlay} (hready : s.Ready) (hopen : s.closed = false)
    (hfree : s.writing = false) (hidle : s.queue.isIdle = true)
    (hput : (Overlay.ofBase s.committed).put item.type item.id item.data item.mayReplace = .ok o) :
    ∃ s', s.enqueue item = .ok s' ∧ s'.closed = false ∧ s'.settle = s.install o := by
  obtain ⟨hclosing, hstopped⟩ := hready.accepting hopen
  obtain ⟨-, hwaiting⟩ := PutQueue.eq_nil_of_isIdle hidle
  have hworker : s.queue.worker = .free := by
    unfold PutQueue.isIdle at hidle
    rw [hwaiting] at hidle
    cases hw : s.queue.worker with
    | free => rfl
    | stopped => exact absurd hw hstopped
    | carrying batch =>
      rw [hw] at hidle
      cases hidle
    | reporting batch =>
      rw [hw] at hidle
      cases hidle
  have hpush : s.queue.push item = .ok { s.queue with waiting := [item] } := by
    refine PutQueue.push_eq_ok.2 ⟨hclosing, ?_, ?_⟩
    · rw [hwaiting]
      exact hready.capacity
    · rw [hwaiting]
      rfl
  refine ⟨_, enqueue_eq_ok.2 ⟨hopen, (Overlay.put_eq_ok.1 hput).1, _, hpush, rfl⟩, hopen, ?_⟩
  have hbatch : afterBatch s.committed [item] = o.result s.committed := by
    unfold afterBatch
    rw [List.foldl_cons, List.foldl_nil, Overlay.attempt, hput]
  rw [settle_single hready hopen hfree hworker hwaiting, hbatch, install, hfree]

end Store

/-- The changes to contents that a put makes alone. -/
def Intent.added (p : Intent) (bytes : Bytes) (c : Contents) : Overlay :=
  (Overlay.ofBase c).change p.type ((c.payloads p.type).insert p.id bytes)

namespace TypedBox

variable {σ α : Type} {b : TypedBox σ α} {object : α} {ctx : Context σ} {s s' : Store}

/-! ## What is put -/

/-- What a put of an object asks a store to take, or why there is nothing to take, and the store
once an ID was issued. -/
def intent (b : TypedBox σ α) (object : α) (s : Store) : Except BoxError (Intent × Bytes) × Store :=
  match b.binding.idOf object with
  | .error e => (.error e, s)
  | .ok candidate =>
    match s.issueId b.binding.type candidate with
    | .error e => (.error (.ofStore e), s)
    | .ok (id, s) =>
      match b.binding.flatten object id with
      | .error e => (.error e, s)
      | .ok bytes => (.ok (⟨b.binding.type, candidate, id⟩, bytes), s)

/-- An intent comes with the ID that the object brings along, one that was issued for it, and with
what the binding makes of the object. -/
theorem intent_eq_ok {p : Intent} {bytes : Bytes} (h : b.intent object s = (.ok (p, bytes), s')) :
    p.type = b.binding.type ∧ b.binding.idOf object = .ok p.candidate ∧
      s.issueId p.type p.candidate = .ok (p.id, s') ∧ b.binding.flatten object p.id = .ok bytes := by
  unfold intent at h
  cases hcurrent : b.binding.idOf object with
  | error e =>
    rw [hcurrent] at h
    cases h
  | ok candidate =>
    rw [hcurrent] at h
    dsimp only at h
    cases hissue : s.issueId b.binding.type candidate with
    | error e =>
      rw [hissue] at h
      cases h
    | ok r =>
      rw [hissue] at h
      dsimp only at h
      cases hflatten : b.binding.flatten object r.1 with
      | error e =>
        rw [hflatten] at h
        cases h
      | ok bytes =>
        rw [hflatten] at h
        cases h
        exact ⟨rfl, rfl, hissue, hflatten⟩

/-- Only the types of the store can change before the object is taken. -/
theorem intent_snd (b : TypedBox σ α) (object : α) (s : Store) :
    ∃ types, (b.intent object s).2 = { s with types := types } := by
  unfold intent
  cases b.binding.idOf object with
  | error e => exact ⟨s.types, rfl⟩
  | ok candidate =>
    dsimp only
    cases hissue : s.issueId b.binding.type candidate with
    | error e => exact ⟨s.types, rfl⟩
    | ok r =>
      obtain ⟨-, _, _, -, -, hs⟩ := Store.issueId_eq_ok.1 hissue
      dsimp only
      cases b.binding.flatten object r.1 with
      | error e => exact ⟨_, hs⟩
      | ok bytes => exact ⟨_, hs⟩

/-- It does not matter whether somebody writes. -/
theorem intent_writing (b : TypedBox σ α) (object : α) (s : Store) :
    b.intent object { s with writing := true }
      = ((b.intent object s).1, { (b.intent object s).2 with writing := true }) := by
  unfold intent
  cases b.binding.idOf object with
  | error e => rfl
  | ok candidate =>
    dsimp only
    rw [Store.issueId_writing]
    cases s.issueId b.binding.type candidate with
    | error e => rfl
    | ok r =>
      dsimp only [Except.map]
      cases b.binding.flatten object r.1 <;> rfl

/-- What a put comes to: the object under its ID, committed at once; or the failure. -/
def putOutcome (b : TypedBox σ α) (object : α) (s : Store) :
    Except BoxError (ObjectId × α) × Store :=
  match b.intent object s with
  | (.error e, s) => (.error e, s)
  | (.ok (p, bytes), s) =>
    (.ok (p.id, b.binding.withId object p.id), s.install (p.added bytes s.committed))

/-- A store takes what is put of an object. -/
def Takes (b : TypedBox σ α) (object : α) (s : Store) : Prop :=
  ∀ {p bytes s'}, b.intent object s = (.ok (p, bytes), s') →
    (Overlay.ofBase s'.committed).put p.type p.id bytes (p.candidate ≠ 0)
      = .ok (p.added bytes s'.committed)

/-! ## Now -/

/-- A put within a write transaction puts the intent, and leaves an idle builder. -/
theorem putWithin_of_intent (hquiet : ∀ id, (b.binding.assemble object id).Quiet) (builder : Builder)
    (hidle : builder.isIdle = true) (o : Overlay) (ctx : Context σ) :
    ∃ user builder', builder'.isIdle = true ∧ b.putWithin object o builder ctx =
      match b.intent object ctx.db.store with
      | (.error e, s) => .error e ⟨{ ctx.db with store := s }, user⟩
      | (.ok (p, bytes), s) =>
        match o.put p.type p.id bytes (p.candidate ≠ 0) with
        | .error e => .error (.ofStore e) ⟨{ ctx.db with store := s }, user⟩
        | .ok o' => .ok (p.id, o', builder') ⟨{ ctx.db with store := s }, user⟩ := by
  unfold putWithin intent
  cases hcurrent : b.binding.idOf object with
  | error e => exact ⟨ctx.user, builder, hidle, rfl⟩
  | ok candidate =>
    rw [bind_of_ok (lift_ok candidate ctx)]
    dsimp only
    cases hissue : ctx.db.store.issueId b.binding.type candidate with
    | error e =>
      have hrefused : b.issueId candidate ctx = .error (.ofStore e) ctx := store_of_error hissue
      exact ⟨ctx.user, builder, hidle, bind_of_error hrefused⟩
    | ok r =>
      obtain ⟨id, s⟩ := r
      have hissued : b.issueId candidate ctx = .ok id (ctx.withStore s) := store_of_ok hissue
      obtain ⟨builder', user, hserialize⟩ := b.serialize_eq (hquiet id) hidle (ctx.withStore s)
      refine ⟨user, builder'.reset, rfl, ?_⟩
      rw [bind_of_ok hissued, bind_of_ok hserialize]
      dsimp only
      cases b.binding.flatten object id with
      | error e => rfl
      | ok bytes =>
        rw [bind_of_ok (lift_ok bytes _)]
        dsimp only
        cases o.put b.binding.type id bytes (candidate ≠ 0) with
        | error e => rfl
        | ok o' => rfl

/-- **A put at once** comes to what is said. -/
theorem ending_put (h : b.Usable ctx.db) (hfree : ctx.db.store.writing = false)
    (hquiet : ∀ id, (b.binding.assemble object id).Quiet) (htakes : b.Takes object ctx.db.store) :
    (b.put object).ending ctx = b.putOutcome object ctx.db.store := by
  obtain ⟨types, htypes⟩ := b.intent_snd object ctx.db.store
  obtain ⟨user, builder, -, hwithin⟩ :=
    putWithin_of_intent hquiet .new rfl (.ofBase ctx.db.store.committed) (writing ctx)
  have hwriting : b.intent object (writing ctx).db.store = _ := b.intent_writing object ctx.db.store
  rw [hwriting] at hwithin
  unfold putOutcome
  cases hintent : b.intent object ctx.db.store with
  | mk outcome s =>
    rw [hintent] at hwithin
    obtain rfl : s = { ctx.db.store with types := types } := by
      rw [← htypes, hintent]
    cases outcome with
    | error e =>
      have hwork : b.putWork object (.ofBase ctx.db.store.committed) (writing ctx) = .error e _ :=
        bind_of_error hwithin
      have hfailed : b.put object ctx = .error e _ :=
        bind_of_error (write_of_error h hfree hwork)
      rw [ending_of_error hfailed]
      exact congrArg (Except.error e, ·)
        (Store.releaseWriter_eq (s := { ctx.db.store with types := types }) hfree)
    | ok r =>
      obtain ⟨p, bytes⟩ := r
      dsimp only at hwithin
      rw [htakes hintent] at hwithin
      have hwork : b.putWork object (.ofBase ctx.db.store.committed) (writing ctx)
          = .ok (p.id, _) _ := bind_of_ok hwithin
      have hdone : b.put object ctx = .ok (p.id, b.binding.withId object p.id) _ :=
        bind_of_ok (write_of_ok h hfree hwork h.store)
      rw [ending_of_ok hdone]
      rfl

/-! ## Later -/

/-- Puts an object asynchronously and waits for it. -/
def putAwaited (b : TypedBox σ α) (object : α) : Operation σ (ObjectId × α) := do
  let stored ← b.putAsync object
  Database.awaitPuts
  return stored

/-- An idle builder is lent, and only the boxes are changed. -/
theorem borrow_eq {box : BoxState} (hbox : ctx.db.requireBox b.binding.type b.number = .ok box)
    (hlender : box.lender.isLent = false → box.lender.builder.isIdle = true) :
    ∃ loan boxes, b.borrow ctx = .ok loan ⟨⟨ctx.db.store, boxes, ctx.db.current⟩, ctx.user⟩ ∧
      loan.builder.isIdle = true := by
  refine ⟨box.lender.lend.1, (ctx.db.setLender b.number box.lender.lend.2).boxes,
    update_of_ok ?_, ?_⟩
  · rw [hbox]
    rfl
  · unfold Lender.lend
    cases hlent : box.lender.isLent with
    | true => rfl
    | false => exact hlender hlent

/-- Whatever comes of an attempt, the builder is given back, and the outcome stands. -/
theorem attempt_giveBack (b : TypedBox σ α) (loan : Loan) {β : Type} (stored : β)
    {queue : Operation σ Unit} {ctx ctx' : Context σ} {outcome : Except BoxError Unit}
    (h : attempt queue ctx = .ok outcome ctx') :
    ∃ boxes, (do
        let queued ← attempt queue
        b.giveBack loan
        lift queued
        return stored) ctx
      = match outcome with
        | .error e => .error e ⟨⟨ctx'.db.store, boxes, ctx'.db.current⟩, ctx'.user⟩
        | .ok _ => .ok stored ⟨⟨ctx'.db.store, boxes, ctx'.db.current⟩, ctx'.user⟩ := by
  obtain ⟨boxes, hgive⟩ : ∃ boxes, b.giveBack loan ctx'
      = .ok () ⟨⟨ctx'.db.store, boxes, ctx'.db.current⟩, ctx'.user⟩ := by
    obtain ⟨db, hgive, rfl | ⟨box, -, rfl⟩⟩ := b.giveBack_eq loan ctx'
    · exact ⟨_, hgive⟩
    · exact ⟨_, hgive⟩
  refine ⟨boxes, ?_⟩
  rw [bind_of_ok h, bind_of_ok hgive]
  cases outcome <;> rfl

/-- What is queued is the put that the intent became. -/
theorem enqueue_eq (p : Intent) (bytes : Bytes) (ctx : Context σ) :
    (do
      let bytes ← lift (.ok bytes)
      store fun s => (s.enqueue ⟨p.type, p.id, bytes, p.candidate ≠ 0⟩).map ((), ·)) ctx
      = match ctx.db.store.enqueue (p.toPut bytes) with
        | .error e => .error (.ofStore e) ctx
        | .ok s => .ok () (ctx.withStore s) := by
  rw [bind_of_ok (lift_ok bytes ctx)]
  cases hok : ctx.db.store.enqueue (p.toPut bytes) with
  | error e =>
    refine store_of_error ?_
    rw [show ctx.db.store.enqueue ⟨p.type, p.id, bytes, p.candidate ≠ 0⟩ = .error e from hok]
    rfl
  | ok s =>
    refine store_of_ok ?_
    rw [show ctx.db.store.enqueue ⟨p.type, p.id, bytes, p.candidate ≠ 0⟩ = .ok s from hok]
    rfl

/-- An asynchronous put queues the intent. -/
theorem putAsync_of_intent {box : BoxState}
    (hbox : ctx.db.requireBox b.binding.type b.number = .ok box)
    (hlender : box.lender.isLent = false → box.lender.builder.isIdle = true)
    (hquiet : ∀ id, (b.binding.assemble object id).Quiet) :
    ∃ boxes user, b.putAsync object ctx =
      match b.intent object ctx.db.store with
      | (.error e, s) => .error e ⟨⟨s, boxes, ctx.db.current⟩, user⟩
      | (.ok (p, bytes), s) =>
        match s.enqueue (p.toPut bytes) with
        | .error e => .error (.ofStore e) ⟨⟨s, boxes, ctx.db.current⟩, user⟩
        | .ok s =>
          .ok (p.id, b.binding.withId object p.id) ⟨⟨s, boxes, ctx.db.current⟩, user⟩ := by
  have hrequire : b.require ctx = .ok box ctx := by
    rw [require, query_eq, hbox]
    rfl
  unfold putAsync intent
  rw [bind_of_ok hrequire]
  cases hcurrent : b.binding.idOf object with
  | error e => exact ⟨ctx.db.boxes, ctx.user, rfl⟩
  | ok candidate =>
    rw [bind_of_ok (lift_ok candidate ctx)]
    dsimp only
    cases hissue : ctx.db.store.issueId b.binding.type candidate with
    | error e =>
      have hrefused : b.issueId candidate ctx = .error (.ofStore e) ctx := store_of_error hissue
      exact ⟨ctx.db.boxes, ctx.user, bind_of_error hrefused⟩
    | ok r =>
      obtain ⟨id, s⟩ := r
      have hissued : b.issueId candidate ctx = .ok id (ctx.withStore s) := store_of_ok hissue
      obtain ⟨loan, boxes, hborrow, hloan⟩ : ∃ loan boxes, b.borrow (ctx.withStore s)
          = .ok loan ⟨⟨s, boxes, ctx.db.current⟩, ctx.user⟩ ∧ loan.builder.isIdle = true :=
        borrow_eq hbox hlender
      obtain ⟨builder, user, hserialize⟩ :=
        b.serialize_eq (hquiet id) hloan ⟨⟨s, boxes, ctx.db.current⟩, ctx.user⟩
      rw [bind_of_ok hissued, bind_of_ok hborrow, bind_of_ok hserialize]
      dsimp only
      -- the builder was lent by now, and is given back on each way out
      cases b.binding.flatten object id with
      | error e =>
        obtain ⟨boxes', hrest⟩ := b.attempt_giveBack (loan.withBuilder builder)
          (id, b.binding.withId object id) (attempt_of_error (bind_of_error (lift_error e _)))
        exact ⟨boxes', user, hrest⟩
      | ok bytes =>
        have hqueue := enqueue_eq ⟨b.binding.type, candidate, id⟩ bytes
          (⟨⟨s, boxes, ctx.db.current⟩, user⟩ : Context σ)
        dsimp only at hqueue ⊢
        cases henqueue : s.enqueue (Intent.toPut ⟨b.binding.type, candidate, id⟩ bytes) with
        | error e =>
          rw [henqueue] at hqueue
          obtain ⟨boxes', hrest⟩ := b.attempt_giveBack (loan.withBuilder builder)
            (id, b.binding.withId object id) (attempt_of_error hqueue)
          exact ⟨boxes', user, hrest⟩
        | ok s' =>
          rw [henqueue] at hqueue
          obtain ⟨boxes', hrest⟩ := b.attempt_giveBack (loan.withBuilder builder)
            (id, b.binding.withId object id) (attempt_of_ok hqueue)
          exact ⟨boxes', user, hrest⟩

/-- Waiting lets the worker go as far as it can, and succeeds if nothing is left to do. -/
theorem awaitPuts_eq (hopen : ctx.db.store.closed = false)
    (hidle : ctx.db.store.settle.queue.isIdle = true) :
    Database.awaitPuts ctx = .ok () (ctx.withStore ctx.db.store.settle) := by
  have hdrain := Store.drain_eq_ok.2 ⟨hopen, hidle, rfl⟩
  refine update_of_ok ?_
  unfold Database.drain Database.requireOpen Database.isClosed
  rw [hopen, hdrain]
  rfl

/-- **An asynchronous put that is waited for** comes to what is said. -/
theorem ending_putAwaited (h : b.Usable ctx.db) (hfree : ctx.db.store.writing = false)
    (hidle : ctx.db.store.queue.isIdle = true) (htidy : ctx.db.Tidy) (hready : ctx.db.store.Ready)
    (hquiet : ∀ id, (b.binding.assemble object id).Quiet) (htakes : b.Takes object ctx.db.store) :
    (b.putAwaited object).ending ctx = b.putOutcome object ctx.db.store := by
  obtain ⟨types, htypes⟩ := b.intent_snd object ctx.db.store
  obtain ⟨box, hget, hbox⟩ := Database.isOpen_iff.1 h.box
  obtain ⟨boxes, user, hput⟩ :=
    putAsync_of_intent (Database.requireBox_eq_ok.2 ⟨hget, hbox⟩) (htidy.idle hget) hquiet
  unfold putOutcome
  cases hintent : b.intent object ctx.db.store with
  | mk outcome s =>
    rw [hintent] at hput
    obtain rfl : s = { ctx.db.store with types := types } := by
      rw [← htypes, hintent]
    cases outcome with
    | error e =>
      have hfailed : b.putAwaited object ctx = .error e _ := bind_of_error hput
      rw [ending_of_error hfailed]
    | ok r =>
      obtain ⟨p, bytes⟩ := r
      obtain ⟨s, henqueue, hopen, hsettle⟩ :=
        @Store.enqueue_settle { ctx.db.store with types := types } (p.toPut bytes) _
          (hready.congr rfl rfl) h.store hfree hidle (htakes hintent)
      dsimp only at hput
      rw [henqueue] at hput
      -- the worker has nothing but this put to do, and nobody keeps it from applying it
      have hawait : Database.awaitPuts (⟨⟨s, boxes, ctx.db.current⟩, user⟩ : Context σ)
          = .ok () ⟨⟨s.settle, boxes, ctx.db.current⟩, user⟩ := by
        refine awaitPuts_eq hopen ?_
        show s.settle.queue.isIdle = true
        rw [hsettle]
        exact hidle
      have hdone : b.putAwaited object ctx = .ok (p.id, b.binding.withId object p.id)
          ⟨⟨s.settle, boxes, ctx.db.current⟩, user⟩ := (bind_of_ok hput).trans (bind_of_ok hawait)
      rw [ending_of_ok hdone]
      exact congrArg (Except.ok _, ·) hsettle

/-! ## Both -/

/-- **A database at work takes what is put**: the ID is one that objects can have, and a new ID is
held by nobody. -/
theorem takes {x : Activity} (hx : x.Reachable) (b : TypedBox σ α) (object : α) :
    b.Takes object x.db.store := by
  intro p bytes s hintent
  obtain ⟨-, -, hissue, hflatten⟩ := intent_eq_ok hintent
  have hbytes := Binding.flatten_ne_nil hflatten
  obtain ⟨-, -, -, hzero, hid, -⟩ := Store.issueId_spec (hx.covered.last_le _) hissue
  refine Overlay.put_eq_ok.2 ⟨checkPut_eq_ok hzero hid hbytes, ?_, rfl⟩
  by_cases hcandidate : p.candidate = 0
  · -- a new ID: the put would be refused if somebody held it
    rw [hcandidate] at hissue
    have hnew := hx.covered.not_holds_of_issueId hissue
    obtain ⟨-, _, _, -, -, rfl⟩ := Store.issueId_eq_ok.1 hissue
    exact Or.inr (Bool.eq_false_iff.2 fun hc => hnew (Or.inl (Or.inl hc)))
  · exact Or.inl (decide_eq_true hcandidate)

end TypedBox

/-- **An asynchronous put that is waited for agrees with a put at once**, while nothing is queued
and nobody writes: both end in the same way, with the same store. -/
theorem putAwaited_agrees_put {σ α : Type} {x : Activity} (hx : x.Reachable)
    (hidle : x.db.store.queue.isIdle = true) (hwriter : x.writer = none) {b : TypedBox σ α}
    (hserves : x.db.Serves b.number b.binding.type) (object : α)
    (hquiet : ∀ id, (b.binding.assemble object id).Quiet) (user : σ) :
    (b.putAwaited object).ending ⟨x.db, user⟩ = (b.put object).ending ⟨x.db, user⟩ := by
  obtain ⟨htidy, hready⟩ := hx.tidy
  have hfree : x.db.store.writing = false := by
    rw [hx.covered.writing, hwriter]
    rfl
  obtain ⟨box, hget, htype⟩ := hserves
  cases hopen : box.isOpen with
  | false =>
    -- neither gets beyond the box
    have hrequire : b.require (⟨x.db, user⟩ : Context σ)
        = .error (.boxClosed b.binding.type) ⟨x.db, user⟩ := by
      unfold TypedBox.require
      rw [query_eq, Database.requireBox, hget]
      simp only [hopen, Bool.false_eq_true, if_false]
      rfl
    have hlater : b.putAwaited object ⟨x.db, user⟩ = .error _ _ :=
      bind_of_error (bind_of_error hrequire)
    have hnow : b.put object ⟨x.db, user⟩ = .error _ _ := bind_of_error (bind_of_error hrequire)
    rw [ending_of_error hlater, ending_of_error hnow]
  | true =>
    obtain ⟨hstore, t, ht⟩ := htidy.usable hget hopen
    rw [htype] at ht
    have husable : b.Usable x.db := ⟨Database.isOpen_iff.2 ⟨box, hget, hopen⟩, hstore, t, ht⟩
    have hlater : (b.putAwaited object).ending ⟨x.db, user⟩ = b.putOutcome object x.db.store :=
      TypedBox.ending_putAwaited husable hfree hidle htidy hready hquiet (b.takes hx object)
    have hnow : (b.put object).ending ⟨x.db, user⟩ = b.putOutcome object x.db.store :=
      TypedBox.ending_put husable hfree hquiet (b.takes hx object)
    rw [hlater, hnow]

/-- A database of records whose box was just opened. -/
def Activity.recordsOpened : Activity where
  db := { Database.ofRecords with boxes := [⟨1, true, .new⟩], current := .ofList [(1, 0)] }
  writer := none
  intents := []

theorem putAwaited_agrees_put_firstRecord :
    Activity.recordsOpened.Reachable ∧
      ((⟨Record.binding, 0⟩ : TypedBox Unit Record).putAwaited ⟨0, "first", -3⟩).ending
          ⟨Activity.recordsOpened.db, ()⟩
        = ((⟨Record.binding, 0⟩ : TypedBox Unit Record).put ⟨0, "first", -3⟩).ending
          ⟨Activity.recordsOpened.db, ()⟩ ∧
      (((⟨Record.binding, 0⟩ : TypedBox Unit Record).put ⟨0, "first", -3⟩).ending
          ⟨Activity.recordsOpened.db, ()⟩).1 = .ok (1, ⟨1, "first", -3⟩) := by
  have hfind : Database.ofRecords.findOrOpen 1 = .ok (0, Activity.recordsOpened.db) := rfl
  have hopened : Activity.recordsOpened.Reachable :=
    Activity.reachable_ofRecords.step (.openBox hfind)
  have hserves : Activity.recordsOpened.db.Serves 0 1 :=
    Activity.reachable_ofRecords.serves_of_findOrOpen hfind .refl
  refine ⟨hopened, ?_, rfl⟩
  exact putAwaited_agrees_put hopened rfl rfl hserves _ (fun _ => Assembly.quiet_calls _) ()

end ObjectStore
