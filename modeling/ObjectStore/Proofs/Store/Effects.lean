import Mathlib
import ObjectStore.Store.Connection
import ObjectStore.Proofs.Except

/-!
# What a successful call does

`Connection.Effect conn c answer conn'` lists, call by call, under which conditions a call succeeds,
what it answers and what the connection is afterwards.  `effect_of_call` says that a call which
succeeds does one of these things, so a law about all calls is shown by going through the effects
and no call is taken apart twice.
-/

namespace ObjectStore

namespace Store

theorem requireOpen_eq_ok {s : Store} {u : Unit} : s.requireOpen = .ok u ↔ s.closed = false := by
  rw [requireOpen]
  cases s.closed <;> simp

theorem findType_eq_ok {s : Store} {type : TypeId} {t : EntityType} :
    s.findType type = .ok t ↔ s.types.get? type = some t := by
  rw [findType]
  cases s.types.get? type <;> simp

/-- A type can be used if the store is open and the type registered. -/
theorem requireType_eq_ok {s : Store} {type : TypeId} {u : Unit} :
    s.requireType type = .ok u ↔ s.closed = false ∧ ∃ t, s.types.get? type = some t := by
  simp only [requireType, bind_eq_ok, requireOpen_eq_ok, findType_eq_ok, pure_eq_ok]
  constructor
  · rintro ⟨_, hopen, t, ht, _⟩
    exact ⟨hopen, t, ht⟩
  · rintro ⟨hopen, t, ht⟩
    exact ⟨(), hopen, t, ht, trivial⟩

/-- Registering a type changes the registered types and nothing else of the store. -/
theorem register_eq_ok {s s' : Store} {type : TypeId} {name : String}
    (h : s.register type name = .ok s') : ∃ types, s' = { s with types := types } := by
  simp only [register, bind_eq_ok] at h
  obtain ⟨_, -, h⟩ := h
  split at h
  · cases h
  split at h
  · cases h
  cases ht : s.types.get? type with
  | none =>
    simp only [ht] at h
    cases h
    exact ⟨_, rfl⟩
  | some known =>
    simp only [ht] at h
    split at h
    · cases h
      exact ⟨s.types, rfl⟩
    · cases h

/-- Issuing an ID changes one type and nothing else of the store. -/
theorem issueId_eq_ok {s s' : Store} {type : TypeId} {candidate id : ObjectId} :
    s.issueId type candidate = .ok (id, s') ↔
      s.closed = false ∧ ∃ t t', s.types.get? type = some t ∧ t.issue candidate = .ok (id, t') ∧
        s' = { s with types := s.types.insert type t' } := by
  simp only [issueId, bind_eq_ok, requireOpen_eq_ok, findType_eq_ok, pure_eq_ok]
  constructor
  · rintro ⟨_, hopen, t, ht, ⟨id', t'⟩, hissue, heq⟩
    cases heq
    exact ⟨hopen, t, t', ht, hissue, rfl⟩
  · rintro ⟨hopen, t, t', ht, hissue, rfl⟩
    exact ⟨(), hopen, t, ht, (id, t'), hissue, rfl⟩

/-- A put is queued by an open store if its ID and data are in order and the queue takes it. -/
theorem enqueue_eq_ok {s s' : Store} {item : QueuedPut} :
    s.enqueue item = .ok s' ↔
      s.closed = false ∧ checkPut item.id item.data = .ok () ∧
        ∃ queue, s.queue.push item = .ok queue ∧ s' = { s with queue := queue } := by
  simp only [enqueue, bind_eq_ok, requireOpen_eq_ok, pure_eq_ok]
  constructor
  · rintro ⟨_, hopen, _, hcheck, queue, hpush, rfl⟩
    exact ⟨hopen, hcheck, queue, hpush, rfl⟩
  · rintro ⟨hopen, hcheck, queue, hpush, rfl⟩
    exact ⟨(), hopen, (), hcheck, queue, hpush, rfl⟩

/-- The write transaction of an open store starts from what is committed. -/
theorem openWriter_eq_ok {s s' : Store} {o : Overlay} :
    s.openWriter = .ok (o, s') ↔
      s.closed = false ∧ s.writing = false ∧ o = .ofBase s.committed ∧
        s' = { s with writing := true } := by
  obtain ⟨types, committed, writing, queue, closed⟩ := s
  cases closed with
  | true => simp [openWriter, requireOpen, bind, Except.bind]
  | false =>
    cases writing with
    | true =>
      simp [openWriter, requireOpen, bind, Except.bind, throw, throwThe, MonadExceptOf.throw]
    | false =>
      simp [openWriter, requireOpen, bind, Except.bind, pure, Except.pure, eq_comm]

theorem commit_eq_ok {s s' : Store} {o : Overlay} :
    s.commit o = .ok s' ↔ s.closed = false ∧ s' = s.install o := by
  simp only [commit, bind_eq_ok, requireOpen_eq_ok, pure_eq_ok]
  constructor
  · rintro ⟨_, hopen, rfl⟩
    exact ⟨hopen, rfl⟩
  · rintro ⟨hopen, rfl⟩
    exact ⟨(), hopen, rfl⟩

/-- Waiting ends once the worker has gone as far as it can and has left nothing to do. -/
theorem drain_eq_ok {s s' : Store} :
    s.drain = .ok s' ↔ s.closed = false ∧ s.settle.queue.isIdle = true ∧ s' = s.settle := by
  simp only [drain, bind_eq_ok, requireOpen_eq_ok]
  cases s.settle.queue.isIdle with
  | false => simp [throw_ne_ok]
  | true =>
    simp only [if_true, pure_eq_ok, true_and]
    constructor
    · rintro ⟨_, hopen, rfl⟩
      exact ⟨hopen, rfl⟩
    · rintro ⟨hopen, rfl⟩
      exact ⟨(), hopen, rfl⟩

/-- The store after its queue was told to accept nothing more. -/
def stopAccepting (s : Store) : Store := { s with queue := s.queue.stopAccepting }

/-- Closing ends once the worker has stopped. -/
theorem close_eq_ok {s s' : Store} :
    s.close = .ok s' ↔ s.closed = false ∧ s.stopAccepting.settle.queue.worker = .stopped ∧
      s' = { s.stopAccepting.settle with closed := true } := by
  simp only [close, bind_eq_ok, requireOpen_eq_ok]
  by_cases h : s.stopAccepting.settle.queue.worker = .stopped
  · have h' : (settle { s with queue := s.queue.stopAccepting }).queue.worker = .stopped := h
    simp only [h, h', if_true, pure_eq_ok, true_and]
    constructor
    · rintro ⟨_, hopen, rfl⟩
      exact ⟨hopen, rfl⟩
    · rintro ⟨hopen, rfl⟩
      exact ⟨(), hopen, rfl⟩
  · have h' : ¬ (settle { s with queue := s.queue.stopAccepting }).queue.worker = .stopped := h
    simp [h, h', throw_ne_ok]

end Store

namespace Connection

theorem ensureHandle_eq_ok {conn : Connection} {u : Unit} :
    conn.ensureHandle = .ok u ↔ conn.store.closed = false := by
  rw [ensureHandle]
  cases conn.store.closed <;> simp

theorem box_eq_ok {conn : Connection} {h : Handle} {type : TypeId} :
    conn.box h = .ok type ↔ conn.boxes.get? h = some type := by
  rw [box]
  cases conn.boxes.get? h <;> simp

theorem txn_eq_ok {conn : Connection} {h : Handle} {mode : TxnMode} :
    conn.txn h = .ok mode ↔ conn.txns.get? h = some mode := by
  rw [txn]
  cases conn.txns.get? h <;> simp

/-- A cursor can be used while it and its transaction are open. -/
theorem cursor_eq_ok {conn : Connection} {h : Handle} {c : Cursor} {mode : TxnMode} :
    conn.cursor h = .ok (c, mode) ↔
      conn.cursors.get? h = some c ∧ conn.txns.get? c.txn = some mode := by
  rw [cursor]
  cases conn.cursors.get? h with
  | none => simp
  | some c' =>
    simp only [bind_eq_ok, txn_eq_ok, pure_eq_ok, Prod.mk.injEq, Option.some.injEq]
    constructor
    · rintro ⟨mode', hmode, rfl, rfl⟩
      exact ⟨rfl, hmode⟩
    · rintro ⟨rfl, hmode⟩
      exact ⟨mode, hmode, rfl, rfl⟩

/-- A cursor writes if its transaction is a write transaction. -/
theorem writer_eq_ok {conn : Connection} {h : Handle} {c : Cursor} {o : Overlay} :
    conn.writer h = .ok (c, o) ↔
      conn.cursors.get? h = some c ∧ conn.txns.get? c.txn = some (.write o) := by
  simp only [writer, bind_eq_ok]
  constructor
  · rintro ⟨⟨c', mode⟩, hcursor, hmode⟩
    cases mode with
    | read snapshot => cases hmode
    | write o' =>
      cases hmode
      exact cursor_eq_ok.1 hcursor
  · intro h
    exact ⟨(c, .write o), cursor_eq_ok.2 h, rfl⟩

theorem given_eq_ok {α : Type} {o : Option α} {a : α} : given o = .ok a ↔ o = some a := by
  cases o <;> simp [given]

theorem needPlace_eq_ok {place : Bool} {u : Unit} : needPlace place = .ok u ↔ place = true := by
  cases place <;> simp [needPlace]

/-! ## Effects -/

/-- What a successful call answers, and the connection after it. -/
inductive Effect (conn : Connection) : Call → Answer → Connection → Prop
  | register {type : TypeId} {bytes : Bytes} {name : String} {store : Store}
      (hopen : conn.store.closed = false) (hname : entityName bytes = .ok name)
      (hstore : conn.store.register type name = .ok store) :
      Effect conn (.register type (some bytes)) .done { conn with store := store }
  | awaitIdle (hopen : conn.store.closed = false) (hidle : conn.store.settle.queue.isIdle = true) :
      Effect conn .awaitIdle .done { conn with store := conn.store.settle }
  | close (hopen : conn.store.closed = false)
      (hstopped : conn.store.stopAccepting.settle.queue.worker = .stopped) :
      Effect conn .close .done
        { conn with store := { conn.store.stopAccepting.settle with closed := true } }
  | openBox {type : TypeId} {t : EntityType} (hopen : conn.store.closed = false)
      (htype : conn.store.types.get? type = some t) :
      Effect conn (.openBox type true) (.opened conn.nextHandle)
        { conn with
          boxes := conn.boxes.insert conn.nextHandle type
          nextHandle := conn.nextHandle + 1 }
  | closeBox {h : Handle} {type : TypeId} (hbox : conn.boxes.get? h = some type) :
      Effect conn (.closeBox h) .done { conn with boxes := conn.boxes.erase h }
  | boxId {h : Handle} {type : TypeId} {candidate id : ObjectId} {store : Store}
      (hbox : conn.boxes.get? h = some type)
      (hissue : conn.store.issueId type candidate = .ok (id, store)) :
      Effect conn (.boxId h candidate) (.id id) { conn with store := store }
  | putAsync {h : Handle} {type : TypeId} {id : ObjectId} {data : Bytes} {mayReplace : Bool}
      {queue : PutQueue} (hbox : conn.boxes.get? h = some type)
      (hopen : conn.store.closed = false) (hcheck : checkPut id data = .ok ())
      (hpush : conn.store.queue.push ⟨type, id, data, mayReplace⟩ = .ok queue) :
      Effect conn (.putAsync h id (some data) mayReplace) .done
        { conn with store := { conn.store with queue := queue } }
  | beginRead (hopen : conn.store.closed = false) :
      Effect conn (.begin true true) (.opened conn.nextHandle)
        { conn with
          txns := conn.txns.insert conn.nextHandle (.read conn.store.committed)
          nextHandle := conn.nextHandle + 1 }
  | beginWrite (hopen : conn.store.closed = false) (hfree : conn.store.writing = false) :
      Effect conn (.begin false true) (.opened conn.nextHandle)
        { conn with
          store := { conn.store with writing := true }
          txns := conn.txns.insert conn.nextHandle (.write (.ofBase conn.store.committed))
          nextHandle := conn.nextHandle + 1 }
  | commitRead {h : Handle} {snapshot : Contents}
      (htxn : conn.txns.get? h = some (.read snapshot)) :
      Effect conn (.commit h) .done (conn.endTxn h)
  | commitWrite {h : Handle} {o : Overlay} (htxn : conn.txns.get? h = some (.write o))
      (hopen : conn.store.closed = false) :
      Effect conn (.commit h) .done { conn.endTxn h with store := conn.store.install o }
  | abortRead {h : Handle} {snapshot : Contents}
      (htxn : conn.txns.get? h = some (.read snapshot)) :
      Effect conn (.abort h) .done (conn.endTxn h)
  | abortWrite {h : Handle} {o : Overlay} (htxn : conn.txns.get? h = some (.write o)) :
      Effect conn (.abort h) .done { conn.endTxn h with store := conn.store.releaseWriter }
  | openCursor {txn : Handle} {mode : TxnMode} {type : TypeId} {t : EntityType}
      (htxn : conn.txns.get? txn = some mode) (hopen : conn.store.closed = false)
      (htype : conn.store.types.get? type = some t) :
      Effect conn (.openCursor txn type true) (.opened conn.nextHandle)
        { conn with
          cursors := conn.cursors.insert conn.nextHandle ⟨txn, type⟩
          nextHandle := conn.nextHandle + 1 }
  | closeCursor {h : Handle} {c : Cursor} (hcursor : conn.cursors.get? h = some c) :
      Effect conn (.closeCursor h) .done { conn with cursors := conn.cursors.erase h }
  | cursorId {h : Handle} {c : Cursor} {mode : TxnMode} {candidate id : ObjectId} {store : Store}
      (hcursor : conn.cursors.get? h = some c) (htxn : conn.txns.get? c.txn = some mode)
      (hissue : conn.store.issueId c.type candidate = .ok (id, store)) :
      Effect conn (.cursorId h candidate) (.id id) { conn with store := store }
  | put {h : Handle} {c : Cursor} {o o' : Overlay} {id : ObjectId} {data : Bytes}
      {mayReplace : Bool} (hcursor : conn.cursors.get? h = some c)
      (htxn : conn.txns.get? c.txn = some (.write o))
      (hput : o.put c.type id data mayReplace = .ok o') :
      Effect conn (.put h id (some data) mayReplace) .done (conn.setChanges c.txn o')
  | get {h : Handle} {c : Cursor} {mode : TxnMode} {id : ObjectId} {payload : Bytes}
      (hcursor : conn.cursors.get? h = some c) (htxn : conn.txns.get? c.txn = some mode)
      (hget : (mode.payloads c.type).get? id = some payload) :
      Effect conn (.get h id true) (.data payload) conn
  | getAll {h : Handle} {c : Cursor} {mode : TxnMode} (hcursor : conn.cursors.get? h = some c)
      (htxn : conn.txns.get? c.txn = some mode) :
      Effect conn (.getAll h true) (.list (mode.payloads c.type).values) conn
  | contains {h : Handle} {c : Cursor} {mode : TxnMode} {id : ObjectId}
      (hcursor : conn.cursors.get? h = some c) (htxn : conn.txns.get? c.txn = some mode) :
      Effect conn (.contains h id true) (.flag ((mode.payloads c.type).contains id)) conn
  | count {h : Handle} {c : Cursor} {mode : TxnMode} (hcursor : conn.cursors.get? h = some c)
      (htxn : conn.txns.get? c.txn = some mode) :
      Effect conn (.count h true) (.count (mode.payloads c.type).size) conn
  | remove {h : Handle} {c : Cursor} {o o' : Overlay} {id : ObjectId}
      (hcursor : conn.cursors.get? h = some c) (htxn : conn.txns.get? c.txn = some (.write o))
      (hremove : o.remove c.type id = .ok o') :
      Effect conn (.remove h id) .done (conn.setChanges c.txn o')
  | removeAll {h : Handle} {c : Cursor} {o : Overlay} {place : Bool}
      (hcursor : conn.cursors.get? h = some c) (htxn : conn.txns.get? c.txn = some (.write o)) :
      Effect conn (.removeAll h place)
        (if place then .count (o.removeAll c.type).1 else .done)
        (conn.setChanges c.txn (o.removeAll c.type).2)

/-- A transaction that was begun has one of two effects. -/
theorem effect_of_begin {conn conn' : Connection} {readOnly : Bool} {answer : Answer}
    (hopen : conn.store.closed = false) (h : conn.begin readOnly = .ok (answer, conn')) :
    Effect conn (.begin readOnly true) answer conn' := by
  cases readOnly with
  | true =>
    simp only [begin, Store.snapshot, if_true, bind_eq_ok, pure_eq_ok] at h
    obtain ⟨snapshot, ⟨_, -, rfl⟩, h⟩ := h
    cases h
    exact .beginRead hopen
  | false =>
    simp only [begin, Bool.false_eq_true, if_false, bind_eq_ok, pure_eq_ok] at h
    obtain ⟨⟨o, store⟩, hwriter, h⟩ := h
    obtain ⟨-, hfree, rfl, rfl⟩ := Store.openWriter_eq_ok.1 hwriter
    cases h
    exact .beginWrite hopen hfree

/-- A transaction that was committed has one of two effects. -/
theorem effect_of_commit {conn conn' : Connection} {h : Handle} {answer : Answer}
    (hc : conn.commit h = .ok (answer, conn')) : Effect conn (.commit h) answer conn' := by
  simp only [commit, bind_eq_ok, txn_eq_ok] at hc
  obtain ⟨mode, htxn, hc⟩ := hc
  cases mode with
  | read snapshot =>
    cases hc
    exact .commitRead htxn
  | write o =>
    simp only [bind_eq_ok, Store.commit_eq_ok, pure_eq_ok] at hc
    obtain ⟨store, ⟨hopen, rfl⟩, hc⟩ := hc
    cases hc
    exact .commitWrite htxn hopen

/-- A transaction that was aborted has one of two effects. -/
theorem effect_of_abort {conn conn' : Connection} {h : Handle} {answer : Answer}
    (hc : conn.abort h = .ok (answer, conn')) : Effect conn (.abort h) answer conn' := by
  simp only [abort, bind_eq_ok, txn_eq_ok] at hc
  obtain ⟨mode, htxn, hc⟩ := hc
  cases mode with
  | read snapshot =>
    cases hc
    exact .abortRead htxn
  | write o =>
    cases hc
    exact .abortWrite htxn

/-- **A successful call has one of the effects.** -/
theorem effect_of_call {conn conn' : Connection} {c : Call} {answer : Answer}
    (h : conn.call? c = .ok (answer, conn')) : Effect conn c answer conn' := by
  cases c with
  | register type name =>
    simp only [call?, bind_eq_ok, ensureHandle_eq_ok, given_eq_ok, pure_eq_ok] at h
    obtain ⟨_, hopen, bytes, rfl, name, hname, store, hstore, h⟩ := h
    cases h
    exact .register hopen hname hstore
  | awaitIdle =>
    simp only [call?, bind_eq_ok, Store.drain_eq_ok, pure_eq_ok] at h
    obtain ⟨_, -, store, ⟨hopen, hidle, rfl⟩, h⟩ := h
    cases h
    exact .awaitIdle hopen hidle
  | close =>
    simp only [call?, bind_eq_ok, Store.close_eq_ok, pure_eq_ok] at h
    obtain ⟨_, -, store, ⟨hopen, hstopped, rfl⟩, h⟩ := h
    cases h
    exact .close hopen hstopped
  | openBox type place =>
    simp only [call?, bind_eq_ok, needPlace_eq_ok, Store.requireType_eq_ok, pure_eq_ok] at h
    obtain ⟨_, rfl, _, -, _, ⟨hopen, t, htype⟩, h⟩ := h
    cases h
    exact .openBox hopen htype
  | closeBox b =>
    simp only [call?, bind_eq_ok, box_eq_ok, pure_eq_ok] at h
    obtain ⟨type, hbox, h⟩ := h
    cases h
    exact .closeBox hbox
  | boxId b candidate =>
    simp only [call?, bind_eq_ok, box_eq_ok, pure_eq_ok] at h
    obtain ⟨type, hbox, ⟨id, store⟩, hissue, h⟩ := h
    cases h
    exact .boxId hbox hissue
  | putAsync b id data mayReplace =>
    simp only [call?, bind_eq_ok, box_eq_ok, given_eq_ok, Store.enqueue_eq_ok, pure_eq_ok] at h
    obtain ⟨type, hbox, data, rfl, store, ⟨hopen, hcheck, queue, hpush, rfl⟩, h⟩ := h
    cases h
    exact .putAsync hbox hopen hcheck hpush
  | begin readOnly place =>
    simp only [call?, bind_eq_ok, needPlace_eq_ok, ensureHandle_eq_ok] at h
    obtain ⟨_, rfl, _, hopen, h⟩ := h
    exact effect_of_begin hopen h
  | commit txn => exact effect_of_commit h
  | abort txn => exact effect_of_abort h
  | openCursor txn type place =>
    simp only [call?, bind_eq_ok, needPlace_eq_ok, txn_eq_ok, Store.requireType_eq_ok,
      pure_eq_ok] at h
    obtain ⟨_, rfl, mode, htxn, _, ⟨hopen, t, htype⟩, h⟩ := h
    cases h
    exact .openCursor htxn hopen htype
  | closeCursor b =>
    simp only [call?, bind_eq_ok, given_eq_ok, pure_eq_ok] at h
    obtain ⟨c, hcursor, h⟩ := h
    cases h
    exact .closeCursor hcursor
  | cursorId b candidate =>
    simp only [call?, bind_eq_ok, pure_eq_ok] at h
    obtain ⟨⟨c, mode⟩, hc, ⟨id, store⟩, hissue, h⟩ := h
    obtain ⟨hcursor, htxn⟩ := cursor_eq_ok.1 hc
    cases h
    exact .cursorId hcursor htxn hissue
  | put b id data mayReplace =>
    simp only [call?, bind_eq_ok, given_eq_ok, pure_eq_ok] at h
    obtain ⟨data, rfl, ⟨c, o⟩, hw, o', hput, h⟩ := h
    obtain ⟨hcursor, htxn⟩ := writer_eq_ok.1 hw
    cases h
    exact .put hcursor htxn hput
  | get b id place =>
    simp only [call?, bind_eq_ok] at h
    obtain ⟨⟨c, mode⟩, hc, h⟩ := h
    obtain ⟨hcursor, htxn⟩ := cursor_eq_ok.1 hc
    cases hget : (mode.payloads c.type).get? id with
    | none =>
      simp only [hget] at h
      cases h
    | some payload =>
      simp only [hget, bind_eq_ok, needPlace_eq_ok, pure_eq_ok] at h
      obtain ⟨_, rfl, h⟩ := h
      cases h
      exact .get hcursor htxn hget
  | getAll b place =>
    simp only [call?, bind_eq_ok, needPlace_eq_ok, pure_eq_ok] at h
    obtain ⟨⟨c, mode⟩, hc, _, rfl, h⟩ := h
    obtain ⟨hcursor, htxn⟩ := cursor_eq_ok.1 hc
    cases h
    exact .getAll hcursor htxn
  | contains b id place =>
    simp only [call?, bind_eq_ok, needPlace_eq_ok, pure_eq_ok] at h
    obtain ⟨⟨c, mode⟩, hc, _, rfl, h⟩ := h
    obtain ⟨hcursor, htxn⟩ := cursor_eq_ok.1 hc
    cases h
    exact .contains hcursor htxn
  | count b place =>
    simp only [call?, bind_eq_ok, needPlace_eq_ok, pure_eq_ok] at h
    obtain ⟨⟨c, mode⟩, hc, _, rfl, h⟩ := h
    obtain ⟨hcursor, htxn⟩ := cursor_eq_ok.1 hc
    cases h
    exact .count hcursor htxn
  | remove b id =>
    simp only [call?, bind_eq_ok, pure_eq_ok] at h
    obtain ⟨⟨c, o⟩, hw, o', hremove, h⟩ := h
    obtain ⟨hcursor, htxn⟩ := writer_eq_ok.1 hw
    cases h
    exact .remove hcursor htxn hremove
  | removeAll b place =>
    simp only [call?, bind_eq_ok, pure_eq_ok] at h
    obtain ⟨⟨c, o⟩, hw, h⟩ := h
    obtain ⟨hcursor, htxn⟩ := writer_eq_ok.1 hw
    cases h
    exact .removeAll hcursor htxn

/-! ## Calls that fail -/

/-- The connection after a call that failed. -/
inductive Leftover (conn : Connection) : Call → Connection → Prop
  | nothing {c : Call} : Leftover conn c conn
  | refusedCommit {h : Handle} {o : Overlay} (htxn : conn.txns.get? h = some (.write o)) :
      Leftover conn (.commit h) { conn.endTxn h with store := conn.store.releaseWriter }
  | refusedPut {h : Handle} {c : Cursor} {o : Overlay} {id : ObjectId} {data : Bytes}
      {mayReplace : Bool} (hcursor : conn.cursors.get? h = some c)
      (htxn : conn.txns.get? c.txn = some (.write o)) :
      Leftover conn (.put h id (some data) mayReplace)
        (conn.setChanges c.txn (o.afterRefusedPut c.type id data))

/-- **A failing call leaves one of these things behind.** -/
theorem leftover_of_failure (conn : Connection) (c : Call) :
    Leftover conn c (conn.afterFailure c) := by
  unfold afterFailure
  split
  · split
    · rename_i htxn
      exact .refusedCommit htxn
    · exact .nothing
  · split
    · rename_i hw
      obtain ⟨hcursor, htxn⟩ := writer_eq_ok.1 hw
      exact .refusedPut hcursor htxn
    · exact .nothing
  · exact .nothing

end Connection

end ObjectStore
