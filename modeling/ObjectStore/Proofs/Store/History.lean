import Mathlib
import ObjectStore.Proofs.Store.DirectUpdate
import ObjectStore.Proofs.Store.Effects

/-!
# Runs and their history

A run of a store is a list of `Event`s: calls on handles, steps of the worker, and the moment at
which a close that still has to wait tells the queue to accept nothing more.

The `History` of a run is what an onlooker writes down who sees the calls with their outcome and the
batches that the worker publishes: the publications in order, and for every open transaction the
serial state at its begin and its successful writes.  Nothing in it is read off the contents or the
overlays of the store.
-/

namespace ObjectStore

/-! ## Events -/

/-- What can happen next. -/
inductive Event
  /-- A call is made. -/
  | call (c : Call)
  /-- The worker makes a step, if it can. -/
  | worker
  /-- A close was asked for and has to wait for the worker; the queue accepts nothing more. -/
  | closing
  deriving DecidableEq, Repr

/-- The connection after an event. -/
def Connection.step (conn : Connection) : Event → Connection
  | .call c => (conn.call c).2
  | .worker => { conn with store := conn.store.runWorker 1 }
  | .closing => { conn with store := conn.store.stopAccepting }

/-- The batch that the worker publishes if it can make a step now. -/
def Store.publishing (s : Store) : List (List QueuedPut) :=
  match s.queue.worker with
  | .carrying batch => [batch]
  | _ => []

theorem Store.publishing_of_carrying {s : Store} {batch : List QueuedPut}
    (h : s.queue.worker = .carrying batch) : s.publishing = [batch] := by
  rw [publishing, h]

theorem Store.publishing_of_not_carrying {s : Store}
    (h : ∀ batch, s.queue.worker ≠ .carrying batch) : s.publishing = [] := by
  rw [publishing]
  split
  · rename_i batch hw
    exact absurd hw (h batch)
  · rfl

/-- The batches that the worker publishes in its next `n` steps. -/
def Store.published : (n : Nat) → Store → List (List QueuedPut)
  | 0, _ => []
  | n + 1, s =>
    match s.workerStep? with
    | some s' => s.publishing ++ published n s'
    | none => []

/-- The batches that the worker publishes until it can go no further. -/
def Store.publishedBySettling (s : Store) : List (List QueuedPut) :=
  s.published (3 * s.queue.waiting.length + 3)

/-! ## Histories -/

/-- What changed the committed contents. -/
inductive Publication
  /-- A write transaction with its successful writes. -/
  | commit (writes : List Write)
  /-- A batch of the worker. -/
  | batch (items : List QueuedPut)
  deriving DecidableEq, Repr

namespace Publication

/-- The writes of a publication, in order. -/
def writes : Publication → List Write
  | commit writes => writes
  | batch items => items.map QueuedPut.toWrite

/-- The queued puts of a publication, in order. -/
def items : Publication → List QueuedPut
  | commit _ => []
  | batch items => items

end Publication

/-- An open transaction as the history has it. -/
structure OpenTxn where
  isReadOnly : Bool
  /-- The serial state when the transaction began. -/
  start : View
  /-- The writes that succeeded, made through any cursor of the transaction. -/
  writes : List Write

/-- The serial state with the transaction's own writes on top. -/
def OpenTxn.view (t : OpenTxn) : View := t.start.afterAll t.writes

/-- What happened to a store. -/
structure History where
  /-- What was committed or published, the oldest first. -/
  publications : List Publication
  /-- The open transactions. -/
  txns : SortedMap Handle OpenTxn
  /-- The open cursors. -/
  cursors : SortedMap Handle Cursor
  /-- The type of each open box. -/
  boxes : SortedMap Handle TypeId
  /-- The asynchronous puts that were accepted, the oldest first. -/
  accepted : List QueuedPut

namespace History

/-- Nothing has happened. -/
def empty : History := ⟨[], ∅, ∅, ∅, []⟩

/-- **The serial state**: everything published is applied to the empty store, one publication after
the other. -/
def state (hist : History) : View :=
  hist.publications.foldl (fun v p => v.afterAll p.writes) View.empty

/-- The asynchronous puts that were applied, the oldest first. -/
def applied (hist : History) : List QueuedPut := hist.publications.flatMap Publication.items

/-- Notes what the worker published. -/
def publish (hist : History) (batches : List (List QueuedPut)) : History :=
  { hist with publications := hist.publications ++ batches.map .batch }

@[simp] theorem publish_nil (hist : History) : hist.publish [] = hist := by simp [publish]

/-- What is published together can be noted bit by bit. -/
theorem publish_append (hist : History) (batches later : List (List QueuedPut)) :
    hist.publish (batches ++ later) = (hist.publish batches).publish later := by
  simp [publish]

/-- Notes that a transaction ended without effect. -/
def forget (hist : History) (txn : Handle) : History :=
  { hist with txns := hist.txns.erase txn }

/-- Notes that a transaction was committed. -/
def commit (hist : History) (txn : Handle) : History :=
  match hist.txns.get? txn with
  | some t =>
    if t.isReadOnly then hist.forget txn
    else { hist.forget txn with publications := hist.publications ++ [.commit t.writes] }
  | none => hist

/-- Notes a write made through a cursor. -/
def write (hist : History) (cursor : Handle) (w : TypeId → Write) : History :=
  match hist.cursors.get? cursor with
  | some c =>
    match hist.txns.get? c.txn with
    | some t =>
      { hist with txns := hist.txns.insert c.txn { t with writes := t.writes ++ [w c.type] } }
    | none => hist
  | none => hist

/-- Notes that an asynchronous put was accepted. -/
def accept (hist : History) (box : Handle) (put : TypeId → QueuedPut) : History :=
  match hist.boxes.get? box with
  | some type => { hist with accepted := hist.accepted ++ [put type] }
  | none => hist

/-- Notes a call that succeeded.  `conn` is the connection before it. -/
def noteSuccess (hist : History) (conn : Connection) : Call → Answer → History
  | .awaitIdle, _ => hist.publish conn.store.publishedBySettling
  | .close, _ => hist.publish conn.store.stopAccepting.publishedBySettling
  | .openBox type _, .opened h => { hist with boxes := hist.boxes.insert h type }
  | .closeBox h, _ => { hist with boxes := hist.boxes.erase h }
  | .putAsync h id (some data) mayReplace, _ => hist.accept h (⟨·, id, data, mayReplace⟩)
  | .begin readOnly _, .opened h =>
    { hist with txns := hist.txns.insert h ⟨readOnly, hist.state, []⟩ }
  | .commit h, _ => hist.commit h
  | .abort h, _ => hist.forget h
  | .openCursor txn type _, .opened h => { hist with cursors := hist.cursors.insert h ⟨txn, type⟩ }
  | .closeCursor h, _ => { hist with cursors := hist.cursors.erase h }
  | .put h id (some data) mayReplace, _ => hist.write h (.put · id data mayReplace)
  | .remove h id, _ => hist.write h (.remove · id)
  | .removeAll h _, _ => hist.write h .removeAll
  | _, _ => hist

/-- Notes a call that failed: a commit that was refused has ended its transaction, and no other
failure leaves a trace. -/
def noteFailure (hist : History) : Call → History
  | .commit h => hist.forget h
  | _ => hist

/-- Notes an event.  `conn` is the connection before it. -/
def note (hist : History) (conn : Connection) : Event → History
  | .call c =>
    match (conn.call c).1 with
    | .ok answer => hist.noteSuccess conn c answer
    | .error _ => hist.noteFailure c
  | .worker => hist.publish (conn.store.published 1)
  | .closing => hist

/-! ## Answers -/

/-- The type of a cursor and its open transaction. -/
def look (hist : History) (cursor : Handle) : Except StoreError (TypeId × OpenTxn) :=
  match hist.cursors.get? cursor with
  | some c =>
    match hist.txns.get? c.txn with
    | some t => .ok (c.type, t)
    | none => .error .nullPointer
  | none => .error .nullPointer

/-- The answer to a question through a cursor that nothing but a missing place can refuse. -/
def answerRead (hist : History) (cursor : Handle) (place : Bool) (answer : Payloads → Answer) :
    Except StoreError Answer := do
  let (type, t) ← hist.look cursor
  if place then return answer (t.view type) else throw .nullPointer

/-- The outcome of a write through a cursor, which has to be one of a write transaction. -/
def answerWrite (hist : History) (cursor : Handle) (w : TypeId → Write)
    (answer : Payloads → Answer) : Except StoreError Answer := do
  let (type, t) ← hist.look cursor
  if t.isReadOnly then throw .readOnly
  let _ ← t.view.write (w type)
  return answer (t.view type)

/-- **How a serial execution answers** a read or a write through a cursor: on the serial state at
the begin of the transaction, with the transaction's own writes on top.  The other calls are none of
its business. -/
def answer? (hist : History) : Call → Option (Except StoreError Answer)
  | .get h id place => some do
    let (type, t) ← hist.look h
    match (t.view type).get? id with
    | some payload => if place then return .data payload else throw .nullPointer
    | none => throw (.notFound id)
  | .getAll h place => some (hist.answerRead h place (.list ·.values))
  | .contains h id place => some (hist.answerRead h place (.flag <| ·.contains id))
  | .count h place => some (hist.answerRead h place (.count ·.size))
  | .put h id (some data) mayReplace =>
    some (hist.answerWrite h (.put · id data mayReplace) fun _ => .done)
  | .put _ _ none _ => some (.error .nullPointer)
  | .remove h id => some (hist.answerWrite h (.remove · id) fun _ => .done)
  | .removeAll h place =>
    some (hist.answerWrite h .removeAll fun payloads =>
      if place then .count payloads.size else .done)
  | _ => none

/-! ## Nothing is taken back -/

theorem publications_publish (hist : History) (batches : List (List QueuedPut)) :
    hist.publications <+: (hist.publish batches).publications :=
  List.prefix_append _ _

theorem publications_commit (hist : History) (txn : Handle) :
    hist.publications <+: (hist.commit txn).publications := by
  rw [commit]
  split
  · split
    · exact List.prefix_refl _
    · exact List.prefix_append _ _
  · exact List.prefix_refl _

theorem publications_write (hist : History) (cursor : Handle) (w : TypeId → Write) :
    (hist.write cursor w).publications = hist.publications := by
  rw [write]
  split
  · split <;> rfl
  · rfl

theorem publications_accept (hist : History) (box : Handle) (put : TypeId → QueuedPut) :
    (hist.accept box put).publications = hist.publications := by
  rw [accept]
  split <;> rfl

/-- What is noted of an event comes after what was published before. -/
theorem publications_note (hist : History) (conn : Connection) (e : Event) :
    hist.publications <+: (hist.note conn e).publications := by
  cases e with
  | call c =>
    rw [note]
    split
    · rw [noteSuccess.eq_def]
      split
      any_goals exact List.prefix_refl _
      · exact publications_publish hist _
      · exact publications_publish hist _
      · rw [publications_accept]
      · exact publications_commit hist _
      · rw [publications_write]
      · rw [publications_write]
      · rw [publications_write]
    · rw [noteFailure.eq_def]
      split <;> exact List.prefix_refl _
  | worker => exact publications_publish hist _
  | closing => exact List.prefix_refl _

end History

/-! ## Runs -/

/-- A connection together with its history. -/
structure Session where
  conn : Connection
  history : History

namespace Session

/-- A new store with nothing behind it. -/
def new (options : Options) : Session := ⟨.new options, .empty⟩

/-- The session after an event. -/
def step (x : Session) (e : Event) : Session := ⟨x.conn.step e, x.history.note x.conn e⟩

/-- The session after events, one after the other. -/
def after (x : Session) (events : List Event) : Session := events.foldl step x

/-- The session of a new store after events. -/
def run (options : Options) (events : List Event) : Session := (new options).after events

theorem after_append (x : Session) (events later : List Event) :
    x.after (events ++ later) = (x.after events).after later := by
  simp [after]

/-- **The induction over runs**: what holds of a new store and is kept by every event holds after
every run. -/
theorem run_induction {P : Session → Prop} {options : Options} (hnew : P (new options))
    (hstep : ∀ x e, P x → P (x.step e)) (events : List Event) : P (run options events) := by
  rw [run]
  -- the induction is on the events still to come, from any session
  generalize new options = x at hnew
  induction events generalizing x with
  | nil => exact hnew
  | cons e events ih => exact ih (x.step e) (hstep x e hnew)

end Session

/-- What was published stays published, in its order. -/
theorem Session.publications_after (x : Session) (later : List Event) :
    x.history.publications <+: (x.after later).history.publications := by
  induction later generalizing x with
  | nil => exact List.prefix_refl _
  | cons e later ih =>
    exact (History.publications_note x.history x.conn e).trans (ih (x.step e))

/-! ## Calls and worker steps from outside -/

/-- A call whose inner form succeeds. -/
theorem Connection.call_of_ok {conn conn' : Connection} {c : Call} {answer : Answer}
    (h : conn.call? c = .ok (answer, conn')) : conn.call c = (.ok answer, conn') := by
  rw [Connection.call, h]

/-- A call whose inner form fails. -/
theorem Connection.call_of_error {conn : Connection} {c : Call} {e : StoreError}
    (h : conn.call? c = .error e) : conn.call c = (.error e, conn.afterFailure c) := by
  rw [Connection.call, h]

/-- The outcome of a call is that of its inner form. -/
theorem Connection.call_fst (conn : Connection) (c : Call) :
    (conn.call c).1 = (conn.call? c).map Prod.fst := by
  rw [Connection.call]
  cases conn.call? c <;> rfl

/-- Every call either has an effect or fails. -/
theorem Connection.call_cases (conn : Connection) (c : Call) :
    (∃ answer conn', Effect conn c answer conn' ∧ conn.call c = (.ok answer, conn')) ∨
      ∃ e, conn.call? c = .error e ∧ conn.call c = (.error e, conn.afterFailure c) := by
  cases h : conn.call? c with
  | ok r => exact Or.inl ⟨r.1, r.2, effect_of_call h, call_of_ok h⟩
  | error e => exact Or.inr ⟨e, rfl, call_of_error h⟩

/-- The session after a call that succeeds. -/
theorem Session.step_of_ok {conn conn' : Connection} {hist : History} {c : Call} {answer : Answer}
    (h : conn.call c = (.ok answer, conn')) :
    step ⟨conn, hist⟩ (.call c) = ⟨conn', hist.noteSuccess conn c answer⟩ := by
  simp [step, Connection.step, History.note, h]

/-- The session after a call that fails. -/
theorem Session.step_of_error {conn conn' : Connection} {hist : History} {c : Call} {e : StoreError}
    (h : conn.call c = (.error e, conn')) :
    step ⟨conn, hist⟩ (.call c) = ⟨conn', hist.noteFailure c⟩ := by
  simp [step, Connection.step, History.note, h]

/-- A commit fails where there is no such transaction, or where a write transaction meets a closed
store. -/
theorem Connection.commit_eq_error {conn : Connection} {h : Handle} {e : StoreError}
    (hc : conn.call? (.commit h) = .error e) :
    conn.txns.get? h = none ∨
      ∃ o, conn.txns.get? h = some (.write o) ∧ conn.store.closed = true := by
  cases htxn : conn.txns.get? h with
  | none => exact Or.inl rfl
  | some mode =>
    cases mode with
    | read snapshot =>
      have hok : conn.call? (.commit h) = .ok (.done, conn.endTxn h) := by
        simp [call?, commit, txn, htxn, bind, Except.bind, pure, Except.pure]
      rw [hok] at hc
      cases hc
    | write o =>
      refine Or.inr ⟨o, rfl, ?_⟩
      by_contra hopen
      have hok : conn.call? (.commit h)
          = .ok (.done, { conn.endTxn h with store := conn.store.install o }) := by
        simp [call?, commit, txn, htxn, Store.commit, Store.requireOpen, hopen, bind, Except.bind,
          pure, Except.pure]
      rw [hok] at hc
      cases hc

/-- The worker makes no step or one of four: it takes a batch, publishes it, reports it done, or
stops. -/
theorem Store.workerStep?_eq_some {s s' : Store} (h : s.workerStep? = some s') :
    (s.queue.worker = .free ∧ s.queue.waiting ≠ [] ∧ s' = { s with queue := { s.queue with
        worker := .carrying (s.queue.waiting.take s.queue.maxBatch)
        waiting := s.queue.waiting.drop s.queue.maxBatch } }) ∨
      (∃ batch, s.queue.worker = .carrying batch ∧ s.writing = false ∧
        s' = { s with
          committed := afterBatch s.committed batch
          queue := { s.queue with worker := .reporting batch } }) ∨
      (∃ batch, s.queue.worker = .reporting batch ∧
        s' = { s with queue := { s.queue with worker := .free } }) ∨
      (s.queue.worker = .free ∧ s.queue.waiting = [] ∧ s.queue.isClosing = true ∧
        s' = { s with queue := { s.queue with worker := .stopped } }) := by
  rw [workerStep?] at h
  cases hw : s.queue.worker with
  | free =>
    simp only [hw, PutQueue.next?, Option.map_eq_some_iff] at h
    obtain ⟨queue, hq, rfl⟩ := h
    by_cases hne : s.queue.waiting ≠ []
    · rw [if_pos hne] at hq
      cases hq
      exact Or.inl ⟨rfl, hne, rfl⟩
    · rw [if_neg hne] at hq
      split at hq
      · rename_i hclosing
        cases hq
        exact Or.inr (Or.inr (Or.inr ⟨rfl, by simpa using hne, hclosing, rfl⟩))
      · cases hq
  | carrying batch =>
    simp only [hw, applyBatch?] at h
    split at h
    · cases h
    · rename_i hwriting
      cases h
      exact Or.inr (Or.inl ⟨batch, rfl, by simpa using hwriting, rfl⟩)
  | reporting batch =>
    simp only [hw, PutQueue.report?, Option.map_some] at h
    cases h
    exact Or.inr (Or.inr (Or.inl ⟨batch, rfl, rfl⟩))
  | stopped =>
    simp only [hw] at h
    cases h

/-- **The induction over worker steps**: what a step of the worker keeps, beside the note of what it
publishes, any number of steps keeps. -/
theorem Store.runWorker_induction {P : Store → History → Prop}
    (hstep : ∀ s s' hist, P s hist → s.workerStep? = some s' → P s' (hist.publish s.publishing))
    (n : Nat) {s : Store} {hist : History} (h : P s hist) :
    P (s.runWorker n) (hist.publish (s.published n)) := by
  induction n generalizing s hist with
  | zero => simpa [runWorker, published] using h
  | succ n ih =>
    rw [runWorker, published]
    cases hs : s.workerStep? with
    | none => simpa using h
    | some s' =>
      simp only [History.publish_append]
      exact ih (hstep s s' hist h hs)

end ObjectStore
