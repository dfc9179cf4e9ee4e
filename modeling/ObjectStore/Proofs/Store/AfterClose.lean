import Mathlib
import ObjectStore.Proofs.Store.IdSequence
import ObjectStore.Proofs.Store.AsyncOrder
import ObjectStore.Proofs.Store.Alike

/-!
# After the close

A store can be closed while boxes, transactions and cursors of it are open.  What they can still do
is little, and it is the same for ever: nothing reaches the store any more (`Store.Final`,
`Connection.store_after`), handles are closed and transactions ended as before, and a cursor goes on
with the transaction it was opened in.

For the last point a run on the closed store is laid beside the run that would have been, had the
store stayed open (`Connection.Beside`).  The store takes part in neither what a cursor shows nor
what it writes, so that the two runs have the same transactions behind the handles that were given
out before the close.  Main statement: `closing_is_final`.
-/

namespace ObjectStore

/-! ## Closed stores -/

/-- A closed store whose worker has stopped. -/
structure Store.Final (s : Store) : Prop where
  closed : s.closed = true
  stopped : s.queue.worker = .stopped
  closing : s.queue.isClosing = true

namespace Store.Final

variable {s : Store}

/-- Ending a transaction is no way out. -/
theorem withWriting (h : s.Final) (writing : Bool) : Final { s with writing := writing } :=
  ⟨h.closed, h.stopped, h.closing⟩

theorem not_open (h : s.Final) : s.closed ≠ false := by simp [h.closed]

/-- The worker makes no step. -/
theorem runWorker (h : s.Final) (n : Nat) : s.runWorker n = s := by
  cases n with
  | zero => rfl
  | succ n =>
    rw [Store.runWorker, workerStep?, h.stopped]

/-- The queue has stopped accepting before. -/
theorem stopAccepting (h : s.Final) : s.stopAccepting = s := by
  have hqueue : s.queue.stopAccepting = s.queue := by rw [PutQueue.stopAccepting, ← h.closing]
  rw [Store.stopAccepting, hqueue]

/-- No ID is issued. -/
theorem issueId_eq (h : s.Final) (type : TypeId) (candidate : ObjectId) :
    s.issueId type candidate = .error .storeClosed := by
  rw [issueId, requireOpen, h.closed]
  rfl

/-- No put is queued. -/
theorem enqueue_eq (h : s.Final) (item : QueuedPut) : s.enqueue item = .error .storeClosed := by
  rw [enqueue, requireOpen, h.closed]
  rfl

/-- No type can be used. -/
theorem requireType_eq (h : s.Final) (type : TypeId) :
    s.requireType type = .error .storeClosed := by
  rw [requireType, requireOpen, h.closed]
  rfl

/-- Nothing is committed. -/
theorem commit_eq (h : s.Final) (o : Overlay) : s.commit o = .error .storeClosed := by
  rw [commit, requireOpen, h.closed]
  rfl

end Store.Final

namespace Connection

variable {conn conn' : Connection}

/-- A close that succeeds leaves a closed store whose worker has stopped. -/
theorem final_of_close {answer : Answer} (hok : (conn.call .close).1 = .ok answer) :
    (conn.step (.call .close)).store.Final ∧
      conn.step (.call .close) = { conn with store := (conn.step (.call .close)).store } := by
  rcases conn.call_cases .close with ⟨_, conn', heffect, hcall⟩ | ⟨e, -, hcall⟩
  · rw [step, hcall]
    cases heffect with
    | close _ hstopped => exact ⟨⟨rfl, hstopped, Store.runWorker_isClosing _ rfl⟩, rfl⟩
  · rw [hcall] at hok
    cases hok

/-- **On a closed store an event can end the write transaction**, and no more. -/
theorem store_step (h : conn.store.Final) (event : Event) :
    ∃ writing, (conn.step event).store = { conn.store with writing := writing } := by
  cases event with
  | worker => exact ⟨conn.store.writing, h.runWorker 1⟩
  | closing => exact ⟨conn.store.writing, h.stopAccepting⟩
  | call c =>
    rcases conn.call_cases c with ⟨answer, conn', heffect, hcall⟩ | ⟨e, -, hcall⟩
    · rw [step, hcall]
      cases heffect with
      | register hopen => exact absurd hopen h.not_open
      | awaitIdle hopen => exact absurd hopen h.not_open
      | close hopen => exact absurd hopen h.not_open
      | boxId _ hissue => exact absurd (Store.issueId_eq_ok.1 hissue).1 h.not_open
      | putAsync _ hopen => exact absurd hopen h.not_open
      | beginWrite hopen => exact absurd hopen h.not_open
      | commitWrite _ hopen => exact absurd hopen h.not_open
      | cursorId _ _ hissue => exact absurd (Store.issueId_eq_ok.1 hissue).1 h.not_open
      | abortWrite => exact ⟨false, rfl⟩
      | _ => exact ⟨conn.store.writing, rfl⟩
    · rw [step, hcall]
      have hleft := conn.leftover_of_failure c
      generalize conn.afterFailure c = conn' at hleft ⊢
      cases hleft with
      | nothing => exact ⟨conn.store.writing, rfl⟩
      | refusedCommit => exact ⟨false, rfl⟩
      | refusedPut => exact ⟨conn.store.writing, rfl⟩

/-- **A closed store stays as it is**, but for the end of the write transaction. -/
theorem store_after (h : conn.store.Final) (later : List Event) :
    ∃ writing, (conn.after later).store = { conn.store with writing := writing } := by
  induction later generalizing conn with
  | nil => exact ⟨conn.store.writing, rfl⟩
  | cons event later ih =>
    obtain ⟨writing, hstep⟩ := store_step h event
    have hfinal : (conn.step event).store.Final := hstep ▸ h.withWriting writing
    obtain ⟨writing', hafter⟩ := ih hfinal
    rw [hstep] at hafter
    exact ⟨writing', hafter⟩

/-! ## Handles that were given out -/

/-- Every handle in use was given out, and was not the next one. -/
structure Dealt (conn : Connection) : Prop where
  boxes : ∀ {h type}, conn.boxes.get? h = some type → h < conn.nextHandle
  txns : ∀ {h mode}, conn.txns.get? h = some mode → h < conn.nextHandle
  cursors : ∀ {h c}, conn.cursors.get? h = some c → h < conn.nextHandle ∧ c.txn < conn.nextHandle

namespace Dealt

theorem new (options : Options) : Dealt (.new options) := ⟨nofun, nofun, nofun⟩

/-- The store plays no part. -/
theorem withStore (h : conn.Dealt) (store : Store) : Dealt { conn with store := store } :=
  ⟨h.boxes, h.txns, h.cursors⟩

/-- Handles that are no more do not count. -/
theorem endTxn (h : conn.Dealt) (txn : Handle) (store : Store) :
    Dealt { conn.endTxn txn with store := store } := by
  refine ⟨h.boxes, fun ht => ?_, h.cursors⟩
  simp only [Connection.endTxn, SortedMap.get?_erase] at ht
  split at ht
  · cases ht
  · exact h.txns ht

/-- Changes are replaced under a handle in use. -/
theorem setChanges (h : conn.Dealt) {txn : Handle} {mode : TxnMode}
    (htxn : conn.txns.get? txn = some mode) (o : Overlay) : (conn.setChanges txn o).Dealt := by
  refine ⟨h.boxes, fun ht => ?_, h.cursors⟩
  simp only [Connection.setChanges, SortedMap.get?_insert] at ht
  split at ht
  · rename_i heq
    rw [heq]
    exact h.txns htxn
  · exact h.txns ht

/-- A transaction begins under the next handle. -/
theorem beginTxn (h : conn.Dealt) (mode : TxnMode) (store : Store) :
    Dealt { conn with
      store := store
      txns := conn.txns.insert conn.nextHandle mode
      nextHandle := conn.nextHandle + 1 } := by
  refine ⟨fun hb => (h.boxes hb).trans (Nat.lt_succ_self _), fun ht => ?_, fun hc => ?_⟩
  · rw [SortedMap.get?_insert] at ht
    split at ht
    · rename_i heq
      rw [heq]
      exact Nat.lt_succ_self _
    · exact (h.txns ht).trans (Nat.lt_succ_self _)
  · exact ⟨(h.cursors hc).1.trans (Nat.lt_succ_self _), (h.cursors hc).2.trans (Nat.lt_succ_self _)⟩

/-- What a successful call gives out has not been in use. -/
theorem success (h : conn.Dealt) {c : Call} {answer : Answer} (heffect : Effect conn c answer conn') :
    conn'.Dealt := by
  cases heffect with
  | register _ _ hstore => exact h.withStore _
  | openBox _ _ =>
    refine ⟨fun hb => ?_, fun ht => (h.txns ht).trans (Nat.lt_succ_self _), fun hc =>
      ⟨(h.cursors hc).1.trans (Nat.lt_succ_self _), (h.cursors hc).2.trans (Nat.lt_succ_self _)⟩⟩
    rw [SortedMap.get?_insert] at hb
    split at hb
    · rename_i heq
      rw [heq]
      exact Nat.lt_succ_self _
    · exact (h.boxes hb).trans (Nat.lt_succ_self _)
  | closeBox =>
    refine ⟨fun hb => ?_, h.txns, h.cursors⟩
    rw [SortedMap.get?_erase] at hb
    split at hb
    · cases hb
    · exact h.boxes hb
  | beginRead => exact h.beginTxn _ _
  | beginWrite => exact h.beginTxn _ _
  | commitRead => exact h.endTxn _ _
  | commitWrite => exact h.endTxn _ _
  | abortRead => exact h.endTxn _ _
  | abortWrite => exact h.endTxn _ _
  | openCursor htxn _ _ =>
    refine ⟨fun hb => (h.boxes hb).trans (Nat.lt_succ_self _),
      fun ht => (h.txns ht).trans (Nat.lt_succ_self _), fun hc => ?_⟩
    rw [SortedMap.get?_insert] at hc
    split at hc
    · rename_i heq
      cases hc
      exact ⟨heq ▸ Nat.lt_succ_self _, (h.txns htxn).trans (Nat.lt_succ_self _)⟩
    · exact ⟨(h.cursors hc).1.trans (Nat.lt_succ_self _),
        (h.cursors hc).2.trans (Nat.lt_succ_self _)⟩
  | closeCursor =>
    refine ⟨h.boxes, h.txns, fun hc => ?_⟩
    rw [SortedMap.get?_erase] at hc
    split at hc
    · cases hc
    · exact h.cursors hc
  | put _ htxn _ => exact h.setChanges htxn _
  | remove _ htxn _ => exact h.setChanges htxn _
  | removeAll _ htxn => exact h.setChanges htxn _
  | _ => exact ⟨h.boxes, h.txns, h.cursors⟩

/-- Every event keeps to the handles that were given out. -/
theorem step (h : conn.Dealt) (event : Event) : (conn.step event).Dealt := by
  cases event with
  | worker => exact h.withStore _
  | closing => exact h.withStore _
  | call c =>
    rcases conn.call_cases c with ⟨answer, conn', heffect, hcall⟩ | ⟨e, -, hcall⟩
    · rw [Connection.step, hcall]
      exact h.success heffect
    · rw [Connection.step, hcall]
      have hleft := conn.leftover_of_failure c
      generalize conn.afterFailure c = conn' at hleft ⊢
      cases hleft with
      | nothing => exact h
      | refusedCommit => exact h.endTxn _ _
      | refusedPut _ htxn => exact h.setChanges htxn _

/-- Every run keeps to the handles that were given out. -/
theorem after (h : conn.Dealt) (events : List Event) : (conn.after events).Dealt := by
  induction events generalizing conn with
  | nil => exact h
  | cons event events ih => exact ih (h.step event)

end Dealt

/-- No handle is given out twice. -/
theorem nextHandle_le_step (conn : Connection) (event : Event) :
    conn.nextHandle ≤ (conn.step event).nextHandle := by
  cases event with
  | worker => exact Nat.le_refl _
  | closing => exact Nat.le_refl _
  | call c =>
    rcases conn.call_cases c with ⟨answer, conn', heffect, hcall⟩ | ⟨e, -, hcall⟩
    · rw [step, hcall]
      cases heffect <;> first | exact Nat.le_refl _ | exact Nat.le_succ _
    · rw [step, hcall]
      have hleft := conn.leftover_of_failure c
      generalize conn.afterFailure c = conn' at hleft ⊢
      cases hleft <;> exact Nat.le_refl _

/-! ## What a call does to transactions and cursors -/

/-- A transaction after a write through a cursor, which `f` makes on the changes it writes to. -/
def txnWritten (conn : Connection) (cursor : Handle) (f : Overlay → TypeId → Overlay)
    (txn : Handle) : Option TxnMode :=
  match conn.writer cursor with
  | .ok (c, o) => if txn = c.txn then some (.write (f o c.type)) else conn.txns.get? txn
  | .error _ => conn.txns.get? txn

/-- A transaction after a call, as far as it was begun before. -/
def txnAfter (conn : Connection) : Call → Handle → Option TxnMode
  | .commit ended, txn => if txn = ended then none else conn.txns.get? txn
  | .abort ended, txn => if txn = ended then none else conn.txns.get? txn
  | .put cursor id (some data) mayReplace, txn =>
    conn.txnWritten cursor (·.attempt ⟨·, id, data, mayReplace⟩) txn
  | .remove cursor id, txn =>
    conn.txnWritten cursor (fun o type => (o.remove type id).toOption.getD o) txn
  | .removeAll cursor _, txn => conn.txnWritten cursor (fun o type => (o.removeAll type).2) txn
  | _, txn => conn.txns.get? txn

/-- A cursor after a call, as far as it was opened before. -/
def cursorAfter (conn : Connection) : Call → Handle → Option Cursor
  | .closeCursor closed, cursor => if cursor = closed then none else conn.cursors.get? cursor
  | _, cursor => conn.cursors.get? cursor

/-- A write through a cursor with a write transaction behind it. -/
theorem txnWritten_of_writer {cursor : Handle} {c : Cursor} {o : Overlay}
    (hcursor : conn.cursors.get? cursor = some c) (htxn : conn.txns.get? c.txn = some (.write o))
    (f : Overlay → TypeId → Overlay) (txn : Handle) :
    conn.txnWritten cursor f txn = (conn.setChanges c.txn (f o c.type)).txns.get? txn := by
  rw [txnWritten, writer_eq_ok.2 ⟨hcursor, htxn⟩]
  simp only [setChanges, SortedMap.get?_insert]

/-- What changes nothing where it can be made is no write at all. -/
theorem txnWritten_of_unchanged {cursor : Handle} {f : Overlay → TypeId → Overlay}
    (hf : ∀ c o, conn.writer cursor = .ok (c, o) → f o c.type = o) (txn : Handle) :
    conn.txnWritten cursor f txn = conn.txns.get? txn := by
  unfold txnWritten
  split
  · rename_i c o hw
    split
    · rename_i heq
      rw [hf c o hw, heq, (writer_eq_ok.1 hw).2]
    · rfl
  · rfl

/-- No transaction ends with one that is not there. -/
theorem txns_of_missing {missing : Handle} (h : conn.txns.get? missing = none) (txn : Handle) :
    (if txn = missing then none else conn.txns.get? txn) = conn.txns.get? txn := by
  split
  · rename_i heq
    rw [heq, h]
  · rfl

/-- A transaction that was begun before is after a successful call what the handles tell. -/
theorem txns_of_effect {c : Call} {answer : Answer} {txn : Handle} (h : txn < conn.nextHandle)
    (heffect : Effect conn c answer conn') : conn'.txns.get? txn = conn.txnAfter c txn := by
  cases heffect with
  | beginRead => exact (SortedMap.get?_insert _ _ _ _).trans (if_neg (Nat.ne_of_lt h))
  | beginWrite => exact (SortedMap.get?_insert _ _ _ _).trans (if_neg (Nat.ne_of_lt h))
  | commitRead => exact SortedMap.get?_erase _ _ _
  | commitWrite => exact SortedMap.get?_erase _ _ _
  | abortRead => exact SortedMap.get?_erase _ _ _
  | abortWrite => exact SortedMap.get?_erase _ _ _
  | put hcursor htxn hput =>
    rw [txnAfter, txnWritten_of_writer hcursor htxn, Overlay.attempt, hput]
  | remove hcursor htxn hremove =>
    rw [txnAfter, txnWritten_of_writer hcursor htxn, hremove]
    rfl
  | removeAll hcursor htxn => rw [txnAfter, txnWritten_of_writer hcursor htxn]
  | _ => rfl

/-- A transaction is after a failing call what the handles tell. -/
theorem txns_of_failure {c : Call} {e : StoreError} (txn : Handle) (h : conn.call? c = .error e) :
    (conn.afterFailure c).txns.get? txn = conn.txnAfter c txn := by
  cases c with
  | commit ended =>
    rcases commit_eq_error h with hnone | ⟨o, ho, -⟩
    · have hconn : conn.afterFailure (.commit ended) = conn := by rw [afterFailure, hnone]
      rw [hconn]
      exact (txns_of_missing hnone txn).symm
    · rw [afterFailure, ho]
      exact SortedMap.get?_erase _ _ _
  | abort ended =>
    cases hmode : conn.txns.get? ended with
    | some mode =>
      cases mode <;> simp [call?, abort, Connection.txn, hmode, bind, Except.bind, pure,
        Except.pure] at h
    | none => exact (txns_of_missing hmode txn).symm
  -- a put that is refused may have left a copy of a type among the changes
  | put cursor id data mayReplace =>
    cases data with
    | none => rfl
    | some data =>
      rw [afterFailure, txnAfter]
      cases hw : conn.writer cursor with
      | error e' =>
        rw [txnWritten, hw]
      | ok r =>
        obtain ⟨hcursor, htxn⟩ := writer_eq_ok.1 hw
        have hput : r.2.put r.1.type id data mayReplace = .error e := put_eq_error hcursor htxn h
        rw [txnWritten_of_writer hcursor htxn, Overlay.attempt, hput]
  | remove cursor id =>
    rw [txnAfter, txnWritten_of_unchanged]
    · rfl
    intro c o hw
    cases hremove : o.remove c.type id with
    | error e' => rfl
    | ok o' =>
      simp [call?, hw, hremove, bind, Except.bind, pure, Except.pure] at h
  | removeAll cursor place =>
    rw [txnAfter, txnWritten_of_unchanged]
    · rfl
    intro c o hw
    simp [call?, hw, bind, Except.bind, pure, Except.pure] at h
  | _ => rfl

/-- **What a call does to the transactions** that were begun before does not depend on the store. -/
theorem txns_call {txn : Handle} (h : txn < conn.nextHandle) (c : Call) :
    (conn.step (.call c)).txns.get? txn = conn.txnAfter c txn := by
  rcases conn.call_cases c with ⟨answer, conn', heffect, hcall⟩ | ⟨e, hfail, hcall⟩
  · rw [step, hcall]
    exact txns_of_effect h heffect
  · rw [step, hcall]
    exact txns_of_failure txn hfail

/-- **What a call does to the cursors** that were opened before does not depend on the store. -/
theorem cursors_call {cursor : Handle} (h : cursor < conn.nextHandle) (c : Call) :
    (conn.step (.call c)).cursors.get? cursor = conn.cursorAfter c cursor := by
  rcases conn.call_cases c with ⟨answer, conn', heffect, hcall⟩ | ⟨e, hfail, hcall⟩
  · rw [step, hcall]
    cases heffect with
    | openCursor => exact (SortedMap.get?_insert _ _ _ _).trans (if_neg (Nat.ne_of_lt h))
    | closeCursor => exact SortedMap.get?_erase _ _ _
    | _ => rfl
  · rw [step, hcall]
    have hleft := conn.leftover_of_failure c
    generalize conn.afterFailure c = conn' at hleft ⊢
    cases hleft with
    | refusedCommit => rfl
    | refusedPut => rfl
    | nothing =>
      cases c with
      | closeCursor closed =>
        cases hc : conn.cursors.get? closed with
        | some cur => simp [call?, given, hc, bind, Except.bind, pure, Except.pure] at hfail
        | none =>
          rw [cursorAfter]
          split
          · rename_i heq
            rw [heq, hc]
          · rfl
      | _ => rfl

end Connection

/-! ## Two runs side by side -/

/-- A call that names no handle from `bound` on. -/
def Call.NamesBelow (bound : Handle) : Call → Prop
  | .closeBox box => box < bound
  | .boxId box _ => box < bound
  | .putAsync box _ _ _ => box < bound
  | .commit txn => txn < bound
  | .abort txn => txn < bound
  | .openCursor txn _ _ => txn < bound
  | .closeCursor cursor => cursor < bound
  | .cursorId cursor _ => cursor < bound
  | .put cursor _ _ _ => cursor < bound
  | .get cursor _ _ => cursor < bound
  | .getAll cursor _ => cursor < bound
  | .contains cursor _ _ => cursor < bound
  | .count cursor _ => cursor < bound
  | .remove cursor _ => cursor < bound
  | .removeAll cursor _ => cursor < bound
  | _ => True

/-- An event that names no handle from `bound` on. -/
def Event.NamesBelow (bound : Handle) : Event → Prop
  | .call c => c.NamesBelow bound
  | _ => True

/-- A call that reads or writes through a cursor. -/
def Call.ThroughCursor : Call → Prop
  | .put _ _ _ _ => True
  | .get _ _ _ => True
  | .getAll _ _ => True
  | .contains _ _ _ => True
  | .count _ _ => True
  | .remove _ _ => True
  | .removeAll _ _ => True
  | _ => False

namespace Connection

/-- Connections with the same transactions and cursors below `bound`, whatever their stores are. -/
structure Beside (bound : Handle) (conn conn' : Connection) : Prop where
  bound_le : bound ≤ conn.nextHandle
  bound_le' : bound ≤ conn'.nextHandle
  txns : ∀ txn < bound, conn'.txns.get? txn = conn.txns.get? txn
  cursors : ∀ cursor < bound, conn'.cursors.get? cursor = conn.cursors.get? cursor
  txn_lt : ∀ cursor < bound, ∀ c, conn.cursors.get? cursor = some c → c.txn < bound

namespace Beside

variable {bound : Handle} {conn conn' : Connection}

/-- A cursor that was opened before shows the same on both sides. -/
theorem cursor_eq (h : Beside bound conn conn') {cursor : Handle} (hcursor : cursor < bound) :
    conn'.cursor cursor = conn.cursor cursor := by
  rw [Connection.cursor, Connection.cursor, h.cursors cursor hcursor]
  cases hc : conn.cursors.get? cursor with
  | none => rfl
  | some c =>
    have htxn : conn'.txn c.txn = conn.txn c.txn := by
      rw [Connection.txn, Connection.txn, h.txns c.txn (h.txn_lt cursor hcursor c hc)]
    simp only [htxn]

/-- A cursor that was opened before writes to the same on both sides. -/
theorem writer_eq (h : Beside bound conn conn') {cursor : Handle} (hcursor : cursor < bound) :
    conn'.writer cursor = conn.writer cursor := by
  rw [writer, writer, h.cursor_eq hcursor]

/-- A call does the same to a transaction on both sides. -/
theorem txnAfter_eq (h : Beside bound conn conn') {c : Call} (hc : c.NamesBelow bound)
    {txn : Handle} (htxn : txn < bound) : conn'.txnAfter c txn = conn.txnAfter c txn := by
  have hsame := h.txns txn htxn
  have hwritten : ∀ {cursor}, cursor < bound → ∀ f,
      conn'.txnWritten cursor f txn = conn.txnWritten cursor f txn := by
    intro cursor hcursor f
    rw [txnWritten, txnWritten, h.writer_eq hcursor, hsame]
  cases c with
  | commit ended => rw [txnAfter, txnAfter, hsame]
  | abort ended => rw [txnAfter, txnAfter, hsame]
  | put cursor id data mayReplace =>
    cases data with
    | none => exact hsame
    | some data => rw [txnAfter, txnAfter, hwritten hc]
  | remove cursor id => rw [txnAfter, txnAfter, hwritten hc]
  | removeAll cursor place => rw [txnAfter, txnAfter, hwritten hc]
  | _ => exact hsame

/-- A call does the same to a cursor on both sides. -/
theorem cursorAfter_eq (h : Beside bound conn conn') (c : Call) {cursor : Handle}
    (hcursor : cursor < bound) : conn'.cursorAfter c cursor = conn.cursorAfter c cursor := by
  have hsame := h.cursors cursor hcursor
  cases c with
  | closeCursor closed => rw [cursorAfter, cursorAfter, hsame]
  | _ => exact hsame

/-- A cursor that is still there after a call was there before. -/
theorem cursors_of_cursorAfter {c : Call} {cursor : Handle} {cur : Cursor}
    (h : conn.cursorAfter c cursor = some cur) : conn.cursors.get? cursor = some cur := by
  unfold cursorAfter at h
  split at h
  · split at h
    · cases h
    · exact h
  · exact h

/-- **An event keeps the runs side by side**, whatever it does to the stores. -/
theorem step (h : Beside bound conn conn') {event : Event} (hevent : event.NamesBelow bound) :
    Beside bound (conn.step event) (conn'.step event) := by
  cases event with
  | worker => exact ⟨h.bound_le, h.bound_le', h.txns, h.cursors, h.txn_lt⟩
  | closing => exact ⟨h.bound_le, h.bound_le', h.txns, h.cursors, h.txn_lt⟩
  | call c =>
    have hle {handle : Handle} (hlt : handle < bound) : handle < conn.nextHandle :=
      hlt.trans_le h.bound_le
    have hle' {handle : Handle} (hlt : handle < bound) : handle < conn'.nextHandle :=
      hlt.trans_le h.bound_le'
    refine ⟨h.bound_le.trans (nextHandle_le_step conn _),
      h.bound_le'.trans (nextHandle_le_step conn' _), fun txn htxn => ?_, fun cursor hcursor => ?_,
      fun cursor hcursor cur hcur => ?_⟩
    · rw [txns_call (hle htxn), txns_call (hle' htxn), h.txnAfter_eq hevent htxn]
    · rw [cursors_call (hle hcursor), cursors_call (hle' hcursor), h.cursorAfter_eq c hcursor]
    · rw [cursors_call (hle hcursor)] at hcur
      exact h.txn_lt cursor hcursor cur (cursors_of_cursorAfter hcur)

/-- Events keep the runs side by side. -/
theorem after (h : Beside bound conn conn') {later : List Event}
    (hlater : ∀ event ∈ later, event.NamesBelow bound) :
    Beside bound (conn.after later) (conn'.after later) := by
  induction later generalizing conn conn' with
  | nil => exact h
  | cons event later ih =>
    exact ih (h.step (hlater event List.mem_cons_self))
      fun event' hevent' => hlater event' (List.mem_cons_of_mem event hevent')

/-- **A call through a cursor is answered the same on both sides.** -/
theorem answer_eq (h : Beside bound conn conn') {c : Call} (hthrough : c.ThroughCursor)
    (hc : c.NamesBelow bound) : (conn'.call c).1 = (conn.call c).1 := by
  rw [call_fst, call_fst]
  refine SameOutcome.map_eq (R := fun r r' => r.1 = r'.1) ?_ fun _ _ h => h
  cases c with
  | put cursor id data mayReplace =>
    rw [call?, call?, h.writer_eq hc]
    exact .after fun _ _ => .after fun _ _ => .after fun _ _ => .ok rfl
  | get cursor id place =>
    rw [call?, call?, h.cursor_eq hc]
    refine .after fun r _ => ?_
    dsimp only
    split
    · exact .error _
    · exact .after fun _ _ => .ok rfl
  | getAll cursor place =>
    rw [call?, call?, h.cursor_eq hc]
    exact .after fun _ _ => .after fun _ _ => .ok rfl
  | contains cursor id place =>
    rw [call?, call?, h.cursor_eq hc]
    exact .after fun _ _ => .after fun _ _ => .ok rfl
  | count cursor place =>
    rw [call?, call?, h.cursor_eq hc]
    exact .after fun _ _ => .after fun _ _ => .ok rfl
  | remove cursor id =>
    rw [call?, call?, h.writer_eq hc]
    exact .after fun _ _ => .after fun _ _ => .ok rfl
  | removeAll cursor place =>
    rw [call?, call?, h.writer_eq hc]
    exact .after fun _ _ => .ok rfl
  | _ => exact absurd hthrough id

end Beside

/-! ## The law -/

/-- What holds for good of a store that was closed: `conn` is the connection before the close and
`closed` the one after it. -/
structure ClosedLaw (conn closed : Connection) : Prop where
  /-- What can be used after the close was given out before it. -/
  handles : ∀ later h, (closed.after later).boxes.get? h ≠ none ∨
    (closed.after later).txns.get? h ≠ none ∨ (closed.after later).cursors.get? h ≠ none →
      h < conn.nextHandle
  /-- Nothing reaches the store. -/
  kept : ∀ later, (closed.after later).store.committed = closed.store.committed ∧
    (closed.after later).store.queue = closed.store.queue ∧
    (closed.after later).store.types = closed.store.types ∧
    (closed.after later).store.closed = true
  /-- Requests for IDs, puts into the queue, new cursors and the commit of the write transaction
  fail because the store is closed. -/
  boxId : ∀ later box type candidate, (closed.after later).boxes.get? box = some type →
    ((closed.after later).call (.boxId box candidate)).1 = .error .storeClosed
  cursorId : ∀ later cursor c mode candidate,
    (closed.after later).cursors.get? cursor = some c →
    (closed.after later).txns.get? c.txn = some mode →
    ((closed.after later).call (.cursorId cursor candidate)).1 = .error .storeClosed
  putAsync : ∀ later box type id data mayReplace,
    (closed.after later).boxes.get? box = some type →
    ((closed.after later).call (.putAsync box id (some data) mayReplace)).1 = .error .storeClosed
  openCursor : ∀ later txn mode type, (closed.after later).txns.get? txn = some mode →
    ((closed.after later).call (.openCursor txn type true)).1 = .error .storeClosed
  commitWrite : ∀ later txn o, (closed.after later).txns.get? txn = some (.write o) →
    ((closed.after later).call (.commit txn)).1 = .error .storeClosed
  /-- Transactions are aborted, read transactions committed, and handles closed. -/
  abort : ∀ later txn mode, (closed.after later).txns.get? txn = some mode →
    ((closed.after later).call (.abort txn)).1 = .ok .done
  commitRead : ∀ later txn snapshot, (closed.after later).txns.get? txn = some (.read snapshot) →
    ((closed.after later).call (.commit txn)).1 = .ok .done
  closeBox : ∀ later box type, (closed.after later).boxes.get? box = some type →
    ((closed.after later).call (.closeBox box)).1 = .ok .done
  closeCursor : ∀ later cursor c, (closed.after later).cursors.get? cursor = some c →
    ((closed.after later).call (.closeCursor cursor)).1 = .ok .done
  /-- What is read and written through a cursor is answered as if the close had not been. -/
  cursors : ∀ later c, (∀ event ∈ later, event.NamesBelow conn.nextHandle) → c.ThroughCursor →
    c.NamesBelow conn.nextHandle → ((closed.after later).call c).1 = ((conn.after later).call c).1

variable {conn : Connection}

/-- On a closed store no handle is given out. -/
theorem nextHandle_step_of_final (h : conn.store.Final) (event : Event) :
    (conn.step event).nextHandle = conn.nextHandle := by
  cases event with
  | worker => rfl
  | closing => rfl
  | call c =>
    rcases conn.call_cases c with ⟨answer, conn', heffect, hcall⟩ | ⟨e, -, hcall⟩
    · rw [step, hcall]
      cases heffect with
      | openBox hopen => exact absurd hopen h.not_open
      | beginRead hopen => exact absurd hopen h.not_open
      | beginWrite hopen => exact absurd hopen h.not_open
      | openCursor _ hopen => exact absurd hopen h.not_open
      | _ => rfl
    · rw [step, hcall]
      have hleft := conn.leftover_of_failure c
      generalize conn.afterFailure c = conn' at hleft ⊢
      cases hleft <;> rfl

/-- On a closed store no handle is ever given out again. -/
theorem nextHandle_after_of_final (h : conn.store.Final) (later : List Event) :
    (conn.after later).nextHandle = conn.nextHandle := by
  induction later generalizing conn with
  | nil => rfl
  | cons event later ih =>
    obtain ⟨writing, hstore⟩ := store_step h event
    exact (ih (hstore ▸ h.withWriting writing)).trans (nextHandle_step_of_final h event)

/-- **The close of a store is final.**  Whatever was done before and whatever is still open, after a
close that succeeds nothing reaches the store any more.  What would have to, fails because the store
is closed; what ends a transaction or closes a handle, succeeds; and the cursors that were opened
before go on as if the close had not been. -/
theorem closing_is_final (options : Options) (before : List Event) (answer : Answer)
    (hclose : (((Connection.new options).after before).call .close).1 = .ok answer) :
    ClosedLaw ((Connection.new options).after before)
      (((Connection.new options).after before).step (.call .close)) := by
  have hdealt : ((Connection.new options).after before).Dealt := (Dealt.new options).after before
  generalize (Connection.new options).after before = conn at hclose hdealt ⊢
  obtain ⟨hfinal, hsame⟩ := final_of_close hclose
  have hdealt' := hdealt.step (.call .close)
  have hnext : (conn.step (.call .close)).nextHandle = conn.nextHandle := by rw [hsame]
  have hbeside : Beside conn.nextHandle conn (conn.step (.call .close)) := by
    rw [hsame]
    exact ⟨Nat.le_refl _, Nat.le_refl _, fun _ _ => rfl, fun _ _ => rfl,
      fun _ _ _ hc => (hdealt.cursors hc).2⟩
  -- from here on it does not matter how the store got closed
  generalize conn.step (.call .close) = closed at hfinal hdealt' hnext hbeside ⊢
  have hfinalAfter (later : List Event) : (closed.after later).store.Final := by
    obtain ⟨writing, hstore⟩ := store_after hfinal later
    exact hstore ▸ hfinal.withWriting writing
  refine
    { handles := fun later h hlive => ?_
      kept := fun later => ?_
      boxId := fun later box type candidate hbox => ?_
      cursorId := fun later cursor c mode candidate hcursor htxn => ?_
      putAsync := fun later box type id data mayReplace hbox => ?_
      openCursor := fun later txn mode type htxn => ?_
      commitWrite := fun later txn o htxn => ?_
      abort := fun later txn mode htxn => ?_
      commitRead := fun later txn snapshot htxn => ?_
      closeBox := fun later box type hbox => ?_
      closeCursor := fun later cursor c hcursor => ?_
      cursors := fun later c hlater hthrough hc => ?_ }
  · have hafter := hdealt'.after later
    rw [← hnext, ← nextHandle_after_of_final hfinal later]
    rcases hlive with hbox | htxn | hcursor
    · obtain ⟨type, htype⟩ := Option.ne_none_iff_exists'.1 hbox
      exact hafter.boxes htype
    · obtain ⟨mode, hmode⟩ := Option.ne_none_iff_exists'.1 htxn
      exact hafter.txns hmode
    · obtain ⟨c, hc⟩ := Option.ne_none_iff_exists'.1 hcursor
      exact (hafter.cursors hc).1
  · obtain ⟨writing, hstore⟩ := store_after hfinal later
    rw [hstore]
    exact ⟨rfl, rfl, rfl, hfinal.closed⟩
  · simp [call_fst, call?, box_eq_ok.2 hbox, (hfinalAfter later).issueId_eq, bind, Except.bind,
      Except.map]
  · simp [call_fst, call?, cursor_eq_ok.2 ⟨hcursor, htxn⟩, (hfinalAfter later).issueId_eq, bind,
      Except.bind, Except.map]
  · simp [call_fst, call?, box_eq_ok.2 hbox, given, (hfinalAfter later).enqueue_eq, bind,
      Except.bind, Except.map]
  · simp [call_fst, call?, needPlace, txn_eq_ok.2 htxn, (hfinalAfter later).requireType_eq, bind,
      Except.bind, Except.map]
  · simp [call_fst, call?, commit, txn_eq_ok.2 htxn, (hfinalAfter later).commit_eq, bind,
      Except.bind, Except.map]
  · cases mode <;>
      simp [call_fst, call?, Connection.abort, txn_eq_ok.2 htxn, bind, Except.bind, pure,
        Except.pure, Except.map]
  · simp [call_fst, call?, commit, txn_eq_ok.2 htxn, bind, Except.bind, pure, Except.pure,
      Except.map]
  · simp [call_fst, call?, box_eq_ok.2 hbox, bind, Except.bind, pure, Except.pure, Except.map]
  · simp [call_fst, call?, hcursor, given, bind, Except.bind, pure, Except.pure, Except.map]
  · exact (hbeside.after hlater).answer_eq hthrough hc

/-- A box, and a write transaction with a cursor through which an object was put. -/
def openHandlesRun : List Event :=
  [.call (.register 1 (some [65])), .call (.openBox 1 true), .call (.begin false true),
    .call (.openCursor 1 1 true), .call (.put 2 7 (some [1, 2]) true)]

/-- After the close the box gives out no ID and the transaction cannot be committed, while its
cursor still puts, removes and reads. -/
theorem closing_is_final_openHandles :
    let conn := (Connection.new {}).after openHandlesRun
    let closed := conn.step (.call .close)
    (conn.call .close).1 = .ok .done ∧ (closed.call (.boxId 0 0)).1 = .error .storeClosed ∧
      (closed.call (.commit 1)).1 = .error .storeClosed ∧
      ((closed.after [.call (.put 2 8 (some [3]) true), .call (.remove 2 7)]).call
          (.getAll 2 true)).1 = .ok (.list [[3]]) := by
  intro conn closed
  have hclose : (conn.call .close).1 = .ok .done := by decide +kernel
  have hlaw : ClosedLaw conn closed := closing_is_final {} openHandlesRun .done hclose
  have hbox : (closed.after []).boxes.get? 0 = some 1 := by decide +kernel
  have htxn : ∃ o, (closed.after []).txns.get? 1 = some (.write o) := by
    refine ⟨⟨∅, SortedMap.insert ∅ 1 (SortedMap.insert ∅ 7 [1, 2])⟩, ?_⟩
    decide +kernel
  obtain ⟨o, ho⟩ := htxn
  have hcursor : 2 < conn.nextHandle := by decide +kernel
  have hgoesOn := hlaw.cursors [.call (.put 2 8 (some [3]) true), .call (.remove 2 7)]
    (.getAll 2 true) (by simpa [Event.NamesBelow, Call.NamesBelow] using hcursor) trivial hcursor
  refine ⟨hclose, hlaw.boxId [] 0 1 0 hbox, hlaw.commitWrite [] 1 o ho, hgoesOn.trans ?_⟩
  decide +kernel

end Connection

end ObjectStore
