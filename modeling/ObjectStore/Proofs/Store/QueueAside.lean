import Mathlib
import ObjectStore.Proofs.Store.Held
import ObjectStore.Proofs.Store.IdSequence

/-!
# The queue aside

Most calls neither ask for the queue of asynchronous puts nor change it: they come to the same whatever
the queue is (`Connection.call_withQueue`).  So nobody can tell by such calls which puts wait, or what
the worker is at.

Of these calls only a few change what is committed, or who writes (`Connection.undisturbed_of_call`).
-/

namespace ObjectStore

/-- The store with another queue. -/
def Store.withQueue (s : Store) (queue : PutQueue) : Store := { s with queue := queue }

/-- The connection with another queue. -/
def Connection.withQueue (conn : Connection) (queue : PutQueue) : Connection :=
  { conn with store := conn.store.withQueue queue }

/-- Whether a call asks for the queue: it queues a put, waits for the queue, or closes it. -/
def Call.asksQueue : Call → Bool
  | .awaitIdle => true
  | .close => true
  | .putAsync _ _ _ _ => true
  | _ => false

/-! ## The same whatever the queue is -/

namespace Store

variable {s : Store} {queue : PutQueue}

theorem register_withQueue (type : TypeId) (name : String) :
    SameOutcome (fun s s' => s' = s.withQueue queue) (s.register type name)
      ((s.withQueue queue).register type name) := by
  unfold register
  refine .after fun _ _ => ?_
  dsimp only [withQueue]
  split
  · exact .error _
  split
  · exact .error _
  cases s.types.get? type with
  | none => exact .ok rfl
  | some known =>
    dsimp only
    split
    · exact .ok rfl
    · exact .error _

theorem issueId_withQueue (type : TypeId) (candidate : ObjectId) :
    SameOutcome (fun r r' => r' = (r.1, r.2.withQueue queue)) (s.issueId type candidate)
      ((s.withQueue queue).issueId type candidate) :=
  .after fun _ _ => .after fun _ _ => .after fun _ _ => .ok rfl

theorem openWriter_withQueue :
    SameOutcome (fun r r' => r' = (r.1, r.2.withQueue queue)) s.openWriter
      (s.withQueue queue).openWriter := by
  refine .after fun _ _ => ?_
  cases h : s.writing with
  | true =>
    have h' : (s.withQueue queue).writing = true := h
    simp only [h', if_true]
    exact .error _
  | false =>
    have h' : (s.withQueue queue).writing = false := h
    simp only [h', Bool.false_eq_true, if_false]
    exact .ok rfl

end Store

namespace Connection

variable {conn : Connection} {queue : PutQueue} {c : Call}

/-- One answer, and connections that differ in their queues alone. -/
def SameAside (queue : PutQueue) (r r' : Answer × Connection) : Prop :=
  r' = (r.1, r.2.withQueue queue)

theorem begin_withQueue (readOnly : Bool) :
    SameOutcome (SameAside queue) (conn.begin readOnly) ((conn.withQueue queue).begin readOnly) := by
  cases readOnly with
  | true => exact .after fun _ _ => .ok rfl
  | false =>
    show SameOutcome (SameAside queue) (conn.store.openWriter >>= _)
      ((conn.store.withQueue queue).openWriter >>= _)
    refine Store.openWriter_withQueue.bind ?_
    rintro r _ rfl
    exact .ok rfl

theorem commit_withQueue (txn : Handle) :
    SameOutcome (SameAside queue) (conn.commit txn) ((conn.withQueue queue).commit txn) := by
  refine .after fun mode _ => ?_
  cases mode with
  | read snapshot => exact .ok rfl
  | write o =>
    show SameOutcome (SameAside queue) (conn.store.commit o >>= _)
      ((conn.store.withQueue queue).commit o >>= _)
    refine SameOutcome.bind (R := fun s s' => s' = s.withQueue queue)
      (.after fun _ _ => .ok rfl) ?_
    rintro s _ rfl
    exact .ok rfl

theorem abort_withQueue (txn : Handle) :
    SameOutcome (SameAside queue) (conn.abort txn) ((conn.withQueue queue).abort txn) := by
  refine .after fun mode _ => ?_
  cases mode with
  | read snapshot => exact .ok rfl
  | write o => exact .ok rfl

/-- **A call that does not ask for the queue** has the same outcome whatever the queue is. -/
theorem call?_withQueue (hc : c.asksQueue = false) :
    SameOutcome (SameAside queue) (conn.call? c) ((conn.withQueue queue).call? c) := by
  cases c with
  | awaitIdle => cases hc
  | close => cases hc
  | putAsync box id data mayReplace => cases hc
  | register type name =>
    refine .after fun _ _ => .after fun _ _ => .after fun name _ =>
      (Store.register_withQueue type name).bind ?_
    rintro s _ rfl
    exact .ok rfl
  | boxId box candidate =>
    refine .after fun type _ => (Store.issueId_withQueue type candidate).bind ?_
    rintro r _ rfl
    exact .ok rfl
  | cursorId cursor candidate =>
    refine .after fun r _ => (Store.issueId_withQueue r.1.type candidate).bind ?_
    rintro r _ rfl
    exact .ok rfl
  | begin readOnly place => exact .after fun _ _ => .after fun _ _ => begin_withQueue readOnly
  | commit txn => exact commit_withQueue txn
  | abort txn => exact abort_withQueue txn
  | openBox type place =>
    exact .after fun _ _ => .after fun _ _ => .after fun _ _ => .ok rfl
  | closeBox box => exact .after fun _ _ => .ok rfl
  | openCursor txn type place =>
    exact .after fun _ _ => .after fun _ _ => .after fun _ _ => .ok rfl
  | closeCursor cursor => exact .after fun _ _ => .ok rfl
  | put cursor id data mayReplace =>
    exact .after fun _ _ => .after fun _ _ => .after fun _ _ => .ok rfl
  | get cursor id place =>
    refine .after fun r _ => ?_
    dsimp only
    split
    · exact .error _
    · exact .after fun _ _ => .ok rfl
  | getAll cursor place => exact .after fun _ _ => .after fun _ _ => .ok rfl
  | contains cursor id place => exact .after fun _ _ => .after fun _ _ => .ok rfl
  | count cursor place => exact .after fun _ _ => .after fun _ _ => .ok rfl
  | remove cursor id => exact .after fun _ _ => .after fun _ _ => .ok rfl
  | removeAll cursor place => exact .after fun _ _ => .ok rfl

/-- What a failed call leaves behind is not in the queue. -/
theorem afterFailure_withQueue (c : Call) :
    (conn.withQueue queue).afterFailure c = (conn.afterFailure c).withQueue queue := by
  cases c with
  | commit txn =>
    have htxns : (conn.withQueue queue).txns.get? txn = conn.txns.get? txn := rfl
    unfold afterFailure
    simp only [htxns]
    split <;> rfl
  | put cursor id data mayReplace =>
    cases data with
    | none => rfl
    | some data =>
      have hwriter : (conn.withQueue queue).writer cursor = conn.writer cursor := rfl
      unfold afterFailure
      simp only [hwriter]
      split <;> rfl
  | _ => rfl

/-- **A call that does not ask for the queue** comes to the same whatever the queue is. -/
theorem call_withQueue (hc : c.asksQueue = false) (conn : Connection) (queue : PutQueue) :
    (conn.withQueue queue).call c = ((conn.call c).1, (conn.call c).2.withQueue queue) := by
  have hsame : SameOutcome (SameAside queue) (conn.call? c) ((conn.withQueue queue).call? c) :=
    call?_withQueue hc
  unfold call
  generalize conn.call? c = r at hsame ⊢
  generalize (conn.withQueue queue).call? c = r' at hsame ⊢
  cases hsame with
  | error e =>
    exact congrArg (Prod.mk (Except.error e)) (afterFailure_withQueue c)
  | ok h =>
    cases h
    rfl

/-- Such a call leaves the queue as it is. -/
theorem queue_call (hc : c.asksQueue = false) (conn : Connection) :
    (conn.call c).2.store.queue = conn.store.queue := by
  -- the queue is put in its own place
  have hsame := call_withQueue hc conn conn.store.queue
  exact congrArg (fun r => r.2.store.queue) hsame

/-! ## Who writes, and what is committed -/

/-- What was committed is committed, and who wrote before writes. -/
structure Undisturbed (conn conn' : Connection) : Prop where
  closed : conn'.store.closed = conn.store.closed
  writing : conn'.store.writing = conn.store.writing
  committed : conn'.store.committed = conn.store.committed
  nextHandle : conn.nextHandle ≤ conn'.nextHandle
  kept : ∀ {txn o}, conn.txns.get? txn = some (.write o) →
    ∃ o', conn'.txns.get? txn = some (.write o')
  only : ∀ {txn o'}, conn'.txns.get? txn = some (.write o') →
    ∃ o, conn.txns.get? txn = some (.write o)

namespace Undisturbed

variable {conn' : Connection}

/-- The transactions are what they were. -/
theorem of_txns (hclosed : conn'.store.closed = conn.store.closed)
    (hwriting : conn'.store.writing = conn.store.writing)
    (hcommitted : conn'.store.committed = conn.store.committed)
    (hnext : conn.nextHandle ≤ conn'.nextHandle) (htxns : conn'.txns = conn.txns) :
    Undisturbed conn conn' where
  closed := hclosed
  writing := hwriting
  committed := hcommitted
  nextHandle := hnext
  kept := fun h => ⟨_, htxns ▸ h⟩
  only := fun h => ⟨_, htxns ▸ h⟩

/-- A write through a cursor, or an attempt at it. -/
theorem of_setChanges {txn : Handle} {o o' : Overlay} (htxn : conn.txns.get? txn = some (.write o)) :
    Undisturbed conn (conn.setChanges txn o') where
  closed := rfl
  writing := rfl
  committed := rfl
  nextHandle := le_rfl
  kept := by
    intro other p hp
    by_cases heq : other = txn
    · exact ⟨o', by rw [heq]; exact SortedMap.get?_insert_self _ _ _⟩
    · refine ⟨p, ?_⟩
      show (conn.txns.insert txn (.write o')).get? other = some (.write p)
      rw [SortedMap.get?_insert, if_neg heq, hp]
  only := by
    intro other p hp
    by_cases heq : other = txn
    · exact ⟨o, by rw [heq, htxn]⟩
    · change (conn.txns.insert txn (.write o')).get? other = some (.write p) at hp
      rw [SortedMap.get?_insert, if_neg heq] at hp
      exact ⟨p, hp⟩

/-- A transaction that does not write ends. -/
theorem of_endTxn {txn : Handle} {snapshot : Contents}
    (htxn : conn.txns.get? txn = some (.read snapshot)) : Undisturbed conn (conn.endTxn txn) where
  closed := rfl
  writing := rfl
  committed := rfl
  nextHandle := le_rfl
  kept := by
    intro other p hp
    have hne : other ≠ txn := by
      rintro rfl
      rw [htxn] at hp
      cases hp
    refine ⟨p, ?_⟩
    show (conn.txns.erase txn).get? other = some (.write p)
    rw [SortedMap.get?_erase, if_neg hne, hp]
  only := by
    intro other p hp
    change (conn.txns.erase txn).get? other = some (.write p) at hp
    rw [SortedMap.get?_erase] at hp
    split at hp
    · cases hp
    · exact ⟨p, hp⟩

/-- A transaction begins that does not write. -/
theorem of_beginRead (hdealt : ∀ {txn o}, conn.txns.get? txn = some (.write o) →
      txn < conn.nextHandle) (snapshot : Contents) :
    Undisturbed conn { conn with
      txns := conn.txns.insert conn.nextHandle (.read snapshot)
      nextHandle := conn.nextHandle + 1 } where
  closed := rfl
  writing := rfl
  committed := rfl
  nextHandle := Nat.le_succ _
  kept := by
    intro other p hp
    refine ⟨p, ?_⟩
    show (conn.txns.insert conn.nextHandle (.read snapshot)).get? other = some (.write p)
    rw [SortedMap.get?_insert, if_neg (ne_of_lt (hdealt hp)), hp]
  only := by
    intro other p hp
    change (conn.txns.insert conn.nextHandle (.read snapshot)).get? other = some (.write p) at hp
    rw [SortedMap.get?_insert] at hp
    split at hp
    · cases hp
    · exact ⟨p, hp⟩

end Undisturbed

/-- A call that begins a write transaction, or ends one that is open. -/
inductive MovesWriter (conn : Connection) : Call → Prop
  | begin (place : Bool) (hfree : conn.store.writing = false) : MovesWriter conn (.begin false place)
  | commit {txn : Handle} {o : Overlay} (htxn : conn.txns.get? txn = some (.write o)) :
      MovesWriter conn (.commit txn)
  | abort {txn : Handle} {o : Overlay} (htxn : conn.txns.get? txn = some (.write o)) :
      MovesWriter conn (.abort txn)

/-- **A call that neither asks for the queue nor moves the writer** leaves what is committed, and
leaves the writers writing. -/
theorem undisturbed_of_call (hc : c.asksQueue = false) (hmoves : ¬ conn.MovesWriter c)
    (hdealt : ∀ {txn o}, conn.txns.get? txn = some (.write o) → txn < conn.nextHandle) :
    Undisturbed conn (conn.call c).2 := by
  have hsame : Undisturbed conn conn := .of_txns rfl rfl rfl le_rfl rfl
  rcases conn.call_cases c with ⟨answer, conn', heffect, hcall⟩ | ⟨e, -, hcall⟩
  · rw [hcall]
    cases heffect with
    | register _ _ hstore =>
      obtain ⟨types, rfl⟩ := Store.register_eq_ok hstore
      exact .of_txns rfl rfl rfl le_rfl rfl
    | awaitIdle => cases hc
    | close => cases hc
    | putAsync => cases hc
    | openBox => exact .of_txns rfl rfl rfl (Nat.le_succ _) rfl
    | closeBox => exact .of_txns rfl rfl rfl le_rfl rfl
    | boxId _ hissue =>
      obtain ⟨-, t, t', -, -, rfl⟩ := Store.issueId_eq_ok.1 hissue
      exact .of_txns rfl rfl rfl le_rfl rfl
    | beginRead => exact .of_beginRead hdealt _
    | beginWrite _ hfree => exact absurd (.begin true hfree) hmoves
    | commitRead htxn => exact .of_endTxn htxn
    | commitWrite htxn => exact absurd (.commit htxn) hmoves
    | abortRead htxn => exact .of_endTxn htxn
    | abortWrite htxn => exact absurd (.abort htxn) hmoves
    | openCursor => exact .of_txns rfl rfl rfl (Nat.le_succ _) rfl
    | closeCursor => exact .of_txns rfl rfl rfl le_rfl rfl
    | cursorId _ _ hissue =>
      obtain ⟨-, t, t', -, -, rfl⟩ := Store.issueId_eq_ok.1 hissue
      exact .of_txns rfl rfl rfl le_rfl rfl
    | put _ htxn => exact .of_setChanges htxn
    | remove _ htxn => exact .of_setChanges htxn
    | removeAll _ htxn => exact .of_setChanges htxn
    | _ => exact hsame
  · rw [hcall]
    have hleft := conn.leftover_of_failure c
    generalize conn.afterFailure c = conn' at hleft ⊢
    cases hleft with
    | nothing => exact hsame
    | refusedCommit htxn => exact absurd (.commit htxn) hmoves
    | refusedPut _ htxn => exact .of_setChanges htxn

end Connection

end ObjectStore
