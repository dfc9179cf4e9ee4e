import Mathlib
import ObjectStore.Store.Client
import ObjectStore.Proofs.Store.Alike

/-!
# Calls that fail

A client uses its stores from several threads, and calls fail for many reasons: a handle or a place
for the answer is missing, an ID or a name is out of order, the store is closed, the queue is full.
Whatever the reason, a call that fails changes nothing that a later call could find out, with one
exception: the commit of a write transaction on a closed store, which ends the transaction.

Some failing calls do leave something behind, namely the copy of a type that a rejected put has made
among the changes of its transaction.  So "nothing has changed" is about what the handles show
(`Connection.Unchanged`), and that it stays so is shown for all later events together
(`Client.Alike.answer_after`).  Main statement: `failing_call_changes_nothing`.

A call that would have to wait has not returned.  It counts as one that was not made, and what a
close does before it waits is an event of its own (`ClientEvent.closing`).
-/

namespace ObjectStore

/-! ## Runs of a client -/

/-- What can happen next to a client and its stores. -/
inductive ClientEvent
  /-- A thread makes a call. -/
  | call (thread : Thread) (c : ClientCall)
  /-- The worker of a store makes a step, if it can. -/
  | worker (connection : Handle)
  /-- A close was asked for and has to wait for the worker. -/
  | closing (connection : Handle)
  deriving DecidableEq, Repr

namespace Client

/-- Lets something happen on a connection. -/
def happen (c : Client) (connection : Handle) (event : Event) : Client :=
  match c.connections.get? connection with
  | some conn => { c with connections := c.connections.insert connection (conn.step event) }
  | none => c

/-- The client after an event. -/
def step (c : Client) : ClientEvent → Client
  | .call thread call => (c.call thread call).2
  | .worker connection => c.happen connection .worker
  | .closing connection => c.happen connection .closing

/-- The client after some events. -/
def after (c : Client) (events : List ClientEvent) : Client := events.foldl step c

/-- What a call does, its trace in the last error apart. -/
theorem perform_snd (c : Client) (call : ClientCall) :
    (c.perform call).2 = match call with
      | .openStore options place =>
        if place then
          { c with
            connections := c.connections.insert c.nextConnection (.new (options.getD {}))
            nextConnection := c.nextConnection + 1 }
        else c
      | .on (some connection) call => c.happen connection (.call call)
      | .on none _ => c := by
  cases call with
  | openStore options place => cases place <;> rfl
  | on connection call =>
    cases connection with
    | none => rfl
    | some connection =>
      unfold perform happen
      cases hget : c.connections.get? connection with
      | none => simp [hget]
      | some conn => simp [hget, Connection.step]

/-- A call is performed, and its outcome is kept. -/
theorem call_eq (c : Client) (thread : Thread) (call : ClientCall) :
    c.call thread call
      = ((c.perform call).1, (c.perform call).2.record thread (c.perform call).1) := rfl

/-! ## Stores in a run -/

/-- Every connection has a history that tells what it holds. -/
def Serial (c : Client) : Prop :=
  ∀ h conn, c.connections.get? h = some conn → ∃ hist, Session.Serial ⟨conn, hist⟩

variable {c c' : Client}

theorem serial_new : Client.new.Serial := nofun

/-- A connection is replaced by one with a history. -/
theorem Serial.insert (hc : c.Serial) (h : Handle) {conn : Connection}
    (hconn : ∃ hist, Session.Serial ⟨conn, hist⟩) (next : Handle) :
    Serial { c with connections := c.connections.insert h conn, nextConnection := next } := by
  intro h' conn' hget
  simp only [SortedMap.get?_insert] at hget
  split at hget
  · cases hget
    exact hconn
  · exact hc h' conn' hget

/-- What happens on a connection continues its history. -/
theorem Serial.happen (hc : c.Serial) (connection : Handle) (event : Event) :
    (c.happen connection event).Serial := by
  unfold Client.happen
  split
  · rename_i conn hget
    obtain ⟨hist, hx⟩ := hc connection conn hget
    exact hc.insert connection ⟨_, hx.step event⟩ c.nextConnection
  · exact hc

/-- The last errors play no part. -/
theorem Serial.record (hc : c.Serial) (thread : Thread) (result : Except StoreError Answer) :
    (c.record thread result).Serial := by
  cases result <;> exact hc

/-- Every event keeps the histories. -/
theorem Serial.step (hc : c.Serial) (event : ClientEvent) : (c.step event).Serial := by
  cases event with
  | call thread call =>
    rw [Client.step, call_eq]
    refine Serial.record ?_ thread _
    rw [perform_snd]
    split
    · split
      · exact hc.insert c.nextConnection ⟨.empty, .new _⟩ _
      · exact hc
    · exact hc.happen _ _
    · exact hc
  | worker connection => exact hc.happen connection .worker
  | closing connection => exact hc.happen connection .closing

/-- Every run keeps the histories. -/
theorem Serial.after (hc : c.Serial) (events : List ClientEvent) : (c.after events).Serial := by
  induction events generalizing c with
  | nil => exact hc
  | cons event events ih => exact ih (hc.step event)

/-! ## Clients that no call can tell apart -/

/-- Clients whose connections are alike. -/
structure Alike (c c' : Client) : Prop where
  nextConnection : c'.nextConnection = c.nextConnection
  connections : ∀ h, Option.Rel Connection.Alike (c.connections.get? h) (c'.connections.get? h)

namespace Alike

theorem refl (c : Client) : c.Alike c where
  nextConnection := rfl
  connections := by
    intro connection
    cases c.connections.get? connection with
    | none => exact .none
    | some conn => exact .some (.refl conn)

/-- A connection on one side is a connection on the other side, or missing on both. -/
theorem cases (h : c.Alike c') (connection : Handle) :
    (c.connections.get? connection = none ∧ c'.connections.get? connection = none) ∨
      ∃ conn conn', c.connections.get? connection = some conn ∧
        c'.connections.get? connection = some conn' ∧ conn.Alike conn' := by
  have hconn := h.connections connection
  generalize c.connections.get? connection = one at hconn ⊢
  generalize c'.connections.get? connection = other at hconn ⊢
  cases hconn with
  | none => exact Or.inl ⟨rfl, rfl⟩
  | some hconn => exact Or.inr ⟨_, _, rfl, rfl, hconn⟩

theorem insert (h : c.Alike c') (connection next : Handle) {conn conn' : Connection}
    (hconn : conn.Alike conn') :
    Alike { c with connections := c.connections.insert connection conn, nextConnection := next }
      { c' with
        connections := c'.connections.insert connection conn', nextConnection := next } where
  nextConnection := rfl
  connections := by
    intro connection'
    simp only [SortedMap.get?_insert]
    split
    · exact .some hconn
    · exact h.connections connection'

/-- The last errors play no part. -/
theorem record (h : c.Alike c') (thread : Thread) (result result' : Except StoreError Answer) :
    (c.record thread result).Alike (c'.record thread result') := by
  cases result <;> cases result' <;> exact ⟨h.nextConnection, h.connections⟩

theorem happen (h : c.Alike c') (hc : c.Serial) (connection : Handle) (event : Event) :
    (c.happen connection event).Alike (c'.happen connection event) := by
  unfold Client.happen
  rcases h.cases connection with ⟨hget, hget'⟩ | ⟨conn, conn', hget, hget', hconn⟩
  · rw [hget, hget']
    exact h
  · obtain ⟨hist, hx⟩ := hc connection conn hget
    rw [hget, hget']
    have hinsert := h.insert connection c.nextConnection
      (hconn.step (Connection.based_of_serial hx) event)
    exact ⟨h.nextConnection, hinsert.connections⟩

/-- **A call has the same answer on clients that are alike**, and leaves clients that are alike. -/
theorem call (h : c.Alike c') (hc : c.Serial) (thread : Thread) (call : ClientCall) :
    (c'.call thread call).1 = (c.call thread call).1 ∧
      (c.call thread call).2.Alike (c'.call thread call).2 := by
  rw [call_eq, call_eq]
  refine ⟨?_, Alike.record ?_ thread _ _⟩
  · cases call with
    | openStore options place =>
      cases place with
      | true => exact congrArg (fun next => Except.ok (Answer.opened next)) h.nextConnection
      | false => rfl
    | on connection call =>
      cases connection with
      | none => rfl
      | some connection =>
        unfold perform
        rcases h.cases connection with ⟨hget, hget'⟩ | ⟨conn, conn', hget, hget', hconn⟩
        · simp only [hget, hget']
        · obtain ⟨hist, hx⟩ := hc connection conn hget
          simp only [hget, hget']
          exact (hconn.call (Connection.based_of_serial hx) call).1
  · rw [perform_snd, perform_snd]
    split
    · split
      · rw [h.nextConnection]
        exact h.insert _ _ (.refl _)
      · exact h
    · exact h.happen hc _ _
    · exact h

/-- An event keeps clients alike. -/
theorem step (h : c.Alike c') (hc : c.Serial) (event : ClientEvent) :
    (c.step event).Alike (c'.step event) := by
  cases event with
  | call thread call => exact (h.call hc thread call).2
  | worker connection => exact h.happen hc connection .worker
  | closing connection => exact h.happen hc connection .closing

/-- **Whatever happens later, a call is answered alike.** -/
theorem answer_after (h : c.Alike c') (hc : c.Serial) (later : List ClientEvent) (thread : Thread)
    (call : ClientCall) :
    ((c'.after later).call thread call).1 = ((c.after later).call thread call).1 := by
  induction later generalizing c c' with
  | nil => exact (h.call hc thread call).1
  | cons event later ih => exact ih (h.step hc event) (hc.step event)

end Alike

/-! ## What a failing call does -/

/-- The commit of a write transaction on a closed store. -/
def RefusedCommit (c : Client) : ClientCall → Prop
  | .on (some connection) call =>
    ∃ conn, c.connections.get? connection = some conn ∧ conn.RefusedCommit call
  | _ => False

/-- A failing call finds nothing to work on, or fails on a connection. -/
theorem perform_of_error {call : ClientCall} {e : StoreError} (h : (c.perform call).1 = .error e) :
    (c.perform call).2 = c ∧ ¬ c.RefusedCommit call ∨
      ∃ connection conn inner, call = .on (some connection) inner ∧
        c.connections.get? connection = some conn ∧ conn.call? inner = .error e ∧
        (c.perform call).2
          = { c with connections := c.connections.insert connection (conn.afterFailure inner) } := by
  cases call with
  | openStore options place =>
    cases place with
    | true => cases h
    | false => exact Or.inl ⟨rfl, id⟩
  | on connection inner =>
    cases connection with
    | none => exact Or.inl ⟨rfl, id⟩
    | some connection =>
      unfold perform at h ⊢
      cases hget : c.connections.get? connection with
      | none =>
        refine Or.inl ⟨by simp [hget], fun hc => ?_⟩
        obtain ⟨conn, hconn, -⟩ := hc
        rw [hget] at hconn
        cases hconn
      | some conn =>
        refine Or.inr ⟨connection, conn, inner, rfl, hget, ?_, ?_⟩
        · simp only [hget] at h
          cases hcall : conn.call? inner with
          | ok r =>
            rw [Connection.call_of_ok hcall] at h
            cases h
          | error e' =>
            rw [Connection.call_of_error hcall] at h
            cases h
            rfl
        · simp only [hget] at h
          cases hcall : conn.call? inner with
          | ok r =>
            rw [Connection.call_of_ok hcall] at h
            cases h
          | error e' => simp [hget, Connection.call_of_error hcall]

/-- **A failing call leaves a client that is alike**, unless it is a commit that is refused. -/
theorem alike_of_error {call : ClientCall} {e : StoreError} (h : (c.perform call).1 = .error e)
    (hcommit : ¬ c.RefusedCommit call) : c.Alike (c.perform call).2 := by
  rcases perform_of_error h with ⟨hsame, -⟩ | ⟨connection, conn, inner, rfl, hget, hcall, heq⟩
  · rw [hsame]
    exact .refl c
  · rw [heq]
    have hinner : ¬ conn.RefusedCommit inner := fun hc => hcommit ⟨conn, hget, hc⟩
    refine ⟨rfl, fun connection' => ?_⟩
    simp only [SortedMap.get?_insert]
    split
    · rename_i hsame
      rw [hsame, hget]
      exact .some (Connection.alike_afterFailure hcall hinner)
    · exact (Alike.refl c).connections connection'

end Client

/-- Whether a transaction only reads, and what it sees. -/
def TxnMode.shown : TxnMode → Bool × View
  | .read snapshot => (true, snapshot.view)
  | .write changes => (false, changes.view)

/-- What a store holds and its handles show is as it was. -/
structure Connection.Unchanged (conn conn' : Connection) : Prop where
  /-- The committed contents, the types with their ID sequences, the queue, whether a transaction
  writes and whether the store is closed. -/
  store : conn'.store = conn.store
  boxes : conn'.boxes = conn.boxes
  cursors : conn'.cursors = conn.cursors
  nextHandle : conn'.nextHandle = conn.nextHandle
  /-- The same transactions are open, and each of them sees what it saw. -/
  txns : ∀ txn, (conn'.txns.get? txn).map TxnMode.shown = (conn.txns.get? txn).map TxnMode.shown

/-- Connections that no call can tell apart show the same. -/
theorem Connection.Alike.unchanged {conn conn' : Connection} (h : conn.Alike conn') :
    conn.Unchanged conn' where
  store := h.store
  boxes := h.boxes
  cursors := h.cursors
  nextHandle := h.nextHandle
  txns := by
    intro txn
    have hm := h.txns txn
    generalize conn.txns.get? txn = mode at hm ⊢
    generalize conn'.txns.get? txn = mode' at hm ⊢
    cases hm with
    | none => rfl
    | some hm =>
      cases hm with
      | read snapshot => rfl
      | write ho => exact congrArg (fun v => some (false, v)) (funext ho.payloads_eq)

/-- A client whose stores and handles are as they were.  Of the last errors that of `thread` alone
may be another one. -/
structure Client.Unchanged (c c' : Client) (thread : Thread) : Prop where
  nextConnection : c'.nextConnection = c.nextConnection
  connections : ∀ h, Option.Rel Connection.Unchanged (c.connections.get? h) (c'.connections.get? h)
  lastErrors : ∀ other, other ≠ thread → c'.lastError other = c.lastError other

/-- Only the calling thread's last error is another one after a call. -/
theorem Client.lastError_call (c : Client) {thread other : Thread} (call : ClientCall)
    (h : other ≠ thread) : (c.call thread call).2.lastError other = c.lastError other := by
  have hperform : (c.perform call).2.lastErrors = c.lastErrors := by
    rw [perform_snd]
    split
    · split <;> rfl
    · unfold happen
      split <;> rfl
    · rfl
  rw [call_eq]
  unfold lastError
  cases hresult : (c.perform call).1 with
  | ok answer =>
    show ((c.perform call).2.lastErrors.erase thread).get? other = _
    rw [SortedMap.get?_erase, if_neg h, hperform]
  | error e =>
    show ((c.perform call).2.lastErrors.insert thread e).get? other = _
    rw [SortedMap.get?_insert, if_neg h, hperform]

/-! ## The law -/

/-- **A failing call changes nothing.**  Whatever a client has done before, a call that fails leaves
stores and handles as they were, and however the client and the workers of its stores go on, every
later call is answered as if the failed one had not been made.

The only exception is the commit of a write transaction on a closed store: it fails because the
store is closed, it ends the transaction without its changes, and it frees the writer. -/
theorem failing_call_changes_nothing (events : List ClientEvent) (thread : Thread)
    (call : ClientCall) (e : StoreError)
    (hfail : ((Client.new.after events).call thread call).1 = .error e) :
    let before := Client.new.after events
    let afterwards := (before.call thread call).2
    (¬ before.RefusedCommit call →
      before.Unchanged afterwards thread ∧
        ∀ later thread' call', ((afterwards.after later).call thread' call').1
          = ((before.after later).call thread' call').1) ∧
      (before.RefusedCommit call →
        e = .storeClosed ∧
          ∃ connection conn txn, call = .on (some connection) (.commit txn) ∧
            before.connections.get? connection = some conn ∧
            afterwards = Client.record
              { before with
                connections := before.connections.insert connection
                  { conn.endTxn txn with store := conn.store.releaseWriter } }
              thread (.error e)) := by
  intro before afterwards
  have hserial : before.Serial := Client.serial_new.after events
  have hperform : (before.perform call).1 = .error e := hfail
  have hafterwards : afterwards = (before.perform call).2.record thread (.error e) := by
    rw [← hperform]
    rfl
  refine ⟨fun hcommit => ?_, fun hcommit => ?_⟩
  · have hperformed : before.Alike (before.perform call).2 :=
      Client.alike_of_error hperform hcommit
    have halike : before.Alike afterwards := by
      rw [hafterwards]
      exact ⟨hperformed.nextConnection, hperformed.connections⟩
    -- only the connection of the call may differ, by an untouched copy among its changes
    refine ⟨⟨halike.nextConnection, fun h => ?_, fun other hother => ?_⟩, fun later => ?_⟩
    · rcases halike.cases h with ⟨hget, hget'⟩ | ⟨conn, conn', hget, hget', hconn⟩
      · rw [hget, hget']
        exact .none
      · rw [hget, hget']
        exact .some hconn.unchanged
    · exact before.lastError_call call hother
    · exact halike.answer_after hserial later
  · rcases Client.perform_of_error hperform with
      ⟨-, hnot⟩ | ⟨connection, conn, inner, rfl, hget, hcall, heq⟩
    · exact absurd hcommit hnot
    · obtain ⟨conn', hget', hrefused⟩ := hcommit
      rw [hget] at hget'
      cases hget'
      obtain ⟨txn, o, rfl, -, -, hclosed, hleft⟩ :=
        Connection.afterFailure_of_refusedCommit hrefused
      rw [hclosed] at hcall
      cases hcall
      rw [hleft] at heq
      rw [heq] at hafterwards
      exact ⟨rfl, connection, conn, txn, rfl, hget, hafterwards⟩

/-- An object is committed, and then a write transaction has a cursor on its type. -/
def secondWriterRun : List ClientEvent :=
  [.call 0 (.openStore none true), .call 0 (.on (some 0) (.register 1 (some [65]))),
    .call 0 (.on (some 0) (.begin false true)), .call 0 (.on (some 0) (.openCursor 0 1 true)),
    .call 0 (.on (some 0) (.put 1 7 (some [1, 2]) false)), .call 0 (.on (some 0) (.commit 0)),
    .call 0 (.on (some 0) (.begin false true)), .call 0 (.on (some 0) (.openCursor 2 1 true))]

/-- A put over the object is rejected and has copied its type.  The copy cannot be seen, and the
object is read again once the transaction is committed. -/
theorem failing_call_changes_nothing_rejectedPut :
    let before := Client.new.after secondWriterRun
    let rejected := before.call 0 (.on (some 0) (.put 3 7 (some [9]) false))
    rejected.1 = .error (.alreadyExists 7) ∧ rejected.2.connections ≠ before.connections ∧
      before.Unchanged rejected.2 0 ∧
        ((rejected.2.after [.call 1 (.on (some 0) (.commit 2)),
          .call 1 (.on (some 0) (.begin true true)),
          .call 1 (.on (some 0) (.openCursor 4 1 true))]).call 1
            (.on (some 0) (.get 5 7 true))).1 = .ok (.data [1, 2]) := by
  intro before rejected
  have hfail : rejected.1 = .error (.alreadyExists 7) := by decide +kernel
  have hcopied : rejected.2.connections ≠ before.connections := by decide +kernel
  have hcommit : ¬ before.RefusedCommit (.on (some 0) (.put 3 7 (some [9]) false)) := by
    rintro ⟨conn, -, hrefused⟩
    exact hrefused
  obtain ⟨hsame, hlater⟩ :=
    (failing_call_changes_nothing secondWriterRun 0 _ (.alreadyExists 7) hfail).1 hcommit
  refine ⟨hfail, hcopied, hsame, (hlater _ 1 _).trans ?_⟩
  decide +kernel

end ObjectStore
