import Mathlib
import ObjectStore.Proofs.Store.FailedCalls
import ObjectStore.Proofs.Store.IdSequence

/-!
# Last errors

A caller sees of a call how it ended: a status, or an ID that is zero where the call failed.  Why it
failed is asked for afterwards, as the last error of the thread.  The last error tells of the
thread's last call and of no other (`Client.Tells`), whatever that call was and wherever it gave up,
and it stays until the thread makes the next call.

Two facts are needed of what the calls do.  No call fails with the status of a success
(`Connection.fails_call?`), and no request for an ID is answered with zero
(`Connection.Numbered.id_ne_zero`).  Main statement: `Client.tells_of_last_call`.
-/

namespace ObjectStore

/-! ## Failures -/

/-- A step fails with the status of a failure, if it fails. -/
def Fails {α : Type} (x : Except StoreError α) : Prop := ∀ e, x = .error e → e.status ≠ .success

namespace Fails

variable {α β : Type} {x : Except StoreError α}

theorem of_ok (a : α) : Fails (.ok a) := nofun

theorem of_error {e : StoreError} (h : e.status ≠ .success) :
    Fails (.error e : Except StoreError α) := by
  rintro _ ⟨⟩
  exact h

/-- One step after the other. -/
theorem bind {f : α → Except StoreError β} (h : Fails x) (hrest : ∀ a, Fails (f a)) :
    Fails (x >>= f) := by
  cases x with
  | ok a => exact hrest a
  | error e =>
    rintro _ ⟨⟩
    exact h e rfl

/-- Either step, by a condition. -/
theorem ite {p : Prop} [Decidable p] {y : Except StoreError α} (hx : Fails x) (hy : Fails y) :
    Fails (if p then x else y) := by
  split
  · exact hx
  · exact hy

end Fails

namespace Store

variable (s : Store)

theorem fails_requireOpen : Fails s.requireOpen := .ite (.of_error nofun) (.of_ok ())

theorem fails_register (type : TypeId) (name : String) : Fails (s.register type name) := by
  refine (fails_requireOpen s).bind fun _ => ?_
  refine .ite (.of_error nofun) (.ite (.of_error nofun) ?_)
  split
  · exact .ite (.of_ok _) (.of_error nofun)
  · exact .of_ok _

theorem fails_findType (type : TypeId) : Fails (s.findType type) := by
  unfold findType
  split
  · exact .of_ok _
  · exact .of_error nofun

theorem fails_requireType (type : TypeId) : Fails (s.requireType type) :=
  (fails_requireOpen s).bind fun _ => (fails_findType s type).bind fun _ => .of_ok ()

theorem fails_issueId (type : TypeId) (candidate : ObjectId) : Fails (s.issueId type candidate) := by
  have hissue : ∀ t : EntityType, Fails (t.issue candidate) := fun t =>
    .ite (.ite (.of_ok _) (.of_error nofun)) (.ite (.of_error nofun) (.of_ok _))
  exact (fails_requireOpen s).bind fun _ => (fails_findType s type).bind fun t =>
    (hissue t).bind fun _ => .of_ok _

theorem fails_openWriter : Fails s.openWriter :=
  (fails_requireOpen s).bind fun _ => .ite (.of_error nofun) (.of_ok _)

theorem fails_checkPut (id : ObjectId) (data : Bytes) : Fails (checkPut id data) :=
  .ite (.of_error nofun) (.ite (.of_error nofun) (.of_ok ()))

theorem fails_enqueue (item : QueuedPut) : Fails (s.enqueue item) := by
  have hpush : Fails (s.queue.push item) :=
    .ite (.of_error nofun) (.ite (.of_error nofun) (.of_ok _))
  exact (fails_requireOpen s).bind fun _ => (fails_checkPut item.id item.data).bind fun _ =>
    hpush.bind fun _ => .of_ok _

end Store

/-- Whether a call asks for an ID. -/
def Call.asksForId : Call → Bool
  | .boxId _ _ => true
  | .cursorId _ _ => true
  | _ => false

namespace Connection

variable (conn : Connection)

theorem fails_given {α : Type} (a : Option α) : Fails (given a) := by
  cases a with
  | none => exact .of_error nofun
  | some a => exact .of_ok a

theorem fails_needPlace (place : Bool) : Fails (needPlace place) := .ite (.of_ok ()) (.of_error nofun)

theorem fails_ensureHandle : Fails conn.ensureHandle := .ite (.of_error nofun) (.of_ok ())

theorem fails_box (h : Handle) : Fails (conn.box h) := by
  unfold box
  split
  · exact .of_ok _
  · exact .of_error nofun

theorem fails_txn (h : Handle) : Fails (conn.txn h) := by
  unfold txn
  split
  · exact .of_ok _
  · exact .of_error nofun

theorem fails_cursor (h : Handle) : Fails (conn.cursor h) := by
  unfold cursor
  split
  · exact (fails_txn conn _).bind fun _ => .of_ok _
  · exact .of_error nofun

theorem fails_writer (h : Handle) : Fails (conn.writer h) := by
  refine (fails_cursor conn h).bind fun found => ?_
  split
  · exact .of_ok _
  · exact .of_error nofun

/-- **No call fails with the status of a success.** -/
theorem fails_call? (c : Call) : Fails (conn.call? c) := by
  cases c with
  | register type name =>
    have hname : ∀ bytes, Fails (entityName bytes) := by
      intro bytes
      unfold entityName
      split
      · exact .of_ok _
      · exact .of_error nofun
    exact (fails_ensureHandle conn).bind fun _ => (fails_given name).bind fun bytes =>
      (hname bytes).bind fun _ => (conn.store.fails_register type _).bind fun _ => .of_ok _
  | awaitIdle =>
    have hdrain : Fails conn.store.drain := (conn.store.fails_requireOpen).bind fun _ =>
      .ite (.of_ok _) (.of_error nofun)
    exact (fails_ensureHandle conn).bind fun _ => hdrain.bind fun _ => .of_ok _
  | close =>
    have hclose : Fails conn.store.close := (conn.store.fails_requireOpen).bind fun _ =>
      .ite (.of_ok _) (.of_error nofun)
    exact (fails_ensureHandle conn).bind fun _ => hclose.bind fun _ => .of_ok _
  | openBox type place =>
    exact (fails_needPlace place).bind fun _ => (fails_ensureHandle conn).bind fun _ =>
      (conn.store.fails_requireType type).bind fun _ => .of_ok _
  | closeBox h => exact (fails_box conn h).bind fun _ => .of_ok _
  | boxId h candidate =>
    exact (fails_box conn h).bind fun type => (conn.store.fails_issueId type candidate).bind
      fun _ => .of_ok _
  | putAsync h id data mayReplace =>
    exact (fails_box conn h).bind fun _ => (fails_given data).bind fun _ =>
      (conn.store.fails_enqueue _).bind fun _ => .of_ok _
  | begin readOnly place =>
    have hsnapshot : Fails conn.store.snapshot := (conn.store.fails_requireOpen).bind fun _ =>
      .of_ok _
    exact (fails_needPlace place).bind fun _ => (fails_ensureHandle conn).bind fun _ =>
      .ite (hsnapshot.bind fun _ => .of_ok _) (conn.store.fails_openWriter.bind fun _ => .of_ok _)
  | commit h =>
    refine (fails_txn conn h).bind fun mode => ?_
    cases mode with
    | read snapshot => exact .of_ok _
    | write changes =>
      have hcommit : Fails (conn.store.commit changes) :=
        (conn.store.fails_requireOpen).bind fun _ => .of_ok _
      exact hcommit.bind fun _ => .of_ok _
  | abort h =>
    refine (fails_txn conn h).bind fun mode => ?_
    cases mode with
    | read snapshot => exact .of_ok _
    | write changes => exact .of_ok _
  | openCursor txn type place =>
    exact (fails_needPlace place).bind fun _ => (fails_txn conn txn).bind fun _ =>
      (conn.store.fails_requireType type).bind fun _ => .of_ok _
  | closeCursor h => exact (fails_given _).bind fun _ => .of_ok _
  | cursorId h candidate =>
    exact (fails_cursor conn h).bind fun found =>
      (conn.store.fails_issueId found.1.type candidate).bind fun _ => .of_ok _
  | put h id data mayReplace =>
    have hput : ∀ (o : Overlay) type bytes, Fails (o.put type id bytes mayReplace) := by
      intro o type bytes
      refine (Store.fails_checkPut id bytes).bind fun _ => ?_
      exact .ite (.of_error nofun) (.of_ok _)
    exact (fails_given data).bind fun bytes => (fails_writer conn h).bind fun found =>
      (hput found.2 _ bytes).bind fun _ => .of_ok _
  | get h id place =>
    refine (fails_cursor conn h).bind fun ⟨cursor, mode⟩ => ?_
    dsimp only
    cases (mode.payloads cursor.type).get? id with
    | none => exact .of_error nofun
    | some payload => exact (fails_needPlace place).bind fun _ => .of_ok _
  | getAll h place =>
    exact (fails_cursor conn h).bind fun _ => (fails_needPlace place).bind fun _ => .of_ok _
  | contains h id place =>
    exact (fails_cursor conn h).bind fun _ => (fails_needPlace place).bind fun _ => .of_ok _
  | count h place =>
    exact (fails_cursor conn h).bind fun _ => (fails_needPlace place).bind fun _ => .of_ok _
  | remove h id =>
    have hremove : ∀ (o : Overlay) type, Fails (o.remove type id) := fun o type =>
      .ite (.of_ok _) (.of_error nofun)
    exact (fails_writer conn h).bind fun found => (hremove found.2 _).bind fun _ => .of_ok _
  | removeAll h place => exact (fails_writer conn h).bind fun _ => .of_ok _

/-- **No ID is zero** that a request is answered with. -/
theorem Numbered.id_ne_zero {conn conn' : Connection} {log : List (TypeId × ObjectId)}
    (h : conn.Numbered log) {c : Call} {id : ObjectId} (hcall : conn.call? c = .ok (.id id, conn')) :
    id ≠ 0 := by
  generalize hanswer : Answer.id id = answer at hcall
  cases effect_of_call hcall with
  | boxId _ hissue =>
    cases hanswer
    exact (Store.issueId_spec (h.bound _) hissue).2.2.2.1
  | cursorId _ _ hissue =>
    cases hanswer
    exact (Store.issueId_spec (h.bound _) hissue).2.2.2.1
  | removeAll _ _ => split at hanswer <;> cases hanswer
  | _ => cases hanswer

/-- A request for an ID is answered with one. -/
theorem exists_id_of_request {conn conn' : Connection} {c : Call} {answer : Answer}
    (hc : c.asksForId = true) (hcall : conn.call? c = .ok (answer, conn')) :
    ∃ id, answer = .id id := by
  cases effect_of_call hcall with
  | boxId _ _ => exact ⟨_, rfl⟩
  | cursorId _ _ _ => exact ⟨_, rfl⟩
  | _ => cases hc

end Connection

/-! ## What a caller sees -/

/-- The status of a call that ended so. -/
def statusOf : Except StoreError Answer → Status
  | .ok _ => .success
  | .error e => e.status

/-- The ID that a call gives back which ended so, zero if it failed. -/
def idOf : Except StoreError Answer → ObjectId
  | .ok (.id id) => id
  | _ => 0

/-- The cause of a failure. -/
def causeOf : Except StoreError Answer → Option StoreError
  | .ok _ => none
  | .error e => some e

/-- Whether a call gives an ID back, instead of a status. -/
def ClientCall.asksForId : ClientCall → Bool
  | .on _ call => call.asksForId
  | .openStore _ _ => false

namespace Client

variable {c c' : Client} {thread other : Thread}

/-- The last error of a thread tells of a call that ended so: it is absent if the call succeeded, and
otherwise it has the status and the message of the call's failure. -/
structure Tells (c : Client) (thread : Thread) (call : ClientCall)
    (result : Except StoreError Answer) : Prop where
  absent : c.lastError thread = none ↔ statusOf result = .success
  /-- A call that gives back an ID gives back zero if it failed, and only then. -/
  absent_id : call.asksForId = true → (c.lastError thread = none ↔ idOf result ≠ 0)
  failure : ∀ e, result = .error e →
    statusOf result = e.status ∧ c.lastErrorCode thread = e.status.code ∧
      c.lastErrorMessage thread = some e.message

/-- Only the last error of the thread counts. -/
theorem Tells.congr {call : ClientCall} {result : Except StoreError Answer}
    (h : c.Tells thread call result) (hsame : c'.lastError thread = c.lastError thread) :
    c'.Tells thread call result := by
  refine ⟨?_, ?_, ?_⟩
  · rw [hsame]
    exact h.absent
  · rw [hsame]
    exact h.absent_id
  · intro e he
    unfold lastErrorCode lastErrorMessage
    rw [hsame]
    exact h.failure e he

/-! ## Connections in a run -/

/-- What holds of new connections and is kept by every event holds of the connections of a client
at all times. -/
theorem connections_after {P : Connection → Prop} (hnew : ∀ options, P (.new options))
    (hstep : ∀ conn event, P conn → P (conn.step event)) (events : List ClientEvent) {h : Handle}
    {conn : Connection} (hget : (Client.new.after events).connections.get? h = some conn) :
    P conn := by
  -- by induction on the run, for any client whose connections have the property
  suffices hrun : ∀ (events : List ClientEvent) (c : Client),
      (∀ h conn, c.connections.get? h = some conn → P conn) →
      ∀ h conn, (c.after events).connections.get? h = some conn → P conn from
    hrun events .new nofun h conn hget
  have hinsert : ∀ (m : SortedMap Handle Connection) (k : Handle) (new : Connection),
      (∀ h conn, m.get? h = some conn → P conn) → P new →
      ∀ h conn, (m.insert k new).get? h = some conn → P conn := by
    intro m k new hm hconn h conn hget
    rw [SortedMap.get?_insert] at hget
    split at hget
    · cases hget
      exact hconn
    · exact hm h conn hget
  have hhappen : ∀ (c : Client) (k : Handle) (event : Event),
      (∀ h conn, c.connections.get? h = some conn → P conn) →
      ∀ h conn, (c.happen k event).connections.get? h = some conn → P conn := by
    intro c k event hc
    unfold happen
    cases hk : c.connections.get? k with
    | none => exact hc
    | some conn => exact hinsert _ k _ hc (hstep conn event (hc k conn hk))
  intro events
  induction events with
  | nil => exact fun c hc => hc
  | cons event events ih =>
    intro c hc
    apply ih
    cases event with
    | call thread call =>
      -- a call is an event on a connection, or opens one
      have hperform : ∀ h conn, (c.perform call).2.connections.get? h = some conn → P conn := by
        rw [perform_snd]
        split
        · split
          · exact hinsert _ _ _ hc (hnew _)
          · exact hc
        · exact hhappen c _ _ hc
        · exact hc
      rw [step, call_eq]
      cases (c.perform call).1 with
      | ok answer => exact hperform
      | error e => exact hperform
    | worker connection => exact hhappen c connection .worker hc
    | closing connection => exact hhappen c connection .closing hc

/-- The connections of a client have counted which IDs they gave out. -/
theorem numbered_after (events : List ClientEvent) {h : Handle} {conn : Connection}
    (hget : (Client.new.after events).connections.get? h = some conn) :
    ∃ log, conn.Numbered log := by
  refine connections_after (P := fun conn => ∃ log, conn.Numbered log) ?_ ?_ events hget
  · exact fun options => ⟨[], .new options⟩
  · rintro conn event ⟨log, hconn⟩
    exact ⟨_, hconn.step event⟩

/-! ## Calls -/

/-- No call of a client fails with the status of a success. -/
theorem fails_perform (c : Client) (call : ClientCall) : Fails (c.perform call).1 := by
  cases call with
  | openStore options place =>
    cases place with
    | true => exact .of_ok _
    | false => exact .of_error nofun
  | on connection inner =>
    have hmissing : inner.missingHandle.status ≠ .success := by cases inner <;> exact nofun
    cases connection with
    | none => exact .of_error hmissing
    | some connection =>
      unfold perform
      cases hget : c.connections.get? connection with
      | none => simpa only [hget] using Fails.of_error hmissing
      | some conn =>
        have hcall : Fails (conn.call inner).1 := by
          intro e he
          apply conn.fails_call? inner e
          unfold Connection.call at he
          split at he
          · cases he
          · rename_i hfailed
            cases he
            exact hfailed
        simpa only [hget] using hcall

/-- A request for an ID that succeeds is answered with an ID other than zero. -/
theorem exists_id_of_perform {c : Client} {events : List ClientEvent}
    (hc : c.connections = (Client.new.after events).connections) {call : ClientCall}
    {answer : Answer} (hcall : call.asksForId = true) (hanswer : (c.perform call).1 = .ok answer) :
    ∃ id, answer = .id id ∧ id ≠ 0 := by
  cases call with
  | openStore options place => cases hcall
  | on connection inner =>
    cases connection with
    | none => cases hanswer
    | some connection =>
      unfold perform at hanswer
      cases hget : c.connections.get? connection with
      | none =>
        simp only [hget] at hanswer
        cases hanswer
      | some conn =>
        simp only [hget] at hanswer
        obtain ⟨log, hconn⟩ := numbered_after events (hc ▸ hget)
        unfold Connection.call at hanswer
        split at hanswer
        · rename_i conn' hinner
          cases hanswer
          obtain ⟨id, rfl⟩ := Connection.exists_id_of_request hcall hinner
          exact ⟨id, rfl, hconn.id_ne_zero hinner⟩
        · cases hanswer

/-- After a call the last error of its thread is the cause of its failure, or absent. -/
theorem lastError_call_self (c : Client) (thread : Thread) (call : ClientCall) :
    (c.call thread call).2.lastError thread = causeOf (c.call thread call).1 := by
  rw [call_eq]
  cases (c.perform call).1 with
  | ok answer =>
    show ((c.perform call).2.lastErrors.erase thread).get? thread = none
    rw [SortedMap.get?_erase, if_pos rfl]
  | error e =>
    show ((c.perform call).2.lastErrors.insert thread e).get? thread = some e
    rw [SortedMap.get?_insert, if_pos rfl]

/-- **After every call in a run** the last error tells of that call, whatever last errors were left
before. -/
theorem tells_call (events : List ClientEvent) (left : SortedMap Thread StoreError)
    (thread : Thread) (call : ClientCall) :
    ({ Client.new.after events with lastErrors := left }.call thread call).2.Tells thread call
      ({ Client.new.after events with lastErrors := left }.call thread call).1 := by
  generalize hc : { Client.new.after events with lastErrors := left } = c
  have hself := c.lastError_call_self thread call
  have hfails : Fails (c.call thread call).1 := c.fails_perform call
  have hid : call.asksForId = true → ∀ answer, (c.call thread call).1 = .ok answer →
      ∃ id, answer = .id id ∧ id ≠ 0 := by
    have hconnections : c.connections = (Client.new.after events).connections := by rw [← hc]
    exact fun hcall answer => exists_id_of_perform hconnections hcall
  generalize (c.call thread call).1 = result at hself hfails hid ⊢
  cases result with
  | ok answer =>
    refine ⟨?_, fun hcall => ?_, nofun⟩
    · rw [hself]
      exact ⟨fun _ => rfl, fun _ => rfl⟩
    · obtain ⟨id, rfl, hne⟩ := hid hcall answer rfl
      rw [hself]
      exact ⟨fun _ => hne, fun _ => rfl⟩
  | error e =>
    have he : e.status ≠ .success := hfails e rfl
    refine ⟨?_, fun _ => ?_, ?_⟩
    · rw [hself]
      exact ⟨nofun, fun h => absurd h he⟩
    · rw [hself]
      exact ⟨nofun, fun h => absurd rfl h⟩
    · rintro _ ⟨⟩
      unfold lastErrorCode lastErrorMessage
      rw [hself]
      exact ⟨rfl, rfl, rfl⟩

end Client

/-! ## Between the calls of a thread -/

/-- Whether an event is a call of a thread. -/
def ClientEvent.isBy (thread : Thread) : ClientEvent → Bool
  | .call other _ => other == thread
  | _ => false

namespace Client

/-- What others do leaves the last error of a thread alone. -/
theorem lastError_step (c : Client) {thread : Thread} {event : ClientEvent}
    (h : event.isBy thread = false) : (c.step event).lastError thread = c.lastError thread := by
  have hhappen : ∀ k e, (c.happen k e).lastError thread = c.lastError thread := by
    intro k e
    unfold happen
    split <;> rfl
  cases event with
  | call other call =>
    have hne : thread ≠ other := by
      rintro rfl
      rw [ClientEvent.isBy, beq_self_eq_true] at h
      cases h
    exact c.lastError_call call hne
  | worker connection => exact hhappen connection .worker
  | closing connection => exact hhappen connection .closing

/-- By induction on what the others do. -/
theorem lastError_after (c : Client) {thread : Thread} {events : List ClientEvent}
    (h : ∀ event ∈ events, event.isBy thread = false) :
    (c.after events).lastError thread = c.lastError thread := by
  induction events generalizing c with
  | nil => rfl
  | cons event events ih =>
    have hrest : ∀ other ∈ events, other.isBy thread = false := fun other hother =>
      h other (List.mem_cons_of_mem _ hother)
    show ((c.step event).after events).lastError thread = _
    rw [ih (c.step event) hrest, lastError_step c (h event List.mem_cons_self)]

/-- **The last error of a thread tells of its last call**, in every run, until it makes the next one,
whatever last errors were left before. -/
theorem tells_of_last_call (events later : List ClientEvent) (left : SortedMap Thread StoreError)
    (thread : Thread) (call : ClientCall) (hlater : ∀ event ∈ later, event.isBy thread = false) :
    ({ Client.new.after events with lastErrors := left }.call thread call).2.after later
      |>.Tells thread call
        ({ Client.new.after events with lastErrors := left }.call thread call).1 :=
  (tells_call events left thread call).congr (lastError_after _ hlater)

end Client

end ObjectStore
