import Mathlib
import ObjectStore.Proofs.Database.AgentOpening
import ObjectStore.Proofs.Database.AgentRefinement
import ObjectStore.Proofs.Database.FailedBoxCalls

/-!
# Reported errors

How a call ended is told twice: by the last error of the thread, which each call writes anew, and by
the error of the operation that the call was a part of.  Both tell of the call that failed
(`errors_are_those_of_failed_calls`), although the operation makes further calls before its error
comes out, and these wipe the last error out.

The operations in question are those of agents.  That a database does the same is `Database.Shown`:
an agent that is alone ends every one of them as the database does that it shows.
-/

namespace ObjectStore

/-! ## Operations of agents and databases -/

/-- Operations over a connection, with a binding for agents, end as the operations of databases do,
with a binding for these. -/
structure Database.Shown {σ τ α : Type} {thread : Thread} (ab : AgentBinding τ thread α)
    (b : Binding σ α) : Prop where
  /-- A database is opened, or fails to with the same error. -/
  build : ∀ (a : Agent τ thread) (plan : DatabasePlan), a.Regular → a.elsewhere = [] →
    match Database.ofPlan plan with
    | .ok db => ∃ a' conn, Errand.build plan a = .ok () a' ∧ a'.Shows conn db
    | .error e => ∃ a', Errand.build plan a = .error e a'
  boxOf : Errand.Follows .any (Errand.boxOf ab) (Database.boxOf b)
    (fun r s _ _ => r = ⟨ab, s.number⟩ ∧ s.binding = b) .any
  call : ∀ (n : BoxNumber) (c : BoxCall α), Errand.Follows (fun _ db => db.Serves n b.type)
    (c.carryOut ⟨ab, n⟩) (c.run ⟨b, n⟩) (fun r s _ _ => r = s) .any
  awaitPuts : (Errand.awaitPuts : Errand τ thread Unit).EndsAs
    (Database.awaitPuts : Operation σ Unit)
  /-- Unless closing would wait for ever. -/
  closeAll : Errand.Follows (fun _ db => db.store.close ≠ .error .wouldWait)
    (Errand.closeAll : Errand τ thread Unit) (Database.closeAll : Operation σ Unit)
    (fun r s _ _ => r = s) .any

namespace Errand

variable {σ τ α : Type} {thread : Thread} {ab : AgentBinding τ thread α} {b : Binding σ α}

theorem endsAs_perform (hb : ab.Mirrors b) (n : BoxNumber) (op : BoxOp α) :
    (op.carryOut ⟨ab, n⟩).EndsAs (op.perform ⟨b, n⟩) := by
  cases op with
  | put object => exact (endsAs_put hb n object).bind fun _ => .of_pure _
  | putAll objects => exact (endsAs_putAll hb n objects).bind fun _ => .of_pure _
  | get id => exact (endsAs_get hb n id).bind fun _ => .of_pure _
  | getAll => exact (endsAs_getAll hb n).bind fun _ => .of_pure _
  | contains id => exact (endsAs_contains hb n id).bind fun _ => .of_pure _
  | count => exact (endsAs_count hb n).bind fun _ => .of_pure _
  | remove id => exact (endsAs_remove hb n id).bind fun _ => .of_pure _
  | removeAll => exact (endsAs_removeAll hb n).bind fun _ => .of_pure _

/-- **A call on a box** ends as on the database. -/
theorem follows_carryOut (hb : ab.Mirrors b) (n : BoxNumber) (c : BoxCall α) :
    Follows (fun _ db => db.Serves n b.type) (c.carryOut ⟨ab, n⟩) (c.run ⟨b, n⟩)
      (fun r s _ _ => r = s) .any := by
  cases c with
  | perform op => exact (endsAs_perform hb n op).strengthen fun _ _ _ => trivial
  | putAsync object =>
    refine (follows_putAsync hb n object).bind fun r s a conn ctx hshows hsame => ?_
    obtain rfl : r = s := hsame
    exact .ok hshows rfl
  | close =>
    have hclose : (BoxCall.carryOut ⟨ab, n⟩ .close).EndsAs (BoxCall.run ⟨b, n⟩ .close) := by
      unfold BoxCall.carryOut BoxCall.run
      dsimp only
      rw [hb.type]
      exact (endsAs_close b n).bind fun _ => .of_pure _
    exact hclose.strengthen fun _ _ _ => trivial

end Errand

/-- **A database is shown** with any binding that does the same on both sides. -/
theorem AgentBinding.Mirrors.shown {σ τ α : Type} {thread : Thread} {ab : AgentBinding τ thread α}
    {b : Binding σ α} (hb : ab.Mirrors b) : Database.Shown ab b where
  build _ plan hregular hquiet := Errand.build_of_quiet hregular hquiet plan
  boxOf := Errand.follows_boxOf hb.type
  call := Errand.follows_carryOut hb
  awaitPuts := Errand.endsAs_awaitPuts
  closeAll := Errand.follows_closeAll

/-! ## Errors -/

/-- Four statuses have an error of their own, the others keep their number. -/
theorem BoxError.ofStore_eq (cause : StoreError) :
    BoxError.ofStore cause = match cause.status with
      | .notFound => .notFound cause.message
      | .illegalArgument => .invalidArgument cause.message
      | .asyncQueueFull => .backpressure cause.message
      | .closed => .closed cause.message
      | status => .store status.code cause.message := by
  unfold ofStore ofStatus
  cases cause.status <;> rfl

/-- **Errors are those of the calls that failed.**  In every run and whatever was left before, the
last error of a thread tells of the thread's last call until it makes the next one, and no other
thread changes it.  Every operation of an agent over a connection fails with the error for the
status and the message of that call of its own that it could not go on after, whatever other threads
do in between and whatever it still cleans up; and it succeeds only if there was no such call.  An
agent that is alone ends every operation as a database does. -/
theorem errors_are_those_of_failed_calls (thread : Thread) :
    (∀ (events later : List ClientEvent) (left : SortedMap Thread StoreError) (c : Client)
      (call : ClientCall), c = { Client.new.after events with lastErrors := left } →
      (∀ event ∈ later, event.isBy thread = false) →
      ((c.call thread call).2.after later).Tells thread call (c.call thread call).1) ∧
    (∀ (c : Client) (other : Thread) (call : ClientCall), other ≠ thread →
      (c.call thread call).2.lastError other = c.lastError other) ∧
    (∀ cause : StoreError, BoxError.ofStore cause = match cause.status with
      | .notFound => .notFound cause.message
      | .illegalArgument => .invalidArgument cause.message
      | .asyncQueueFull => .backpressure cause.message
      | .closed => .closed cause.message
      | status => .store status.code cause.message) ∧
    (∀ {τ α : Type} (x : Errand τ thread α), x.IsOperation → x.Honest) ∧
    (∀ {σ τ α : Type} (ab : AgentBinding τ thread α) (b : Binding σ α), ab.Mirrors b →
      Database.Shown ab b) := by
  refine ⟨?_, ?_, BoxError.ofStore_eq, ?_, ?_⟩
  · rintro events later left c call rfl hlater
    exact Client.tells_of_last_call events later left thread call hlater
  · intro c other call hother
    exact c.lastError_call call hother
  · intro τ α x hx
    exact hx.honest
  · intro σ τ α ab b hb
    exact hb.shown

/-- An agent that has done nothing yet. -/
def Agent.new {σ : Type} (thread : Thread) (user : σ) : Agent σ thread :=
  ⟨.new, 0, false, [], ∅, [], [], user⟩

/-- Notes, for agents. -/
def Note.agentBinding {τ : Type} {thread : Thread} : AgentBinding τ thread Note :=
  (Note.binding : Binding Unit Note).alone

/-- A note that is not there is removed.  The error says so, although the last error is gone by
then.  A box of an unknown type is opened, which another thread does not notice and cannot hide. -/
theorem errors_are_those_of_failed_calls_missingNote :
    (∃ b a a', (do
        Errand.build { entities := [⟨4, "Note"⟩] }
        Errand.boxOf Note.agentBinding : Errand Unit 0 (AgentBox Unit 0 Note)) (.new 0 ())
          = .ok b a ∧
      (BoxCall.perform (.remove 9)).carryOut b a
        = .error (.notFound "object 9 of type 4 not found") a' ∧
      a'.client.lastError 0 = none ∧
      a.Accounts a' (some (.notFound "object 9 of type 4 not found"))) ∧
    Database.Shown (Note.agentBinding : AgentBinding Unit 0 Note)
      (Note.binding : Binding Unit Note) ∧
    (let c := Client.new.after [.call 0 (.openStore none true)]
      let call := ClientCall.on (some 0) (.openBox 7 true)
      (c.call 0 call).2.lastError 1 = c.lastError 1 ∧
      ((c.call 0 call).2.after [.call 1 (.on none .close)]).lastErrorCode 0
        = Status.illegalArgument.code) := by
  obtain ⟨htells, hothers, -, hhonest, hshown⟩ := errors_are_those_of_failed_calls 0
  refine ⟨?_, ?_, ?_, ?_⟩
  · generalize hopening : (do
      Errand.build { entities := [⟨4, "Note"⟩] }
      Errand.boxOf Note.agentBinding : Errand Unit 0 (AgentBox Unit 0 Note)) = opening
    have hopened : opening.Honest := by
      rw [← hopening]
      exact (hhonest _ (.build _)).bind fun _ => hhonest _ (.boxOf _)
    have hrun : (match opening (.new 0 ()) with
        | .ok b a =>
          match (BoxCall.perform (.remove 9)).carryOut b a with
          | .error e a' =>
            e == .notFound "object 9 of type 4 not found" && a'.client.lastError 0 == none
          | .ok _ _ => false
        | .error _ _ => false) = true := by
      rw [← hopening]
      decide +kernel
    have haccounts := hopened (.new 0 ()) ⟨[], rfl⟩
    cases hopen : opening (.new 0 ()) with
    | error e a => simp [hopen] at hrun
    | ok b a =>
      rw [hopen] at hrun haccounts
      have hremoved := hhonest _ (.call b (.perform (.remove 9))) a haccounts.regular
      dsimp only at hrun
      cases hremove : (BoxCall.perform (.remove 9)).carryOut b a with
      | ok answer a' => simp [hremove] at hrun
      | error e a' =>
        rw [hremove] at hrun hremoved
        simp only [Bool.and_eq_true, beq_iff_eq] at hrun
        obtain ⟨rfl, hgone⟩ := hrun
        exact ⟨b, a, a', rfl, hremove, hgone, hremoved⟩
  · exact hshown _ _ (Binding.mirrors_alone fun n id => n.quiet_assemble id)
  · exact hothers _ 1 _ (by decide)
  · have htold := htells [.call 0 (.openStore none true)] [.call 1 (.on none .close)] ∅
      (Client.new.after [.call 0 (.openStore none true)]) (.on (some 0) (.openBox 7 true)) rfl
      (by decide)
    exact (htold.failure (.unknownType 7) rfl).2.1

end ObjectStore
