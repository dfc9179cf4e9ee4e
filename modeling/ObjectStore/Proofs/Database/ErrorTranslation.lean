import Mathlib
import ObjectStore.Proofs.Database.Agent

/-!
# From failing calls to errors

An agent learns why a call failed only by asking for the last error of its thread, and after that it
still makes calls: it closes its cursor, aborts its transaction, or closes a store that it could not
set up.  Each of these calls succeeds as a rule, and so wipes out the last error.  The error that
comes out in the end is nevertheless that of the call that failed (`Errand.Honest`): the agent asks
before it cleans up, and does not ask again.

That a piece of work is honest goes through sequences (`Errand.Honest.bind`) and through cleanups that
do no harm (`Errand.Harmless`); what has to be shown for every call is only that the last error is
still there when it is asked for (`Errand.lastError_eq`), whatever the other threads do in between.
Main statement: `Errand.IsOperation.honest`.
-/

namespace ObjectStore

/-! ## Agents in a run -/

theorem Status.code_ne_zero {s : Status} (h : s ≠ .success) : s.code ≠ 0 := by
  cases s with
  | success => exact absurd rfl h
  | _ => decide

theorem Client.after_append (c : Client) (events later : List ClientEvent) :
    c.after (events ++ later) = (c.after events).after later := List.foldl_append

namespace Agent

variable {σ : Type} {thread : Thread} {a a' a'' : Agent σ thread}

/-- The client of the agent is in the middle of a run. -/
def Regular (a : Agent σ thread) : Prop := ∃ events, a.client = Client.new.after events

theorem Regular.after (h : a.Regular) {events : List ClientEvent}
    (hclient : a'.client = a.client.after events) : a'.Regular := by
  obtain ⟨before, hbefore⟩ := h
  refine ⟨before ++ events, ?_⟩
  rw [hclient, hbefore, Client.after_append]

theorem Regular.of_client (h : a.Regular) (hclient : a'.client = a.client) : a'.Regular := by
  obtain ⟨events, hevents⟩ := h
  exact ⟨events, hclient.trans hevents⟩

/-- Between two moments of an agent, every failure that mattered was the cause of `error`. -/
structure Accounts (a a' : Agent σ thread) (error : Option BoxError) : Prop where
  regular : a'.Regular
  made : ∃ ms, a'.made = a.made ++ ms ∧
    ∀ m ∈ ms, ∀ cause, m.failure? = some cause → error = some (.ofStore cause)

namespace Accounts

variable {error : Option BoxError}

/-- No call was made. -/
theorem none_made (h : a'.Regular) (hmade : a'.made = a.made) : Accounts a a' error :=
  ⟨h, [], by rw [hmade, List.append_nil], fun _ hm => absurd hm List.not_mem_nil⟩

/-- One call was made. -/
theorem one_made (h : a'.Regular) {m : MadeCall} (hmade : a'.made = a.made ++ [m])
    (hm : ∀ cause, m.failure? = some cause → error = some (.ofStore cause)) :
    Accounts a a' error := by
  refine ⟨h, [m], hmade, ?_⟩
  intro other hother
  obtain rfl := List.mem_singleton.1 hother
  exact hm

/-- Where nothing that mattered failed, nothing has to be accounted for. -/
theorem weaken (h : Accounts a a' none) : Accounts a a' error := by
  obtain ⟨ms, hmade, hms⟩ := h.made
  refine ⟨h.regular, ms, hmade, fun m hm cause hcause => ?_⟩
  cases hms m hm cause hcause

theorem trans (h : Accounts a a' error) (h' : Accounts a' a'' error) : Accounts a a'' error := by
  obtain ⟨ms, hmade, hms⟩ := h.made
  obtain ⟨ms', hmade', hms'⟩ := h'.made
  refine ⟨h'.regular, ms ++ ms', ?_, ?_⟩
  · rw [hmade', hmade, List.append_assoc]
  · intro m hm
    rcases List.mem_append.1 hm with hm | hm
    · exact hms m hm
    · exact hms' m hm

end Accounts

/-! ### What happens elsewhere -/

/-- What happens elsewhere is no call of the thread, and not noted. -/
theorem letHappen_spec (a : Agent σ thread) :
    (∃ events, a.letHappen.client = a.client.after events) ∧ a.letHappen.made = a.made ∧
      a.letHappen.client.lastError thread = a.client.lastError thread := by
  unfold letHappen
  cases a.elsewhere with
  | nil => exact ⟨⟨[], rfl⟩, rfl, rfl⟩
  | cons events rest =>
    refine ⟨⟨_, rfl⟩, rfl, Client.lastError_after _ ?_⟩
    intro event hevent
    obtain ⟨e, -, rfl⟩ := List.mem_map.1 hevent
    exact e.2

theorem Regular.letHappen (h : a.Regular) : a.letHappen.Regular := by
  obtain ⟨⟨events, hclient⟩, -, -⟩ := a.letHappen_spec
  exact h.after hclient

theorem made_letHappen_letHappen (a : Agent σ thread) : a.letHappen.letHappen.made = a.made :=
  a.letHappen.letHappen_spec.2.1.trans a.letHappen_spec.2.1

end Agent

namespace Errand

variable {σ α β : Type} {thread : Thread} {a a' a'' : Agent σ thread}

/-! ## Runs -/

theorem bind_of_ok {x : Errand σ thread α} {f : α → Errand σ thread β} {r : α}
    (h : x a = .ok r a') : (x >>= f) a = f r a' := by
  show EStateM.bind x f a = f r a'
  rw [EStateM.bind, h]

theorem bind_of_error {x : Errand σ thread α} {f : α → Errand σ thread β} {e : BoxError}
    (h : x a = .error e a') : (x >>= f) a = .error e a' := by
  show EStateM.bind x f a = .error e a'
  rw [EStateM.bind, h]

/-- Work that succeeds, and its cleanup. -/
theorem andAlways_of_ok {x : Errand σ thread α} {cleanup : Errand σ thread Unit} {r : α}
    (h : x a = .ok r a') (hcleanup : cleanup a' = .ok () a'') :
    andAlways x cleanup a = .ok r a'' := by
  unfold andAlways
  rw [h]
  exact bind_of_ok hcleanup

/-- Work that fails, and its cleanup. -/
theorem andAlways_of_error {x : Errand σ thread α} {cleanup : Errand σ thread Unit} {e : BoxError}
    (h : x a = .error e a') (hcleanup : cleanup a' = .ok () a'') :
    andAlways x cleanup a = .error e a'' := by
  unfold andAlways
  rw [h]
  exact bind_of_ok hcleanup

theorem onFailure_of_ok {x : Errand σ thread α} {r : α} (h : x a = .ok r a')
    (cleanup : Errand σ thread Unit) : onFailure x cleanup a = .ok r a' := by
  unfold onFailure
  rw [h]

theorem onFailure_of_error {x : Errand σ thread α} {cleanup : Errand σ thread Unit} {e : BoxError}
    (h : x a = .error e a') (hcleanup : cleanup a' = .ok () a'') :
    onFailure x cleanup a = .error e a'' := by
  unfold onFailure
  rw [h]
  exact bind_of_ok hcleanup

/-! ## Calls -/

/-- What is known after a call that ended with `result`: this is noted, and the last error of the
thread tells of it. -/
structure Ended (a a' : Agent σ thread) (matters : Bool) (c : ClientCall)
    (result : Except StoreError Answer) : Prop where
  regular : a'.Regular
  made : a'.made = a.made ++ [⟨c, result, matters⟩]
  lastError : a'.client.lastError thread = causeOf result
  fails : Fails result
  id : c.asksForId = true → ∀ answer, result = .ok answer → ∃ id, answer = .id id ∧ id ≠ 0

theorem invoke_eq (h : a.Regular) (matters : Bool) (c : ClientCall) :
    ∃ result a', invoke matters c a = .ok (.of result) a' ∧ Ended a a' matters c result := by
  obtain ⟨-, hmade, -⟩ := a.letHappen_spec
  obtain ⟨events, hclient⟩ := h.letHappen
  refine ⟨_, _, rfl, ?_, ?_, ?_, ?_, ?_⟩
  · exact ⟨events ++ [.call thread c], by rw [Client.after_append, ← hclient]; rfl⟩
  · exact congrArg (· ++ _) hmade
  · exact a.letHappen.client.lastError_call_self thread c
  · exact a.letHappen.client.fails_perform c
  · intro hc answer hanswer
    exact Client.exists_id_of_perform (congrArg Client.connections hclient) hc hanswer

/-- **The last error is still there when it is asked for**, whatever happens in between. -/
theorem lastError_eq {cause : StoreError} (hcause : cause.status ≠ .success)
    (hlast : a.client.lastError thread = some cause) (status : Status) :
    lastError status a = .ok (.ofStore cause) a.letHappen.letHappen := by
  obtain ⟨-, -, hkept⟩ := a.letHappen_spec
  obtain ⟨-, -, hkept'⟩ := a.letHappen.letHappen_spec
  have hcode : a.letHappen.client.lastErrorCode thread = cause.status.code := by
    unfold Client.lastErrorCode
    rw [hkept, hlast]
  have hmessage : a.letHappen.letHappen.client.lastErrorMessage thread = some cause.message := by
    unfold Client.lastErrorMessage
    rw [hkept', hkept, hlast]
    rfl
  have hzero : cause.status.code ≠ 0 := Status.code_ne_zero hcause
  show EStateM.Result.ok (BoxError.ofStatus (if a.letHappen.client.lastErrorCode thread = 0
    then status.code else a.letHappen.client.lastErrorCode thread)
      ((a.letHappen.letHappen.client.lastErrorMessage thread).getD _)) _ = _
  rw [hcode, hmessage, if_neg hzero]
  rfl

/-- A call that succeeded is passed. -/
theorem check_of_ok (answer : Answer) : check (statusOf (.ok answer)) a = .ok () a := rfl

/-- A call that failed is not, and the error is that of its failure. -/
theorem check_of_error {cause : StoreError} (hcause : cause.status ≠ .success)
    (hlast : a.client.lastError thread = some cause) :
    check (statusOf (.error cause)) a = .error (.ofStore cause) a.letHappen.letHappen := by
  have hfailed : cause.status.isOk = false := beq_eq_false_iff_ne.2 hcause
  unfold check
  rw [statusOf, hfailed, if_neg Bool.false_ne_true, bind_of_ok (lastError_eq hcause hlast _)]
  rfl

/-! ## Honest work -/

/-- Work of an agent is honest if every call that mattered has succeeded when the work succeeds, and
its failure is the cause of the error when the work fails. -/
def Honest (x : Errand σ thread α) : Prop :=
  ∀ a : Agent σ thread, a.Regular →
    match x a with
    | .ok _ a' => a.Accounts a' none
    | .error e a' => a.Accounts a' (some e)

/-- Work that succeeds, and in which nothing fails that mattered. -/
def Harmless (x : Errand σ thread Unit) : Prop :=
  ∀ a : Agent σ thread, a.Regular → ∃ a', x a = .ok () a' ∧ a.Accounts a' none

/-- Work without calls. -/
def Calm (x : Errand σ thread α) : Prop :=
  ∀ a : Agent σ thread, a.Regular →
    match x a with
    | .ok _ a' => a'.Regular ∧ a'.made = a.made
    | .error _ a' => a'.Regular ∧ a'.made = a.made

theorem Calm.honest {x : Errand σ thread α} (h : Calm x) : Honest x := by
  intro a ha
  have hx := h a ha
  cases hrun : x a with
  | ok r a' =>
    rw [hrun] at hx
    exact .none_made hx.1 hx.2
  | error e a' =>
    rw [hrun] at hx
    exact .none_made hx.1 hx.2

theorem calm_pure (r : α) : Calm (pure r : Errand σ thread α) := fun _ ha => ⟨ha, rfl⟩

theorem calm_lift (r : Except BoxError α) : Calm (lift r : Errand σ thread α) := by
  intro a ha
  cases r with
  | ok r => exact ⟨ha, rfl⟩
  | error e => exact ⟨ha, rfl⟩

theorem calm_throw (e : BoxError) : Calm (throw e : Errand σ thread α) := fun _ ha => ⟨ha, rfl⟩

namespace Honest

/-- One piece of work after the other. -/
theorem bind {x : Errand σ thread α} {f : α → Errand σ thread β} (h : Honest x)
    (hrest : ∀ r, Honest (f r)) : Honest (x >>= f) := by
  intro a ha
  have hx := h a ha
  cases hrun : x a with
  | error e a₁ =>
    rw [hrun] at hx
    rw [bind_of_error hrun]
    exact hx
  | ok r a₁ =>
    rw [hrun] at hx
    have hf := hrest r a₁ hx.regular
    rw [bind_of_ok hrun]
    cases hrun' : f r a₁ with
    | ok s a₂ =>
      rw [hrun'] at hf
      exact hx.trans hf
    | error e a₂ =>
      rw [hrun'] at hf
      exact hx.weaken.trans hf

/-- **A cleanup does not change the error.** -/
theorem andAlways {x : Errand σ thread α} {cleanup : Errand σ thread Unit} (h : Honest x)
    (hcleanup : Harmless cleanup) : Honest (andAlways x cleanup) := by
  intro a ha
  have hx := h a ha
  cases hrun : x a with
  | ok r a₁ =>
    rw [hrun] at hx
    obtain ⟨a₂, hclean, haccounts⟩ := hcleanup a₁ hx.regular
    rw [andAlways_of_ok hrun hclean]
    exact hx.trans haccounts
  | error e a₁ =>
    rw [hrun] at hx
    obtain ⟨a₂, hclean, haccounts⟩ := hcleanup a₁ hx.regular
    rw [andAlways_of_error hrun hclean]
    exact hx.trans haccounts.weaken

/-- Neither does one after a failure only. -/
theorem onFailure {x : Errand σ thread α} {cleanup : Errand σ thread Unit} (h : Honest x)
    (hcleanup : Harmless cleanup) : Honest (onFailure x cleanup) := by
  intro a ha
  have hx := h a ha
  cases hrun : x a with
  | ok r a₁ =>
    rw [hrun] at hx
    rw [onFailure_of_ok hrun]
    exact hx
  | error e a₁ =>
    rw [hrun] at hx
    obtain ⟨a₂, hclean, haccounts⟩ := hcleanup a₁ hx.regular
    rw [onFailure_of_error hrun hclean]
    exact hx.trans haccounts.weaken

/-- What would come after a failure does not matter. -/
theorem throw_bind (e : BoxError) (f : α → Errand σ thread β) :
    Honest ((throw e : Errand σ thread α) >>= f) := fun _ ha => .none_made ha rfl

theorem ite {p : Prop} [Decidable p] {x y : Errand σ thread α} (hx : Honest x) (hy : Honest y) :
    Honest (if p then x else y) := by
  split
  · exact hx
  · exact hy

end Honest

/-! ### Calls -/

/-- A failure that mattered is the one that the call ended with. -/
theorem cause_of_failure? {m : MadeCall} {cause : StoreError} (h : m.failure? = some cause) :
    m.result = .error cause := by
  unfold MadeCall.failure? at h
  split at h
  · cases h
  · rename_i hresult
    split at h
    · cases h
      exact hresult
    · cases h

/-- The check of a call that was made, and what comes after it if it was passed. -/
theorem Ended.check_bind {c : ClientCall} {result : Except StoreError Answer}
    {f : Unit → Errand σ thread α} (h : Ended a a' true c result)
    (hrest : ∀ answer, result = .ok answer → Honest (f ())) :
    match (check (statusOf result) >>= f) a' with
    | .ok _ a'' => a.Accounts a'' none
    | .error e a'' => a.Accounts a'' (some e) := by
  cases hresult : result with
  | ok answer =>
    have hmade : a.Accounts a' none := by
      refine .one_made h.regular h.made fun cause hcause => ?_
      cases (cause_of_failure? hcause).symm.trans hresult
    have hf := hrest answer hresult a' h.regular
    rw [bind_of_ok (check_of_ok answer)]
    cases hrun : f () a' with
    | ok r a'' =>
      rw [hrun] at hf
      exact hmade.trans hf
    | error e a'' =>
      rw [hrun] at hf
      exact hmade.weaken.trans hf
  | error e =>
    have hlast : a'.client.lastError thread = some e := by rw [h.lastError, hresult, causeOf]
    rw [bind_of_error (check_of_error (h.fails e hresult) hlast)]
    have hmade := a'.made_letHappen_letHappen.trans h.made
    refine .one_made h.regular.letHappen.letHappen hmade fun cause hcause => ?_
    cases (cause_of_failure? hcause).symm.trans hresult
    rfl

/-- **A call that has to succeed.** -/
theorem honest_demandCall (c : ClientCall) :
    Honest (demandCall c : Errand σ thread (Option Answer)) := by
  intro a ha
  obtain ⟨result, a₁, hinvoke, hended⟩ := invoke_eq ha true c
  unfold demandCall
  rw [bind_of_ok hinvoke]
  exact hended.check_bind fun answer _ => (calm_pure _).honest

theorem calm_own (c : Call) : Calm (own c : Errand σ thread ClientCall) := fun _ ha => ⟨ha, rfl⟩

theorem honest_demand (c : Call) : Honest (demand c : Errand σ thread (Option Answer)) :=
  (calm_own c).honest.bind honest_demandCall

theorem own_eq (c : Call) (a : Agent σ thread) : own c a = .ok (.on (some a.connection) c) a := rfl

/-- **A request for an ID.**  Its failure is seen by the zero. -/
theorem honest_demandId {c : Call} (hc : c.asksForId = true) :
    Honest (demandId c : Errand σ thread ObjectId) := by
  intro a ha
  obtain ⟨result, a₁, hinvoke, hended⟩ := invoke_eq ha true (.on (some a.connection) c)
  unfold demandId
  rw [bind_of_ok (own_eq c a), bind_of_ok hinvoke]
  cases result with
  | ok answer =>
    obtain ⟨id, rfl, hid⟩ := hended.id hc answer rfl
    have hreply : ¬ (CallReply.of (.ok (.id id))).id = 0 := hid
    rw [if_neg hreply]
    exact .one_made hended.regular hended.made nofun
  | error e =>
    have hreply : (CallReply.of (.error e)).id = 0 := rfl
    rw [if_pos hreply, bind_of_ok (lastError_eq (hended.fails e rfl) hended.lastError .error)]
    have hmade := a₁.made_letHappen_letHappen.trans hended.made
    refine .one_made hended.regular.letHappen.letHappen hmade fun cause hcause => ?_
    cases cause_of_failure? hcause
    rfl

/-- **A call whose end does not matter** does no harm. -/
theorem harmless_passOver (c : Call) : Harmless (passOver c : Errand σ thread Unit) := by
  intro a ha
  obtain ⟨result, a₁, hinvoke, hended⟩ := invoke_eq ha false (.on (some a.connection) c)
  refine ⟨a₁, ?_, .one_made hended.regular hended.made ?_⟩
  · unfold passOver
    rw [bind_of_ok (own_eq c a), bind_of_ok hinvoke]
    rfl
  · intro cause hcause
    unfold MadeCall.failure? at hcause
    cases result with
    | ok answer => cases hcause
    | error e => cases hcause

theorem calm_opened (what : String) (answer : Option Answer) :
    Calm (opened what answer : Errand σ thread Handle) := by
  unfold opened
  split
  · exact calm_pure _
  · exact calm_throw _

/-! ### Transactions -/

theorem calm_requireOpen : Calm (requireOpen : Errand σ thread Unit) := by
  intro a ha
  unfold requireOpen
  cases a.isOpen with
  | true => exact ⟨ha, rfl⟩
  | false => exact ⟨ha, rfl⟩

theorem honest_begin (readOnly : Bool) : Honest (begin readOnly : Errand σ thread Handle) :=
  calm_requireOpen.honest.bind fun _ => (honest_demand _).bind fun _ => (calm_opened _ _).honest

/-- **Work with a cursor is honest in its transaction** if it is honest in itself. -/
theorem honest_withCursor (type : TypeId) (readOnly : Bool) {work : Handle → Errand σ thread β}
    (hwork : ∀ cursor, Honest (work cursor)) : Honest (withCursor type readOnly work) := by
  refine (honest_begin readOnly).bind fun txn => ?_
  have hcursor : Honest (do
      let cursor ← opened "cursor" (← demand (.openCursor txn type true))
      Errand.andAlways (work cursor) (passOver (.closeCursor cursor))) :=
    (honest_demand _).bind fun _ => (calm_opened _ _).honest.bind fun cursor =>
      (hwork cursor).andAlways (harmless_passOver _)
  refine (hcursor.onFailure (harmless_passOver _)).bind fun result => ?_
  exact (honest_demand _).bind fun _ => (calm_pure _).honest

end Errand

/-! ## Operations -/

namespace AgentBox

open Errand

variable {σ α β : Type} {thread : Thread} (b : AgentBox σ thread α)

theorem calm_require : Calm b.require := by
  intro a ha
  unfold require
  cases (a.cores[b.number]?).bind BoxCore.handle with
  | none => exact ⟨ha, rfl⟩
  | some h => exact ⟨ha, rfl⟩

theorem honest_run (readOnly : Bool) {work : Handle → Errand σ thread β}
    (hwork : ∀ cursor, Honest (work cursor)) : Honest (b.run readOnly work) :=
  b.calm_require.honest.bind fun _ => honest_withCursor _ readOnly hwork

/-- What a binding does is not on the agent's account. -/
theorem calm_serialize (object : α) (id : ObjectId) (builder : Builder) :
    Calm (b.serialize object id builder) := by
  intro a ha
  obtain ⟨events, hclient⟩ := b.binding.isRun object id (.ofBuilder builder) a
  have hregular : Agent.Regular
      { (b.binding.flatten object id (.ofBuilder builder) a).2.2 with made := a.made } :=
    ha.after hclient
  unfold serialize
  generalize b.binding.flatten object id (.ofBuilder builder) a = flattened at hregular ⊢
  obtain ⟨outcome, bench, a'⟩ := flattened
  cases outcome with
  | error e => exact ⟨hregular, rfl⟩
  | ok _ =>
    dsimp only
    cases bench.builder.deliver with
    | error e => exact ⟨hregular, rfl⟩
    | ok r => exact ⟨hregular, rfl⟩

theorem honest_putWithin (object : α) (cursor : Handle) (builder : Builder) :
    Honest (b.putWithin object cursor builder) := by
  refine (calm_lift _).honest.bind fun candidate => ?_
  have hid : Honest (demandId (.cursorId cursor candidate) : Errand σ thread ObjectId) :=
    honest_demandId rfl
  refine hid.bind fun id => (b.calm_serialize object id builder).honest.bind fun serialized => ?_
  exact (calm_lift _).honest.bind fun bytes => (honest_demand _).bind fun _ => (calm_pure _).honest

theorem honest_putEachWithin (objects : List α) (cursor : Handle) (builder : Builder) :
    Honest (b.putEachWithin objects cursor builder) := by
  induction objects generalizing builder with
  | nil => exact (calm_pure _).honest
  | cons object objects ih =>
    exact (b.honest_putWithin object cursor builder).bind fun put =>
      (ih put.2).bind fun _ => (calm_pure _).honest

theorem honest_put (object : α) : Honest (b.put object) := by
  refine (b.honest_run false fun cursor => ?_).bind fun _ => (calm_pure _).honest
  exact (b.honest_putWithin object cursor .new).bind fun _ => (calm_pure _).honest

theorem honest_putAll (objects : List α) : Honest (b.putAll objects) := by
  refine .ite (calm_pure _).honest ?_
  exact (b.honest_run false fun cursor => b.honest_putEachWithin objects cursor .new).bind fun _ =>
    (calm_pure _).honest

theorem calm_borrow : Calm b.borrow := by
  intro a ha
  unfold borrow
  cases a.cores[b.number]? with
  | none => exact ⟨ha, rfl⟩
  | some core => exact ⟨ha.of_client rfl, rfl⟩

theorem harmless_giveBack (loan : Loan) : Harmless (b.giveBack loan) := fun _ ha =>
  ⟨_, rfl, .none_made (ha.of_client rfl) rfl⟩

theorem honest_putAsync (object : α) : Honest (b.putAsync object) := by
  refine b.calm_require.honest.bind fun h => (calm_lift _).honest.bind fun candidate => ?_
  have hid : Honest (demandId (.boxId h candidate) : Errand σ thread ObjectId) :=
    honest_demandId rfl
  refine hid.bind fun id => b.calm_borrow.honest.bind fun loan => ?_
  refine (b.calm_serialize object id loan.builder).honest.bind fun serialized => ?_
  have hqueue : Honest ((do
      let bytes ← lift serialized.1
      let _ ← demand (.putAsync h id (some bytes) (candidate ≠ 0))) : Errand σ thread Unit) :=
    (calm_lift _).honest.bind fun bytes => (honest_demand _).bind fun _ => (calm_pure _).honest
  exact (hqueue.andAlways (b.harmless_giveBack _)).bind fun _ => (calm_pure _).honest

/-- That nothing is found is an answer, and the transaction goes on to its commit. -/
theorem honest_get (id : ObjectId) : Honest (b.get id) := by
  refine b.honest_run true fun cursor a ha => ?_
  obtain ⟨result, a₁, hinvoke, hended⟩ :=
    invoke_eq ha true (.on (some a.connection) (.get cursor id true))
  rw [bind_of_ok (own_eq _ a), bind_of_ok hinvoke]
  by_cases hnotFound : (CallReply.of result).status = .notFound
  · rw [if_pos hnotFound]
    refine .one_made hended.regular hended.made fun cause hcause => ?_
    -- the failure was no failure of the agent
    obtain rfl : result = .error cause := cause_of_failure? hcause
    have hanswer : cause.status = .notFound := hnotFound
    simp [MadeCall.failure?, ClientCall.isAnsweredBy, hanswer] at hcause
  · rw [if_neg hnotFound]
    refine hended.check_bind fun answer hanswer => ?_
    split
    · exact (calm_lift _).honest
    · exact (calm_lift _).honest

theorem honest_getAll : Honest b.getAll := by
  refine b.honest_run true fun cursor => (honest_demand _).bind fun answer => ?_
  split
  · exact (calm_lift _).honest
  · exact (calm_pure _).honest

theorem honest_contains (id : ObjectId) : Honest (b.contains id) := by
  refine b.honest_run true fun cursor => (honest_demand _).bind fun answer => ?_
  split
  · exact (calm_pure _).honest
  · exact (calm_pure _).honest

theorem honest_count : Honest b.count := by
  refine b.honest_run true fun cursor => (honest_demand _).bind fun answer => ?_
  split
  · exact (calm_pure _).honest
  · exact (calm_pure _).honest

theorem honest_remove (id : ObjectId) : Honest (b.remove id) :=
  b.honest_run false fun _ => (honest_demand _).bind fun _ => (calm_pure _).honest

theorem honest_removeAll : Honest b.removeAll :=
  b.honest_run false fun _ => (honest_demand _).bind fun _ => (calm_pure _).honest

end AgentBox

namespace Errand

variable {σ α : Type} {thread : Thread}

theorem calm_takeHandle (type : TypeId) (n : BoxNumber) :
    Calm (takeHandle type n : Errand σ thread Handle) := by
  intro a ha
  unfold takeHandle
  cases (a.cores[n]?).bind BoxCore.handle with
  | none => exact ⟨ha, rfl⟩
  | some h => exact ⟨ha.of_client rfl, rfl⟩

theorem honest_closeCore (type : TypeId) (n : BoxNumber) :
    Honest (closeCore true type n : Errand σ thread Unit) := by
  refine (calm_takeHandle type n).honest.bind fun h a ha => ?_
  obtain ⟨result, a₁, hinvoke, hended⟩ := invoke_eq ha true (.on (some a.connection) (.closeBox h))
  rw [bind_of_ok (own_eq _ a), bind_of_ok hinvoke, ← bind_pure (check _)]
  exact hended.check_bind fun _ _ => (calm_pure _).honest

/-- Closing a box does no harm where its end does not matter. -/
theorem harmless_closeCore (type : TypeId) (n : BoxNumber) :
    Harmless (regardless (closeCore false type n) : Errand σ thread Unit) := by
  intro a ha
  have hcalm : Calm (takeHandle type n : Errand σ thread Handle) := calm_takeHandle type n
  have htaken := hcalm a ha
  cases htake : takeHandle type n a with
  | error e a₁ =>
    rw [htake] at htaken
    refine ⟨a₁, ?_, .none_made htaken.1 htaken.2⟩
    unfold regardless closeCore
    rw [bind_of_error htake]
  | ok h a₁ =>
    rw [htake] at htaken
    obtain ⟨result, a₂, hinvoke, hended⟩ :=
      invoke_eq htaken.1 false (.on (some a₁.connection) (.closeBox h))
    have hrun : closeCore false type n a = check (statusOf result) a₂ := by
      unfold closeCore
      rw [bind_of_ok htake, bind_of_ok (own_eq _ a₁), bind_of_ok hinvoke]
      rfl
    -- whatever the call says, nobody is told
    have hquiet : ∀ cause, MadeCall.failure?
        ⟨.on (some a₁.connection) (.closeBox h), result, false⟩ = some cause →
          (none : Option BoxError) = some (.ofStore cause) := by
      intro cause hcause
      unfold MadeCall.failure? at hcause
      cases result with
      | ok answer => cases hcause
      | error e => cases hcause
    have hmade := hended.made
    rw [htaken.2] at hmade
    unfold regardless
    rw [hrun]
    cases hresult : result with
    | ok answer => exact ⟨a₂, rfl, .one_made hended.regular hmade hquiet⟩
    | error e =>
      have hlast : a₂.client.lastError thread = some e := by rw [hended.lastError, hresult, causeOf]
      rw [check_of_error (hended.fails e hresult) hlast]
      exact ⟨_, rfl, .one_made hended.regular.letHappen.letHappen
        (a₂.made_letHappen_letHappen.trans hmade) hquiet⟩

theorem harmless_closeCores (boxes : List (TypeId × BoxNumber)) :
    Harmless (closeCores boxes : Errand σ thread Unit) := by
  induction boxes with
  | nil => exact fun a ha => ⟨a, rfl, .none_made ha rfl⟩
  | cons box boxes ih =>
    intro a ha
    obtain ⟨a₁, hclose, hmade⟩ := harmless_closeCore box.1 box.2 a ha
    obtain ⟨a₂, hrest, hmade'⟩ := ih a₁ hmade.regular
    exact ⟨a₂, (bind_of_ok hclose).trans hrest, hmade.trans hmade'⟩

theorem Harmless.honest {x : Errand σ thread Unit} (h : Harmless x) : Honest x := by
  intro a ha
  obtain ⟨a', hrun, hmade⟩ := h a ha
  rw [hrun]
  exact hmade

theorem honest_openCore (type : TypeId) : Honest (openCore type : Errand σ thread BoxNumber) := by
  have hkeep : ∀ h, Calm (keepBox type h : Errand σ thread BoxNumber) :=
    fun _ _ ha => ⟨ha.of_client rfl, rfl⟩
  exact calm_requireOpen.honest.bind fun _ => (honest_demand _).bind fun _ =>
    (calm_opened _ _).honest.bind fun h => (hkeep h).honest

theorem honest_boxOf (binding : AgentBinding σ thread α) : Honest (boxOf binding) := by
  have hget : Calm (get : Errand σ thread (Agent σ thread)) := fun _ ha => ⟨ha, rfl⟩
  have hopen : Honest (do return ⟨binding, ← openCore binding.type⟩ :
      Errand σ thread (AgentBox σ thread α)) :=
    (honest_openCore _).bind fun _ => (calm_pure _).honest
  refine hget.honest.bind fun a => ?_
  split
  · exact .ite (calm_pure _).honest hopen
  · exact hopen

theorem honest_awaitPuts : Honest (awaitPuts : Errand σ thread Unit) :=
  calm_requireOpen.honest.bind fun _ => (honest_demand _).bind fun _ => (calm_pure _).honest

theorem calm_shut : Calm (shut : Errand σ thread Unit) := fun _ ha => ⟨ha.of_client rfl, rfl⟩

/-- **Closing the database**: how its boxes end does not matter, how the store does. -/
theorem honest_closeAll : Honest (closeAll : Errand σ thread Unit) := by
  have hget : Calm (get : Errand σ thread (Agent σ thread)) := fun _ ha => ⟨ha, rfl⟩
  have htake : Calm (takeCurrent : Errand σ thread _) := fun _ ha => ⟨ha.of_client rfl, rfl⟩
  refine hget.honest.bind fun a => .ite (.throw_bind _ _) ?_
  refine htake.honest.bind fun boxes => (harmless_closeCores boxes).honest.bind fun _ => ?_
  exact calm_shut.honest.bind fun _ => (honest_demand _).bind fun _ => (calm_pure _).honest

theorem honest_register (entity : EntityInfo) :
    Honest (register entity : Errand σ thread Unit) := by
  refine .ite (.throw_bind _ _) ?_
  exact calm_requireOpen.honest.bind fun _ => (honest_demand _).bind fun _ => (calm_pure _).honest

theorem honest_registerEach (entities : List EntityInfo) :
    Honest (registerEach entities : Errand σ thread Unit) := by
  induction entities with
  | nil => exact (calm_pure _).honest
  | cons entity entities ih => exact (honest_register entity).bind fun _ => ih

/-- **Opening a database** that cannot be set up: the store is closed again, and the error is still
that of the registration. -/
theorem honest_build (plan : DatabasePlan) : Honest (build plan : Errand σ thread Unit) := by
  have hadopt : ∀ h, Calm (adopt h : Errand σ thread Unit) := fun _ _ ha =>
    ⟨ha.of_client rfl, rfl⟩
  have hcleanup : Harmless ((do
      shut
      passOver .close) : Errand σ thread Unit) := by
    intro a ha
    obtain ⟨a', hclose, hmade⟩ :=
      harmless_passOver .close { a with isOpen := false } (ha.of_client rfl)
    exact ⟨a', hclose, hmade.regular, hmade.made⟩
  refine (honest_demandCall _).bind fun answer => (calm_opened _ _).honest.bind fun h => ?_
  exact (hadopt h).honest.bind fun _ => (honest_registerEach _).onFailure hcleanup

/-- What a user of a database can do with it. -/
inductive IsOperation : {α : Type} → Errand σ thread α → Prop
  | call {α : Type} (b : AgentBox σ thread α) (c : BoxCall α) : IsOperation (c.carryOut b)
  | boxOf {α : Type} (binding : AgentBinding σ thread α) : IsOperation (boxOf binding)
  | awaitPuts : IsOperation awaitPuts
  | closeAll : IsOperation closeAll
  | build (plan : DatabasePlan) : IsOperation (build plan)

/-- **Every operation is honest.** -/
theorem IsOperation.honest {x : Errand σ thread α} (h : IsOperation x) : Honest x := by
  cases h with
  | boxOf binding => exact honest_boxOf binding
  | awaitPuts => exact honest_awaitPuts
  | closeAll => exact honest_closeAll
  | build plan => exact honest_build plan
  | call b c =>
    cases c with
    | close => exact (honest_closeCore _ _).bind fun _ => (calm_pure _).honest
    | putAsync object => exact (b.honest_putAsync object).bind fun _ => (calm_pure _).honest
    | perform op =>
      cases op with
      | put object => exact (b.honest_put object).bind fun _ => (calm_pure _).honest
      | putAll objects => exact (b.honest_putAll objects).bind fun _ => (calm_pure _).honest
      | get id => exact (b.honest_get id).bind fun _ => (calm_pure _).honest
      | getAll => exact b.honest_getAll.bind fun _ => (calm_pure _).honest
      | contains id => exact (b.honest_contains id).bind fun _ => (calm_pure _).honest
      | count => exact b.honest_count.bind fun _ => (calm_pure _).honest
      | remove id => exact (b.honest_remove id).bind fun _ => (calm_pure _).honest
      | removeAll => exact b.honest_removeAll.bind fun _ => (calm_pure _).honest

end Errand

end ObjectStore
