import Mathlib
import ObjectStore.Proofs.Store.Batching
import ObjectStore.Proofs.Store.QueueAside

/-!
# Back-pressure under a busy writer

While a write transaction is open, the worker can take a batch and no more.  If it takes the first of the
asynchronous puts that are made meanwhile, that one is in flight, as many as the queue has room for
wait behind it, and all others are refused.  The transaction cannot tell any of this.  Once it has
ended, the worker goes on: what was accepted is applied, in order, to what the transaction left, and
the queue is as it was before.

What the queue holds is determined by the list of the puts made so far (`PutQueue.Filled`).  This
is carried through everything that happens while the transaction is open (`Connection.Busy.step`);
after its end, what will be committed in the end stays the same (`Connection.Relieved.step`).  Main
statement: `busy_writer_pushes_back`.
-/

namespace ObjectStore

/-! ## The queue -/

namespace PutQueue

/-- Nothing waits, and the worker has nothing in hand and will take what comes. -/
structure AtRest (q : PutQueue) : Prop where
  worker : q.worker = .free
  waiting : q.waiting = []
  accepting : q.isClosing = false
  capacity : 1 ≤ q.capacity
  maxBatch : 1 ≤ q.maxBatch

/-- What a queue `q₀` at rest holds after puts were made while the worker cannot apply any: nothing,
or one put, or the first put in flight and behind it as many as there is room for. -/
inductive Filled (q₀ : PutQueue) : List QueuedPut → PutQueue → Prop
  | none : Filled q₀ [] q₀
  | first (item : QueuedPut) : Filled q₀ [item] { q₀ with waiting := [item] }
  | taken (item : QueuedPut) (later : List QueuedPut) :
      Filled q₀ (item :: later)
        { q₀ with worker := .carrying [item], waiting := later.take q₀.capacity }

namespace Filled

variable {q₀ q : PutQueue} {items : List QueuedPut} {s : Store}

/-- What is accepted and not yet applied is the first of the puts and what waits behind it. -/
theorem unapplied (hq₀ : q₀.AtRest) (h : q₀.Filled items q) :
    q.unapplied = items.take (1 + q₀.capacity) := by
  unfold PutQueue.unapplied inFlight
  cases h with
  | none => rw [hq₀.worker, hq₀.waiting, List.take_nil, List.append_nil]
  | first item =>
    rw [Nat.add_comm, List.take_succ_cons, List.take_nil]
    simp only [hq₀.worker, List.nil_append]
  | taken item later =>
    rw [Nat.add_comm, List.take_succ_cons]
    rfl

/-- **A put** is accepted if it is the first or there is room behind it, provided that the first one
does not wait any more. -/
theorem push (hq₀ : q₀.AtRest) (h : q₀.Filled items q)
    (hpaced : q.worker = .free → q.waiting = []) (item : QueuedPut) :
    (items.length < 1 + q₀.capacity ∧
        ∃ q', q.push item = .ok q' ∧ q₀.Filled (items ++ [item]) q') ∨
      (¬ items.length < 1 + q₀.capacity ∧
        q.push item = .error (.queueFull q₀.capacity q₀.timeout) ∧
          q₀.Filled (items ++ [item]) q) := by
  have hcapacity := hq₀.capacity
  cases h with
  | none =>
    refine Or.inl ⟨by rw [List.length_nil]; omega, _, push_eq_ok.2 ⟨hq₀.accepting, ?_, rfl⟩, ?_⟩
    · rw [hq₀.waiting, List.length_nil]
      exact hcapacity
    · rw [hq₀.waiting]
      exact .first item
  -- the worker was given time to take the first put
  | first earlier => cases hpaced hq₀.worker
  | taken earlier later =>
    by_cases hroom : later.length < q₀.capacity
    · -- none of the earlier puts was refused
      have hall : later.take q₀.capacity = later := List.take_of_length_le hroom.le
      have hall' : (later ++ [item]).take q₀.capacity = later ++ [item] :=
        List.take_of_length_le (by rw [List.length_append, List.length_singleton]; omega)
      refine Or.inl ⟨by rw [List.length_cons]; omega, _,
        push_eq_ok.2 ⟨hq₀.accepting, by rwa [hall], rfl⟩, ?_⟩
      have hfilled : q₀.Filled _ _ := .taken earlier (later ++ [item])
      rw [hall'] at hfilled
      rw [hall]
      exact hfilled
    · -- a queue that is full stays as it is
      have hfull : q₀.capacity ≤ (later.take q₀.capacity).length := by
        rw [List.length_take]
        omega
      have hsame : (later ++ [item]).take q₀.capacity = later.take q₀.capacity :=
        List.take_append_of_le_length (not_lt.1 hroom)
      refine Or.inr ⟨by rw [List.length_cons]; omega, ?_, ?_⟩
      · unfold PutQueue.push
        rw [if_neg (by simp [hq₀.accepting]), if_pos hfull]
      · have hfilled : q₀.Filled _ _ := .taken earlier (later ++ [item])
        rwa [hsame] at hfilled

/-- **A step of the worker** takes the first put, and no other step is possible. -/
theorem workerStep (hq₀ : q₀.AtRest) (h : q₀.Filled items s.queue) (hwriting : s.writing = true)
    {s' : Store} (hstep : s.workerStep? = some s') :
    ∃ q', s' = s.withQueue q' ∧ q₀.Filled items q' := by
  have hmax := hq₀.maxBatch
  rcases Store.workerStep?_eq_some hstep with
    ⟨hw, hne, rfl⟩ | ⟨batch, -, hfree, -⟩ | ⟨batch, hw, -⟩ | ⟨hw, hnil, hclosing, -⟩
  · refine ⟨_, rfl, ?_⟩
    generalize s.queue = q at h hw hne
    cases h with
    | none => exact absurd hq₀.waiting hne
    | first item =>
      have hfilled : q₀.Filled _ _ := .taken item []
      have htake : [item].take q₀.maxBatch = [item] := List.take_of_length_le hmax
      have hdrop : [item].drop q₀.maxBatch = [] := List.drop_of_length_le hmax
      dsimp only
      rw [htake, hdrop]
      rwa [List.take_nil] at hfilled
    | taken => cases hw
  · rw [hwriting] at hfree
    cases hfree
  · generalize s.queue = q at h hw
    cases h with
    | taken => cases hw
    | _ =>
      have hw' := hq₀.worker.symm.trans hw
      cases hw'
  · generalize s.queue = q at h hclosing
    cases h <;> cases hq₀.accepting.symm.trans hclosing

/-- Nor is it possible to do more in more steps. -/
theorem runWorker (hq₀ : q₀.AtRest) (h : q₀.Filled items s.queue) (hwriting : s.writing = true)
    (n : Nat) : ∃ q', s.runWorker n = s.withQueue q' ∧ q₀.Filled items q' := by
  induction n generalizing s with
  | zero => exact ⟨s.queue, rfl, h⟩
  | succ n ih =>
    unfold Store.runWorker
    cases hstep : s.workerStep? with
    | none => exact ⟨s.queue, rfl, h⟩
    | some s' =>
      obtain ⟨q', rfl, hq'⟩ := workerStep hq₀ h hwriting hstep
      obtain ⟨q'', hrun, hq''⟩ := ih (s := s.withQueue q') hq' hwriting
      exact ⟨q'', hrun, hq''⟩

end Filled

end PutQueue

/-! ## Puts that are made -/

namespace Connection

/-- The asynchronous put that an event is, with its outcome: its box is open, and its ID and its data
are in order. -/
def put? (conn : Connection) : Event → Option (QueuedPut × Except StoreError Answer)
  | .call (.putAsync box id (some data) mayReplace) =>
    match conn.boxes.get? box, checkPut id data with
    | some type, .ok () =>
      some (⟨type, id, data, mayReplace⟩,
        (conn.call (.putAsync box id (some data) mayReplace)).1)
    | _, _ => none
  | _ => none

/-- The asynchronous puts among events, with their outcomes. -/
def puts : Connection → List Event → List (QueuedPut × Except StoreError Answer)
  | _, [] => []
  | conn, e :: events => (conn.put? e).toList ++ (conn.step e).puts events

/-- No asynchronous put is made while an earlier one waits and the worker has nothing in hand: the
first put is taken alone. -/
def Paced : Connection → List Event → Prop
  | _, [] => True
  | conn, e :: events =>
    ((conn.put? e).isSome = true → conn.store.queue.worker = .free →
      conn.store.queue.waiting = []) ∧ (conn.step e).Paced events

instance Paced.decidable : ∀ (conn : Connection) (events : List Event), Decidable (conn.Paced events)
  | _, [] => isTrue trivial
  | conn, e :: events =>
    have := Paced.decidable (conn.step e) events
    inferInstanceAs (Decidable (((conn.put? e).isSome = true → conn.store.queue.worker = .free →
      conn.store.queue.waiting = []) ∧ (conn.step e).Paced events))

variable {conn : Connection} {e : Event} {item : QueuedPut} {outcome : Except StoreError Answer}

/-- What a put on an open store comes to is up to the queue. -/
theorem step_of_put (hput : conn.put? e = some (item, outcome)) (hopen : conn.store.closed = false) :
    (∃ q, conn.store.queue.push item = .ok q ∧ outcome = .ok .done ∧
        conn.step e = conn.withQueue q) ∨
      ∃ full, conn.store.queue.push item = .error full ∧ outcome = .error full ∧
        conn.step e = conn := by
  unfold put? at hput
  split at hput
  · rename_i b id data mayReplace
    split at hput
    · rename_i type hbox hcheck
      obtain ⟨rfl, rfl⟩ := Prod.mk.inj (Option.some.inj hput)
      cases hpush : conn.store.queue.push ⟨type, id, data, mayReplace⟩ with
      | ok q =>
        have hcall : conn.call? (.putAsync b id (some data) mayReplace)
            = .ok (.done, conn.withQueue q) := by
          simp only [call?, bind_eq_ok, box_eq_ok, given_eq_ok, Store.enqueue_eq_ok, pure_eq_ok]
          exact ⟨type, hbox, data, rfl, _, ⟨hopen, hcheck, q, hpush, rfl⟩, rfl⟩
        rw [step, call_of_ok hcall]
        exact Or.inl ⟨q, rfl, rfl, rfl⟩
      | error full =>
        have hcall : conn.call? (.putAsync b id (some data) mayReplace) = .error full := by
          have hthere : conn.box b = .ok type := box_eq_ok.2 hbox
          simp only [call?, hthere, given, Store.enqueue, Store.requireOpen, hopen, hcheck, hpush,
            bind, Except.bind, Bool.false_eq_true, if_false]
        rw [step, call_of_error hcall]
        exact Or.inr ⟨full, rfl, rfl, rfl⟩
    · cases hput
  · cases hput

/-- Who waits for the queue lets the worker work, or changes nothing. -/
theorem step_awaitIdle (conn : Connection) :
    conn.step (.call .awaitIdle) = { conn with store := conn.store.settle } ∨
      conn.step (.call .awaitIdle) = conn := by
  rw [step]
  rcases conn.call_cases .awaitIdle with ⟨answer, conn', heffect, hcall⟩ | ⟨e, -, hcall⟩
  · rw [hcall]
    cases heffect with
    | awaitIdle => exact Or.inl rfl
  · rw [hcall]
    exact Or.inr rfl

/-- An asynchronous put that is not in order changes nothing. -/
theorem step_of_not_put {b : Handle} {id : ObjectId} {data : Option Bytes} {mayReplace : Bool}
    (hput : conn.put? (.call (.putAsync b id data mayReplace)) = none) :
    conn.step (.call (.putAsync b id data mayReplace)) = conn := by
  rcases conn.call_cases (.putAsync b id data mayReplace) with
    ⟨answer, conn', heffect, hcall⟩ | ⟨e, -, hcall⟩
  · cases heffect with
    | putAsync hbox _ hcheck _ =>
      simp only [put?, hbox, hcheck] at hput
      cases hput
  · rw [step, hcall]
    rfl

end Connection

/-! ## While the transaction is open -/

/-- Whether an event ends the transaction `h`, or ends the life of the queue. -/
def Event.ends (h : Handle) : Event → Bool
  | .call (.commit txn) => txn == h
  | .call (.abort txn) => txn == h
  | .call .close => true
  | .closing => true
  | _ => false

/-- Whether an event has nothing to do with the queue. -/
def Event.aside : Event → Bool
  | .call c => !c.asksQueue
  | _ => false

/-- The outcomes of `n` puts of which `room` find room. -/
def verdicts (full : StoreError) (room n : Nat) : List (Except StoreError Answer) :=
  List.replicate (min n room) (.ok .done) ++ List.replicate (n - room) (.error full)

theorem verdicts_succ (full : StoreError) (room n : Nat) :
    verdicts full room (n + 1)
      = (if 0 < room then .ok .done else .error full) :: verdicts full (room - 1) n := by
  unfold verdicts
  cases room with
  | zero => simp [List.replicate_succ]
  | succ room => simp [List.replicate_succ]

/-- The puts that succeed are those that find room. -/
theorem filter_isOk_of_verdicts {full : StoreError} {room : Nat}
    {puts : List (QueuedPut × Except StoreError Answer)}
    (h : puts.map Prod.snd = verdicts full room puts.length) :
    (puts.filter fun put => put.2.isOk).map Prod.fst = (puts.map Prod.fst).take room := by
  induction puts generalizing room with
  | nil => exact List.take_nil.symm
  | cons put puts ih =>
    rw [List.length_cons, verdicts_succ, List.map_cons] at h
    obtain ⟨hfirst, hlater⟩ := List.cons.inj h
    cases room with
    | zero =>
      have hrefused : put.2.isOk = false := by rw [hfirst]; rfl
      have hfilter : (put :: puts).filter (fun put => put.2.isOk)
          = puts.filter fun put => put.2.isOk :=
        List.filter_cons_of_neg (by rw [hrefused]; exact Bool.false_ne_true)
      rw [hfilter, ih hlater, List.take_zero, List.take_zero]
    | succ room =>
      have haccepted : put.2.isOk = true := by rw [hfirst]; rfl
      have hfilter : (put :: puts).filter (fun put => put.2.isOk)
          = put :: puts.filter fun put => put.2.isOk := List.filter_cons_of_pos haccepted
      rw [hfilter, List.map_cons, List.map_cons, List.take_succ_cons, ih hlater]
      rfl

namespace Connection

/-- The write transaction `h` is open, nothing was committed since `c₀`, and the queue `q₀` at rest was
given the puts `items`. -/
structure Busy (h : Handle) (q₀ : PutQueue) (c₀ : Contents) (items : List QueuedPut)
    (conn : Connection) : Prop where
  closed : conn.store.closed = false
  writing : conn.store.writing = true
  committed : conn.store.committed = c₀
  writer : ∃ o, conn.txns.get? h = some (.write o)
  unique : ∀ {txn o}, conn.txns.get? txn = some (.write o) → txn = h
  dealt : h < conn.nextHandle
  queue : q₀.Filled items conn.store.queue

namespace Busy

variable {h : Handle} {q₀ : PutQueue} {c₀ : Contents} {items : List QueuedPut} {conn : Connection}
  {e : Event} {c : Call}

theorem withQueue (hb : Busy h q₀ c₀ items conn) {items' : List QueuedPut} {q : PutQueue}
    (hq : q₀.Filled items' q) : Busy h q₀ c₀ items' (conn.withQueue q) where
  closed := hb.closed
  writing := hb.writing
  committed := hb.committed
  writer := hb.writer
  unique := hb.unique
  dealt := hb.dealt
  queue := hq

/-- A write transaction begins while the queue is at rest. -/
theorem begin (hone : conn.OneWriter)
    (hbegin : (conn.call (.begin false true)).1 = .ok (.opened h)) :
    Busy h conn.store.queue conn.store.committed [] (conn.call (.begin false true)).2 := by
  rcases conn.call_cases (.begin false true) with ⟨answer, conn', heffect, hcall⟩ | ⟨e, -, hcall⟩
  · rw [hcall] at hbegin ⊢
    cases heffect with
    | beginWrite hopen hfree =>
      cases hbegin
      refine ⟨hopen, rfl, rfl, ⟨_, SortedMap.get?_insert_self _ _ _⟩, fun {txn o} ho => ?_,
        Nat.lt_succ_self _, .none⟩
      change (conn.txns.insert conn.nextHandle _).get? txn = _ at ho
      rw [SortedMap.get?_insert] at ho
      split at ho
      · assumption
      · -- there was no writer before
        cases hfree.symm.trans (hone.writing ho)
  · rw [hcall] at hbegin
    cases hbegin

/-- A call that has nothing to do with the queue. -/
theorem call (hb : Busy h q₀ c₀ items conn) (hc : c.asksQueue = false)
    (hends : (Event.call c).ends h = false) : Busy h q₀ c₀ items (conn.call c).2 := by
  have hmoves : ¬ conn.MovesWriter c := by
    intro hmoves
    cases hmoves with
    | begin place hfree => cases hb.writing.symm.trans hfree
    | commit htxn => simp [Event.ends, hb.unique htxn] at hends
    | abort htxn => simp [Event.ends, hb.unique htxn] at hends
  have hsame := undisturbed_of_call hc hmoves fun ho => hb.unique ho ▸ hb.dealt
  refine ⟨hsame.closed.trans hb.closed, hsame.writing.trans hb.writing,
    hsame.committed.trans hb.committed, ?_, fun ho => ?_, lt_of_lt_of_le hb.dealt hsame.nextHandle,
    ?_⟩
  · obtain ⟨o, ho⟩ := hb.writer
    exact hsame.kept ho
  · obtain ⟨o, ho⟩ := hsame.only ho
    exact hb.unique ho
  · rw [queue_call hc]
    exact hb.queue

/-- The worker, and who waits for it, gets no further than the first put. -/
theorem runWorker (hq₀ : q₀.AtRest) (hb : Busy h q₀ c₀ items conn) (n : Nat) :
    ∃ q, { conn with store := conn.store.runWorker n } = conn.withQueue q ∧ q₀.Filled items q := by
  obtain ⟨q, hrun, hq⟩ := hb.queue.runWorker hq₀ hb.writing n
  exact ⟨q, by rw [hrun]; rfl, hq⟩

/-- What happens to the queue changes nothing but the queue, and no put is made by it but those that are
counted. -/
theorem step_queue (hq₀ : q₀.AtRest) (hb : Busy h q₀ c₀ items conn) (hends : e.ends h = false)
    (haside : e.aside = false) (hput : conn.put? e = none) :
    ∃ q, conn.step e = conn.withQueue q ∧ q₀.Filled items q := by
  cases e with
  | worker => exact hb.runWorker hq₀ 1
  | closing => cases hends
  | call c =>
    cases c with
    | awaitIdle =>
      rcases conn.step_awaitIdle with hstep | hstep
      · rw [hstep]
        exact hb.runWorker hq₀ _
      · rw [hstep]
        exact ⟨conn.store.queue, rfl, hb.queue⟩
    | close => cases hends
    | putAsync b id data mayReplace =>
      rw [step_of_not_put hput]
      exact ⟨conn.store.queue, rfl, hb.queue⟩
    | _ => cases haside

/-- **A put** is accepted if there is room, and changes nothing but the queue. -/
theorem step_put (hq₀ : q₀.AtRest) (hb : Busy h q₀ c₀ items conn) {item : QueuedPut}
    {outcome : Except StoreError Answer} (hput : conn.put? e = some (item, outcome))
    (hpaced : conn.store.queue.worker = .free → conn.store.queue.waiting = []) :
    outcome = (if items.length < 1 + q₀.capacity then .ok .done
        else .error (.queueFull q₀.capacity q₀.timeout)) ∧
      ∃ q, conn.step e = conn.withQueue q ∧ q₀.Filled (items ++ [item]) q := by
  rcases hb.queue.push hq₀ hpaced item with ⟨hroom, q, hpush, hq⟩ | ⟨hroom, hpush, hq⟩
  · rw [if_pos hroom]
    rcases step_of_put hput hb.closed with ⟨q', hpush', houtcome, hstep⟩ | ⟨full, hpush', -, -⟩
    · obtain rfl : q' = q := Except.ok.inj (hpush'.symm.trans hpush)
      exact ⟨houtcome, q', hstep, hq⟩
    · cases hpush'.symm.trans hpush
  · rw [if_neg hroom]
    rcases step_of_put hput hb.closed with ⟨q', hpush', -, -⟩ | ⟨full, hpush', houtcome, hstep⟩
    · cases hpush'.symm.trans hpush
    · obtain rfl : full = _ := Except.error.inj (hpush'.symm.trans hpush)
      exact ⟨houtcome, conn.store.queue, hstep, hq⟩

/-- **Every event** leaves the transaction open and the queue filled with the puts made so far. -/
theorem step (hq₀ : q₀.AtRest) (hb : Busy h q₀ c₀ items conn) (hends : e.ends h = false)
    (hpaced : (conn.put? e).isSome = true → conn.store.queue.worker = .free →
      conn.store.queue.waiting = []) :
    Busy h q₀ c₀ (items ++ (conn.put? e).toList.map Prod.fst) (conn.step e) ∧
      (e.aside = false → ∃ q, conn.step e = conn.withQueue q) := by
  cases hput : conn.put? e with
  | some put =>
    obtain ⟨item, outcome⟩ := put
    rw [hput] at hpaced
    obtain ⟨-, q, hstep, hq⟩ := hb.step_put hq₀ hput (hpaced rfl)
    rw [hstep]
    exact ⟨hb.withQueue hq, fun _ => ⟨q, rfl⟩⟩
  | none =>
    have hnone : items ++ (none : Option (QueuedPut × Except StoreError Answer)).toList.map Prod.fst
        = items := List.append_nil items
    rw [hnone]
    cases haside : e.aside with
    | false =>
      obtain ⟨q, hstep, hq⟩ := hb.step_queue hq₀ hends haside hput
      rw [hstep]
      exact ⟨hb.withQueue hq, fun _ => ⟨q, rfl⟩⟩
    | true =>
      refine ⟨?_, nofun⟩
      cases e with
      | call c => exact hb.call (Bool.not_eq_true' _ ▸ haside) hends
      | worker => cases haside
      | closing => cases haside

/-- **All events**: the puts made so far fill the queue, and those that find room are accepted. -/
theorem after (hq₀ : q₀.AtRest) (hb : Busy h q₀ c₀ items conn) {events : List Event}
    (hends : ∀ e ∈ events, e.ends h = false) (hpaced : conn.Paced events) :
    Busy h q₀ c₀ (items ++ (conn.puts events).map Prod.fst) (conn.after events) ∧
      (conn.puts events).map Prod.snd
        = verdicts (.queueFull q₀.capacity q₀.timeout) (1 + q₀.capacity - items.length)
            (conn.puts events).length := by
  induction events generalizing conn items with
  | nil => exact ⟨by rwa [puts, List.map_nil, List.append_nil], by simp [puts, verdicts]⟩
  | cons e events ih =>
    obtain ⟨hfirst, hlater⟩ := hpaced
    have hend := hends e List.mem_cons_self
    obtain ⟨hbusy, houtcomes⟩ := ih (hb.step hq₀ hend hfirst).1
      (fun e' he' => hends e' (List.mem_cons_of_mem e he')) hlater
    rw [List.append_assoc, ← List.map_append] at hbusy
    refine ⟨hbusy, ?_⟩
    rw [puts]
    cases hput : conn.put? e with
    | none =>
      rw [hput] at houtcomes
      simp only [Option.toList_none, List.map_nil, List.append_nil] at houtcomes
      exact houtcomes
    | some put =>
      obtain ⟨item, outcome⟩ := put
      rw [hput] at hfirst houtcomes
      obtain ⟨rfl, -⟩ := hb.step_put hq₀ hput (hfirst rfl)
      simp only [Option.toList_some, List.map_cons, List.map_nil, List.length_append,
        List.length_cons, List.length_nil, Nat.zero_add, List.singleton_append] at houtcomes ⊢
      have hroom : 0 < 1 + q₀.capacity - items.length ↔ items.length < 1 + q₀.capacity := by omega
      rw [verdicts_succ, houtcomes, Nat.sub_sub]
      simp only [hroom]

/-- **Without the queue** the same happens: the puts, the steps of the worker and the waits for it can be
left out. -/
theorem after_aside (hq₀ : q₀.AtRest) {q : PutQueue} (hb : Busy h q₀ c₀ items (conn.withQueue q))
    {events : List Event} (hends : ∀ e ∈ events, e.ends h = false)
    (hpaced : (conn.withQueue q).Paced events) :
    ∃ q', (conn.withQueue q).after events
      = (conn.after (events.filter Event.aside)).withQueue q' := by
  induction events generalizing conn q items with
  | nil => exact ⟨q, rfl⟩
  | cons e events ih =>
    obtain ⟨hfirst, hlater⟩ := hpaced
    obtain ⟨hbusy, hqueue⟩ := hb.step hq₀ (hends e List.mem_cons_self) hfirst
    have hends' : ∀ e' ∈ events, e'.ends h = false := fun e' he' =>
      hends e' (List.mem_cons_of_mem e he')
    cases haside : e.aside with
    | false =>
      obtain ⟨q', hstep⟩ := hqueue haside
      have hstep' : (conn.withQueue q).step e = conn.withQueue q' := hstep
      rw [hstep'] at hbusy hlater
      rw [List.filter_cons_of_neg (by rw [haside]; exact Bool.false_ne_true)]
      have hrest := ih hbusy hends' hlater
      rwa [← hstep'] at hrest
    | true =>
      rw [List.filter_cons_of_pos haside]
      cases e with
      | call c =>
        have hc : c.asksQueue = false := Bool.not_eq_true' _ ▸ haside
        have hstep : (conn.withQueue q).step (.call c) = (conn.step (.call c)).withQueue q := by
          rw [Connection.step, call_withQueue hc]
          rfl
        rw [hstep] at hbusy hlater
        have hrest := ih hbusy hends' hlater
        rwa [← hstep] at hrest
      | worker => cases haside
      | closing => cases haside

end Busy

end Connection

/-! ## After the transaction has ended -/

/-- Whether an event neither makes an asynchronous put, nor begins a write transaction, nor ends the life
of the queue. -/
def Event.isQuiet : Event → Bool
  | .call (.begin readOnly _) => readOnly
  | .call (.putAsync _ _ _ _) => false
  | .call .close => false
  | .closing => false
  | _ => true

namespace Connection

/-- Quiet events make no puts. -/
theorem puts_of_quiet {conn : Connection} {events : List Event}
    (hquiet : ∀ e ∈ events, e.isQuiet = true) : conn.puts events = [] := by
  induction events generalizing conn with
  | nil => rfl
  | cons e events ih =>
    have hnone : conn.put? e = none := by
      unfold put?
      split
      · cases hquiet _ List.mem_cons_self
      · rfl
    rw [puts, hnone, ih fun e' he' => hquiet e' (List.mem_cons_of_mem e he')]
    rfl

/-- A queue at rest accepts the next put. -/
theorem accepts_of_atRest {conn : Connection} {e : Event}
    {put : QueuedPut × Except StoreError Answer} (hopen : conn.store.closed = false)
    (hrest : conn.store.queue.AtRest) (hput : conn.put? e = some put) : put.2 = .ok .done := by
  obtain ⟨item, outcome⟩ := put
  rcases step_of_put hput hopen with ⟨q, -, houtcome, -⟩ | ⟨full, hpush, -, -⟩
  · exact houtcome
  · have hroom : conn.store.queue.waiting.length < conn.store.queue.capacity := by
      rw [hrest.waiting]
      exact hrest.capacity
    have hpushed : conn.store.queue.push item = .ok _ :=
      PutQueue.push_eq_ok.2 ⟨hrest.accepting, hroom, rfl⟩
    cases hpush.symm.trans hpushed

/-- Nobody writes, the queue has the limits of `q₀` and a worker that goes on, and `total` is what will be
committed in the end. -/
structure Relieved (q₀ : PutQueue) (total : Contents) (conn : Connection) : Prop where
  closed : conn.store.closed = false
  writing : conn.store.writing = false
  noWriter : ∀ txn o, conn.txns.get? txn ≠ some (.write o)
  eventually : conn.store.eventually = total
  limits : conn.store.queue
    = { q₀ with waiting := conn.store.queue.waiting, worker := conn.store.queue.worker }
  working : conn.store.queue.worker ≠ .stopped

/-- **The end of the transaction** succeeds, and leaves the accepted puts to be applied to what it has
committed. -/
theorem Busy.ending {h : Handle} {q₀ : PutQueue} {c₀ : Contents} {items : List QueuedPut}
    {conn : Connection} {c : Call} (hq₀ : q₀.AtRest) (hb : Busy h q₀ c₀ items conn)
    (hc : c = .commit h ∨ c = .abort h) :
    (conn.call c).1 = .ok .done ∧
      Relieved q₀ (Store.afterBatch (conn.call c).2.store.committed (items.take (1 + q₀.capacity)))
        (conn.call c).2 := by
  obtain ⟨o, ho⟩ := hb.writer
  have hnone : ∀ txn o, (conn.txns.erase h).get? txn ≠ some (.write o) := by
    intro txn o' ho'
    rw [SortedMap.get?_erase] at ho'
    split at ho'
    · cases ho'
    · rename_i hne
      exact hne (hb.unique ho')
  have hlimits : conn.store.queue
      = { q₀ with waiting := conn.store.queue.waiting, worker := conn.store.queue.worker } ∧
        conn.store.queue.worker ≠ .stopped := by
    have hfilled := hb.queue
    generalize conn.store.queue = q at hfilled
    cases hfilled with
    | none => exact ⟨rfl, hq₀.worker ▸ Worker.noConfusion⟩
    | first item => exact ⟨rfl, hq₀.worker ▸ Worker.noConfusion⟩
    | taken item later => exact ⟨rfl, Worker.noConfusion⟩
  have hunapplied := hb.queue.unapplied hq₀
  rcases hc with rfl | rfl
  · have hcall : conn.call? (.commit h)
        = .ok (.done, { conn.endTxn h with store := conn.store.install o }) := by
      simp only [call?, commit, bind_eq_ok, txn_eq_ok]
      refine ⟨_, ho, ?_⟩
      simp only [bind_eq_ok, Store.commit_eq_ok, pure_eq_ok]
      exact ⟨_, ⟨hb.closed, rfl⟩, rfl⟩
    rw [call_of_ok hcall]
    exact ⟨rfl, hb.closed, rfl, hnone, congrArg (Store.afterBatch _) hunapplied, hlimits.1, hlimits.2⟩
  · have hcall : conn.call? (.abort h)
        = .ok (.done, { conn.endTxn h with store := conn.store.releaseWriter }) := by
      simp only [call?, abort, bind_eq_ok, txn_eq_ok]
      exact ⟨_, ho, rfl⟩
    rw [call_of_ok hcall]
    exact ⟨rfl, hb.closed, rfl, hnone, congrArg (Store.afterBatch _) hunapplied, hlimits.1, hlimits.2⟩

namespace Relieved

variable {q₀ : PutQueue} {total : Contents} {conn : Connection} {e : Event}

/-- The worker works through the queue. -/
theorem workerStep (hq₀ : q₀.AtRest) (hr : Relieved q₀ total conn) {s : Store}
    (hstep : conn.store.workerStep? = some s) : Relieved q₀ total { conn with store := s } := by
  have heventually := (Store.eventually_workerStep hstep).trans hr.eventually
  have hclosed := hr.closed
  have hwriting := hr.writing
  have hlimits := hr.limits
  rcases Store.workerStep?_eq_some hstep with
    ⟨-, -, rfl⟩ | ⟨batch, -, -, rfl⟩ | ⟨batch, -, rfl⟩ | ⟨-, -, hclosing, rfl⟩
  · exact ⟨hclosed, hwriting, hr.noWriter, heventually, by rw [hlimits], nofun⟩
  · exact ⟨hclosed, hwriting, hr.noWriter, heventually, by rw [hlimits], nofun⟩
  · exact ⟨hclosed, hwriting, hr.noWriter, heventually, by rw [hlimits], nofun⟩
  · rw [hlimits] at hclosing
    cases hq₀.accepting.symm.trans hclosing

theorem runWorker (hq₀ : q₀.AtRest) (hr : Relieved q₀ total conn) (n : Nat) :
    Relieved q₀ total { conn with store := conn.store.runWorker n } := by
  induction n generalizing conn with
  | zero => exact hr
  | succ n ih =>
    unfold Store.runWorker
    cases hstep : conn.store.workerStep? with
    | none => exact hr
    | some s => exact ih (hr.workerStep hq₀ hstep)

/-- **Every quiet event** leaves what will be committed in the end. -/
theorem step (hq₀ : q₀.AtRest) (hr : Relieved q₀ total conn) (hquiet : e.isQuiet = true) :
    Relieved q₀ total (conn.step e) := by
  cases e with
  | worker => exact hr.runWorker hq₀ 1
  | closing => cases hquiet
  | call c =>
    cases hc : c.asksQueue with
    | true =>
      cases c with
      | awaitIdle =>
        rcases conn.step_awaitIdle with hstep | hstep
        · rw [hstep]
          exact hr.runWorker hq₀ _
        · rwa [hstep]
      | close => cases hquiet
      | putAsync => cases hquiet
      | _ => cases hc
    | false =>
      have hmoves : ¬ conn.MovesWriter c := by
        intro hmoves
        cases hmoves with
        | begin place => cases hquiet
        | commit htxn => exact hr.noWriter _ _ htxn
        | abort htxn => exact hr.noWriter _ _ htxn
      have hsame := undisturbed_of_call hc hmoves fun ho => absurd ho (hr.noWriter _ _)
      have hqueue : (conn.step (.call c)).store.queue = conn.store.queue := queue_call hc conn
      refine ⟨hsame.closed.trans hr.closed, hsame.writing.trans hr.writing, fun txn o ho => ?_, ?_,
        ?_, ?_⟩
      · obtain ⟨o', ho'⟩ := hsame.only ho
        exact hr.noWriter txn o' ho'
      · have hcommitted : (conn.step (.call c)).store.committed = conn.store.committed :=
          hsame.committed
        rw [Store.eventually, hcommitted, hqueue]
        exact hr.eventually
      · rw [hqueue]
        exact hr.limits
      · rw [hqueue]
        exact hr.working

theorem after (hq₀ : q₀.AtRest) (hr : Relieved q₀ total conn) {events : List Event}
    (hquiet : ∀ e ∈ events, e.isQuiet = true) : Relieved q₀ total (conn.after events) := by
  induction events generalizing conn with
  | nil => exact hr
  | cons e events ih =>
    exact ih (hr.step hq₀ (hquiet e List.mem_cons_self)) fun e' he' =>
      hquiet e' (List.mem_cons_of_mem e he')

/-- A worker that can go no further has applied everything. -/
theorem queue_eq (hr : Relieved q₀ total conn) (hq₀ : q₀.AtRest)
    (hnone : conn.store.workerStep? = none) : conn.store.queue = q₀ := by
  have hrest : conn.store.queue.worker = .free ∧ conn.store.queue.waiting = [] := by
    unfold Store.workerStep? Store.applyBatch? PutQueue.next? PutQueue.report? at hnone
    cases hw : conn.store.queue.worker with
    | free =>
      refine ⟨rfl, ?_⟩
      by_contra hne
      simp [hw, hne] at hnone
    | carrying batch => simp [hw, hr.writing] at hnone
    | reporting batch => simp [hw] at hnone
    | stopped => exact absurd hw hr.working
  rw [hr.limits, hrest.1, hrest.2, ← hq₀.worker, ← hq₀.waiting]

/-- **Who waits for the queue** finds it at rest and everything committed. -/
theorem awaitIdle (hq₀ : q₀.AtRest) (hr : Relieved q₀ total conn) :
    (conn.call .awaitIdle).1 = .ok .done ∧ (conn.call .awaitIdle).2.store.committed = total ∧
      (conn.call .awaitIdle).2.store.queue = q₀ ∧
      (conn.call .awaitIdle).2.store.closed = false := by
  have hattended : conn.store.queue.Attended := by
    refine ⟨?_, fun hstopped => absurd hstopped hr.working⟩
    rw [hr.limits]
    exact hq₀.maxBatch
  have hsettled : Relieved q₀ total { conn with store := conn.store.settle } := hr.runWorker hq₀ _
  have hqueue : conn.store.settle.queue = q₀ :=
    hsettled.queue_eq hq₀ (Store.workerStep?_runWorker hattended conn.store.stepsLeft_le).2
  have hidle : conn.store.settle.queue.isIdle = true := by
    rw [hqueue, PutQueue.isIdle, hq₀.waiting, hq₀.worker]
    rfl
  have hcommitted : conn.store.settle.committed = total := by
    have heventually := hsettled.eventually
    have hnil : q₀.unapplied = [] := (PutQueue.Filled.none.unapplied hq₀).trans List.take_nil
    rwa [Store.eventually, hqueue, hnil, Store.afterBatch_nil] at heventually
  have hcall : conn.call? .awaitIdle = .ok (.done, { conn with store := conn.store.settle }) := by
    simp only [call?, bind_eq_ok, ensureHandle_eq_ok, Store.drain_eq_ok, pure_eq_ok]
    exact ⟨(), hr.closed, _, ⟨hr.closed, hidle, rfl⟩, rfl⟩
  rw [call_of_ok hcall]
  exact ⟨rfl, hcommitted, hqueue, hsettled.closed⟩

end Relieved

end Connection

/-! ## What the history has of it -/

namespace Session

variable {x : Session} {e : Event}

theorem conn_after (x : Session) (events : List Event) :
    (x.after events).conn = x.conn.after events := by
  induction events generalizing x with
  | nil => rfl
  | cons e events ih => exact ih (x.step e)

/-- An event that is no asynchronous put has nothing accepted. -/
theorem accepted_of_not_put (hput : x.conn.put? e = none) :
    (x.step e).history.accepted = x.history.accepted := by
  obtain ⟨conn, hist⟩ := x
  cases e with
  | worker => rfl
  | closing => rfl
  | call c =>
    rcases conn.call_cases c with ⟨answer, conn', heffect, hcall⟩ | ⟨e, -, hcall⟩
    · rw [step_of_ok hcall]
      cases heffect with
      | putAsync hbox _ hcheck _ =>
        have hnone : conn.put? _ = none := hput
        simp only [Connection.put?, hbox, hcheck] at hnone
        cases hnone
      | commitRead => exact hist.accepted_commit _
      | commitWrite => exact hist.accepted_commit _
      | put => exact hist.accepted_write _ _
      | remove => exact hist.accepted_write _ _
      | removeAll => exact hist.accepted_write _ _
      | _ => rfl
    · rw [step_of_error hcall]
      exact (hist.noteFailure_queue c).2

/-- **What is accepted** is the puts that succeed. -/
theorem accepted_step (hx : x.Serial) (e : Event) :
    (x.step e).history.accepted = x.history.accepted
      ++ ((x.conn.put? e).toList.filter fun put => put.2.isOk).map Prod.fst := by
  cases hput : x.conn.put? e with
  | none =>
    rw [accepted_of_not_put hput]
    exact (List.append_nil _).symm
  | some put =>
    obtain ⟨item, outcome⟩ := put
    unfold Connection.put? at hput
    split at hput
    · rename_i b id data mayReplace
      split at hput
      · rename_i type hbox hcheck
        obtain ⟨rfl, rfl⟩ := Prod.mk.inj (Option.some.inj hput)
        cases hcall : (x.conn.call (.putAsync b id (some data) mayReplace)).1 with
        | error e =>
          rw [refusal_of_call x hcall]
          exact (List.append_nil _).symm
        | ok answer =>
          obtain ⟨conn, hist⟩ := x
          rcases conn.call_cases (.putAsync b id (some data) mayReplace) with
            ⟨answer', conn', heffect, hcall'⟩ | ⟨e, -, hcall'⟩
          · rw [step_of_ok hcall']
            cases heffect with
            | putAsync hbox' =>
              obtain rfl := Option.some.inj (hbox'.symm.trans hbox)
              have hb : hist.boxes.get? b = some _ := (congrArg (·.get? b) hx.boxes.symm).trans hbox
              rw [History.noteSuccess, History.accept, hb]
              rfl
          · rw [hcall'] at hcall
            cases hcall
      · cases hput
    · cases hput

/-- What events have accepted is, in order, the puts among them that succeed. -/
theorem accepted_puts (hx : x.Serial) (events : List Event) :
    (x.after events).history.accepted = x.history.accepted
      ++ ((x.conn.puts events).filter fun put => put.2.isOk).map Prod.fst := by
  induction events generalizing x with
  | nil => exact (List.append_nil _).symm
  | cons e events ih =>
    have hlater : (x.after (e :: events)).history.accepted = (x.step e).history.accepted
        ++ (((x.step e).conn.puts events).filter fun put => put.2.isOk).map Prod.fst :=
      ih (hx.step e)
    rw [hlater, accepted_step hx e, Connection.puts, List.filter_append, List.map_append,
      List.append_assoc]
    rfl

/-- The queue of an open store that is idle is at rest. -/
theorem InOrder.atRest {options : Options} {s : Store} {hist : History}
    (h : InOrder options s hist) (hidle : s.queue.isIdle = true)
    (haccepting : s.queue.isClosing = false) : s.queue.AtRest where
  worker := by
    simp only [PutQueue.isIdle, Bool.and_eq_true] at hidle
    cases hw : s.queue.worker with
    | free => rfl
    | carrying batch => simp [hw, Worker.isIdle] at hidle
    | reporting batch => simp [hw, Worker.isIdle] at hidle
    | stopped => cases (h.stopped hw).2.symm.trans haccepting
  waiting := (PutQueue.eq_nil_of_isIdle hidle).2
  accepting := haccepting
  capacity := h.capacity ▸ le_max_right _ _
  maxBatch := h.maxBatch ▸ le_max_right _ _

/-- **After the end of the transaction** everything accepted is applied, as soon as somebody has waited
for the queue, and the queue is at rest again. -/
theorem catches_up {options : Options} (hx : x.Serial)
    (horder : InOrder options x.conn.store x.history) {h : Handle} {q₀ : PutQueue} {c₀ : Contents}
    {items : List QueuedPut} (hq₀ : q₀.AtRest) (hb : x.conn.Busy h q₀ c₀ items) {ending : Call}
    (hending : ending = .commit h ∨ ending = .abort h) {later : List Event}
    (hquiet : ∀ e ∈ later, e.isQuiet = true) :
    let y := (x.step (.call ending)).after later
    let z := y.step (.call .awaitIdle)
    (y.conn.call .awaitIdle).1 = .ok .done ∧
      z.conn.store.committed = Store.afterBatch (x.conn.call ending).2.store.committed
        (items.take (1 + q₀.capacity)) ∧
      z.history.applied = x.history.accepted ∧ z.conn.store.queue = q₀ ∧
      z.conn.store.closed = false := by
  intro y z
  have hrelieved := (hb.ending hq₀ hending).2.after hq₀ hquiet
  have hy : y.conn = ((x.conn.call ending).2).after later := conn_after _ _
  rw [← hy] at hrelieved
  obtain ⟨hdone, hcommitted, hqueue, hopen⟩ := hrelieved.awaitIdle hq₀
  -- no put is accepted on the way
  have hnone : x.conn.put? (.call ending) = none := by rcases hending with rfl | rfl <;> rfl
  have hserial := hx.step (.call ending)
  have haccepted : y.history.accepted = x.history.accepted := by
    rw [accepted_puts hserial, Connection.puts_of_quiet hquiet]
    exact (List.append_nil _).trans (accepted_of_not_put hnone)
  obtain ⟨hserial_y, horder_y⟩ := (horder.step hx (.call ending)).after hserial later
  exact ⟨hdone, hcommitted, (awaited_of_call horder_y hserial_y hdone).trans haccepted, hqueue,
    hopen⟩

end Session

/-! ## The main theorem -/

/-- **Back-pressure under a busy writer.**  On a store `x` that accepts puts and whose queue is idle a
write transaction `h` begins, and it stays open while anything happens but a close.  Of the
asynchronous puts that are made meanwhile, the first one is taken by the worker before the next one
is made.

* As many of the puts are accepted as the queue has room for, and one more; all others are refused.
* No call that does not ask for the queue can tell what happened to it: the outcome is the one without
  the puts and the worker.
* The transaction ends as it would without them.  What was accepted is then applied, in order, to what
  it has left, as soon as somebody has waited for the queue, and the queue accepts puts as before. -/
theorem busy_writer_pushes_back (options : Options) (before events : List Event) (h : Handle) :
    let x := Session.run options before
    let y := x.step (.call (.begin false true))
    let z := y.after events
    let alone := y.conn.after (events.filter Event.aside)
    let puts := y.conn.puts events
    let room := 1 + max options.queueCapacity 1
    let taken := (puts.map Prod.fst).take room
    let full := StoreError.queueFull (max options.queueCapacity 1) x.conn.store.queue.timeout
    x.conn.store.queue.isIdle = true → x.conn.store.queue.isClosing = false →
    (x.conn.call (.begin false true)).1 = .ok (.opened h) →
    (∀ e ∈ events, e.ends h = false) → y.conn.Paced events →
      puts.map Prod.snd = List.replicate (min puts.length room) (.ok .done)
        ++ List.replicate (puts.length - room) (.error full) ∧
      full.status = .asyncQueueFull ∧
      z.history.accepted = x.history.accepted ++ taken ∧
      (∀ c : Call, c.asksQueue = false → (z.conn.call c).1 = (alone.call c).1) ∧
      ∀ ending, ending = Call.commit h ∨ ending = Call.abort h →
        let left := (alone.call ending).2.store.committed
        (z.conn.call ending).1 = .ok .done ∧ (z.conn.call ending).2.store.committed = left ∧
        ∀ later : List Event, (∀ e ∈ later, e.isQuiet = true) →
          let u := (z.step (.call ending)).after later
          let v := u.step (.call .awaitIdle)
          (u.conn.call .awaitIdle).1 = .ok .done ∧
            v.conn.store.committed = Store.afterBatch left taken ∧
            v.history.applied = x.history.applied ++ taken ∧
            v.conn.store.queue = x.conn.store.queue ∧
            ∀ e put, v.conn.put? e = some put → put.2 = .ok .done := by
  intro x y z alone puts room taken full hidle haccepting hbegin hends hpaced
  have hx : x.Serial := .run options before
  have horder : Session.InOrder options x.conn.store x.history := .run options before
  have hrest : x.conn.store.queue.AtRest := horder.atRest hidle haccepting
  have hy : y.Serial := hx.step _
  have hbusy : Connection.Busy h x.conn.store.queue x.conn.store.committed [] y.conn :=
    .begin hx.oneWriter hbegin
  -- while the transaction is open
  have hcapacity := horder.capacity
  obtain ⟨hbusy_after, houtcomes⟩ := hbusy.after hrest hends hpaced
  rw [hcapacity] at houtcomes
  have htaken : (puts.filter fun put => put.2.isOk).map Prod.fst = taken :=
    filter_isOk_of_verdicts houtcomes
  have haccepted_x : y.history.accepted = x.history.accepted := Session.accepted_of_not_put rfl
  have haccepted : z.history.accepted = x.history.accepted ++ taken := by
    rw [← htaken, ← haccepted_x]
    exact Session.accepted_puts hy events
  have hsame : y.conn.withQueue y.conn.store.queue = y.conn := rfl
  obtain ⟨q, haside⟩ := Connection.Busy.after_aside hrest (hsame ▸ hbusy) hends (hsame ▸ hpaced)
  have hz : z.conn = alone.withQueue q := (Session.conn_after y events).trans haside
  have htold : ∀ c : Call, c.asksQueue = false →
      z.conn.call c = ((alone.call c).1, (alone.call c).2.withQueue q) := by
    intro c hc
    rw [hz, Connection.call_withQueue hc]
  refine ⟨houtcomes, rfl, haccepted, fun c hc => by rw [htold c hc], fun ending hending => ?_⟩
  -- the transaction ends
  have hbusy_z : Connection.Busy h x.conn.store.queue x.conn.store.committed (puts.map Prod.fst)
      z.conn := (Session.conn_after y events).symm ▸ hbusy_after
  obtain ⟨hserial, horder_z⟩ := (horder.step hx _).after hy events
  have hc : ending.asksQueue = false := by rcases hending with rfl | rfl <;> rfl
  have hleft : (z.conn.call ending).2.store.committed = (alone.call ending).2.store.committed := by
    rw [htold ending hc]
    rfl
  refine ⟨(hbusy_z.ending hrest hending).1, hleft, fun later hquiet => ?_⟩
  obtain ⟨hdone, hcommitted, happlied, hqueue, hopen⟩ :=
    Session.catches_up hserial horder_z hrest hbusy_z hending hquiet
  rw [hleft, hcapacity] at hcommitted
  -- before the transaction everything accepted was applied
  obtain ⟨hflight, hwaiting⟩ := PutQueue.eq_nil_of_isIdle hidle
  rw [haccepted, ← horder.applied_eq hflight hwaiting] at happlied
  exact ⟨hdone, hcommitted, happlied, hqueue, fun e put hput =>
    Connection.accepts_of_atRest hopen (hqueue ▸ hrest) hput⟩

/-- A box is open, and nothing else has happened. -/
def idleRun : List Event := [.call (.register 1 (some [65])), .call (.openBox 1 true)]

/-- Three puts are made, and the worker takes the first one; the open transaction puts an object under
the ID of the first one too. -/
def busyRun : List Event :=
  [.call (.putAsync 0 5 (some [1]) false), .worker, .call (.putAsync 0 6 (some [2]) false),
    .call (.putAsync 0 7 (some [3]) false), .call (.openCursor 1 1 true),
    .call (.put 2 5 (some [9]) false)]

/-- With the least of queues two puts are accepted, of which the first one is too late for its ID. -/
theorem busy_writer_pushes_back_leastQueue :
    let x := Session.run { queueCapacity := 0 } idleRun
    let y := x.step (.call (.begin false true))
    let z := y.after busyRun
    let v := ((z.step (.call (.commit 1))).after [.worker]).step (.call .awaitIdle)
    let taken : List QueuedPut := [⟨1, 5, [1], false⟩, ⟨1, 6, [2], false⟩]
    x.conn.store.queue.isIdle = true ∧ x.conn.store.queue.isClosing = false ∧
      (x.conn.call (.begin false true)).1 = .ok (.opened 1) ∧
      (∀ e ∈ busyRun, e.ends 1 = false) ∧ y.conn.Paced busyRun ∧
      (y.conn.puts busyRun).map Prod.snd
        = [.ok .done, .ok .done, .error (.queueFull 1 (.ofMilliseconds 1000))] ∧
      v.history.applied = taken ∧
      v.conn.store.committed = SortedMap.ofList [(1, SortedMap.ofList [(5, [9]), (6, [2])])] := by
  intro x y z v taken
  have hidle : x.conn.store.queue.isIdle = true := by decide +kernel
  have haccepting : x.conn.store.queue.isClosing = false := by decide +kernel
  have hbegin : (x.conn.call (.begin false true)).1 = .ok (.opened 1) := by decide +kernel
  have hends : ∀ e ∈ busyRun, e.ends 1 = false := by decide +kernel
  have hpaced : y.conn.Paced busyRun := by decide +kernel
  obtain ⟨houtcomes, -, -, -, hending⟩ :=
    busy_writer_pushes_back { queueCapacity := 0 } idleRun busyRun 1 hidle haccepting hbegin hends
      hpaced
  obtain ⟨-, -, hlater⟩ := hending (.commit 1) (Or.inl rfl)
  obtain ⟨-, hcommitted, happlied, -, -⟩ := hlater [.worker] (by decide +kernel)
  have hanswers : (y.conn.puts busyRun).map Prod.snd
      = [.ok .done, .ok .done, .error (.queueFull 1 (.ofMilliseconds 1000))] := by
    rw [houtcomes]
    decide +kernel
  have happlied' : v.history.applied = taken := by
    rw [happlied]
    decide +kernel
  have hcommitted' : v.conn.store.committed
      = SortedMap.ofList [(1, SortedMap.ofList [(5, [9]), (6, [2])])] := by
    rw [hcommitted]
    decide +kernel
  exact ⟨hidle, haccepting, hbegin, hends, hpaced, hanswers, happlied', hcommitted'⟩

end ObjectStore
