import Mathlib
import ObjectStore.Proofs.Store.Serializability

/-!
# Asynchronous puts are applied once and in order

At every moment of a run the accepted puts are, in order, those already applied, those of the batch
in flight and those that wait.  The equation is carried through every event (`Session.InOrder`);
what callers rely on follows from it (`Session.AsyncLaw`): who waits for the queue to be idle or for
the store to close finds every accepted put applied, and what was refused was never queued.

A batch is in flight while the worker carries it.  From the moment at which it is applied its puts
count as applied, each of them tried on its own, although the worker has yet to report them.
-/

namespace ObjectStore

/-! ## The batch in flight -/

/-- The puts that the worker has taken and not yet applied. -/
def PutQueue.inFlight (q : PutQueue) : List QueuedPut :=
  match q.worker with
  | .carrying batch => batch
  | _ => []

/-- What the worker publishes next is what is in flight. -/
theorem Store.flatten_publishing (s : Store) : s.publishing.flatten = s.queue.inFlight := by
  rw [publishing, PutQueue.inFlight]
  cases s.queue.worker <;> simp

/-- An idle queue has nothing in flight and nothing waiting. -/
theorem PutQueue.eq_nil_of_isIdle {q : PutQueue} (h : q.isIdle = true) :
    q.inFlight = [] ∧ q.waiting = [] := by
  simp only [isIdle, Bool.and_eq_true, List.isEmpty_iff] at h
  refine ⟨?_, h.1⟩
  rw [inFlight]
  cases hw : q.worker with
  | carrying batch =>
    have := h.2
    rw [hw] at this
    cases this
  | free => rfl
  | reporting batch => rfl
  | stopped => rfl

/-- A put is queued behind the others if the queue is open and has room. -/
theorem PutQueue.push_eq_ok {q q' : PutQueue} {item : QueuedPut} :
    q.push item = .ok q' ↔ q.isClosing = false ∧ q.waiting.length < q.capacity ∧
      q' = { q with waiting := q.waiting ++ [item] } := by
  rw [push]
  cases q.isClosing with
  | true => simp
  | false =>
    by_cases hfull : q.capacity ≤ q.waiting.length
    · simp [hfull]
    · simp [hfull, Nat.not_le.1 hfull, eq_comm]

/-! ## What the history notes of the queue -/

namespace History

theorem applied_publish (hist : History) (batches : List (List QueuedPut)) :
    (hist.publish batches).applied = hist.applied ++ batches.flatten := by
  simp only [applied, publish, List.flatMap_append, List.flatMap_map]
  congr 1
  induction batches with
  | nil => rfl
  | cons b batches ih => rw [List.flatMap_cons, List.flatten_cons, ih]; rfl

/-- A committed transaction brings no queued put. -/
theorem applied_commit (hist : History) (txn : Handle) :
    (hist.commit txn).applied = hist.applied := by
  rw [commit]
  split
  · split
    · rfl
    · simp [applied, Publication.items]
  · rfl

theorem accepted_commit (hist : History) (txn : Handle) :
    (hist.commit txn).accepted = hist.accepted := by
  rw [commit]
  split
  · split <;> rfl
  · rfl

theorem applied_write (hist : History) (cursor : Handle) (w : TypeId → Write) :
    (hist.write cursor w).applied = hist.applied := by
  rw [applied, publications_write, applied]

theorem accepted_write (hist : History) (cursor : Handle) (w : TypeId → Write) :
    (hist.write cursor w).accepted = hist.accepted := by
  rw [write]
  split
  · split <;> rfl
  · rfl

/-- An accepted put is not yet applied. -/
theorem applied_accept (hist : History) (box : Handle) (put : TypeId → QueuedPut) :
    (hist.accept box put).applied = hist.applied := by
  rw [applied, publications_accept, applied]

/-- Failures are no news for the queue. -/
theorem noteFailure_queue (hist : History) (c : Call) :
    (hist.noteFailure c).applied = hist.applied ∧
      (hist.noteFailure c).accepted = hist.accepted := by
  cases c <;> exact ⟨rfl, rfl⟩

end History

/-! ## The invariant -/

/-- The accepted puts are where they should be, and the queue keeps to the limits of `options`. -/
structure Session.InOrder (options : Options) (s : Store) (hist : History) : Prop where
  accepted : hist.accepted = hist.applied ++ s.queue.inFlight ++ s.queue.waiting
  capacity : s.queue.capacity = max options.queueCapacity 1
  maxBatch : s.queue.maxBatch = max options.maxBatch 1
  waiting_le : s.queue.waiting.length ≤ s.queue.capacity
  batch : ∀ batch, s.queue.worker = .carrying batch ∨ s.queue.worker = .reporting batch →
    1 ≤ batch.length ∧ batch.length ≤ s.queue.maxBatch
  stopped : s.queue.worker = .stopped → s.queue.waiting = [] ∧ s.queue.isClosing = true
  closed : s.closed = true → s.queue.worker = .stopped

namespace Session.InOrder

variable {options : Options} {s : Store} {hist : History}

theorem new (options : Options) : InOrder options (.new options) .empty where
  accepted := rfl
  capacity := rfl
  maxBatch := rfl
  waiting_le := Nat.zero_le _
  batch := by rintro batch (h | h) <;> cases h
  stopped := nofun
  closed := nofun

/-- The invariant looks at the queue, at whether the store is closed and at the two lists of puts.
-/
theorem congr (h : InOrder options s hist) {s' : Store} {hist' : History}
    (hqueue : s'.queue = s.queue) (hclosed : s'.closed = s.closed)
    (happlied : hist'.applied = hist.applied) (haccepted : hist'.accepted = hist.accepted) :
    InOrder options s' hist' := by
  obtain ⟨h₁, h₂, h₃, h₄, h₅, h₆, h₇⟩ := h
  constructor <;> simp_all

/-- A worker that has not stopped works for an open store. -/
theorem not_closed (h : InOrder options s hist) (hw : s.queue.worker ≠ .stopped) :
    s.closed = false := by
  cases hc : s.closed with
  | false => rfl
  | true => exact absurd (h.closed hc) hw

/-- **A step of the worker keeps the order**: taking a batch moves the head of what waits into
flight, applying it moves what is in flight to what is applied. -/
theorem workerStep (h : InOrder options s hist) {s' : Store} (hs : s.workerStep? = some s') :
    InOrder options s' (hist.publish s.publishing) := by
  rcases Store.workerStep?_eq_some hs with
    ⟨hw, hne, rfl⟩ | ⟨batch, hw, -, rfl⟩ | ⟨batch, hw, rfl⟩ | ⟨hw, hnil, hclosing, rfl⟩
  · -- a batch is taken
    rw [Store.publishing_of_not_carrying (by simp [hw]), History.publish_nil]
    have hflight : s.queue.inFlight = [] := by rw [PutQueue.inFlight, hw]
    have hpos : 0 < s.queue.waiting.length := List.length_pos_iff.2 hne
    have hmax : 1 ≤ s.queue.maxBatch := by rw [h.maxBatch]; exact le_max_right _ _
    refine ⟨?_, h.capacity, h.maxBatch, ?_, ?_, fun hstop => ?_, fun hc => ?_⟩
    · calc hist.accepted = hist.applied ++ s.queue.inFlight ++ s.queue.waiting := h.accepted
        _ = hist.applied ++ s.queue.waiting := by rw [hflight, List.append_nil]
        _ = hist.applied ++ s.queue.waiting.take s.queue.maxBatch ++
              s.queue.waiting.drop s.queue.maxBatch := by
          rw [List.append_assoc, List.take_append_drop]
    · have := h.waiting_le
      simp only [List.length_drop]
      omega
    · rintro batch (hb | hb)
      · cases hb
        show 1 ≤ (s.queue.waiting.take s.queue.maxBatch).length ∧
          (s.queue.waiting.take s.queue.maxBatch).length ≤ s.queue.maxBatch
        rw [List.length_take]
        omega
      · cases hb
    · cases hstop
    · rw [h.not_closed (by simp [hw])] at hc
      cases hc
  · -- the batch is applied
    refine ⟨?_, h.capacity, h.maxBatch, h.waiting_le, ?_, fun hstop => ?_, fun hc => ?_⟩
    · rw [History.applied_publish, Store.flatten_publishing]
      simpa [PutQueue.inFlight, History.publish] using h.accepted
    · rintro b (hb | hb)
      · cases hb
      · cases hb
        exact h.batch _ (Or.inl hw)
    · cases hstop
    · rw [h.not_closed (by simp [hw])] at hc
      cases hc
  · -- the batch is reported
    rw [Store.publishing_of_not_carrying (by simp [hw]), History.publish_nil]
    have hflight : s.queue.inFlight = [] := by rw [PutQueue.inFlight, hw]
    refine ⟨?_, h.capacity, h.maxBatch, h.waiting_le, ?_, fun hstop => ?_, fun hc => ?_⟩
    · have haccepted := h.accepted
      rw [hflight] at haccepted
      exact haccepted
    · rintro b (hb | hb) <;> cases hb
    · cases hstop
    · rw [h.not_closed (by simp [hw])] at hc
      cases hc
  · -- the worker stops
    rw [Store.publishing_of_not_carrying (by simp [hw]), History.publish_nil]
    have hflight : s.queue.inFlight = [] := by rw [PutQueue.inFlight, hw]
    refine ⟨?_, h.capacity, h.maxBatch, h.waiting_le, ?_, fun _ => ⟨hnil, hclosing⟩, fun _ => rfl⟩
    · have haccepted := h.accepted
      rw [hflight] at haccepted
      exact haccepted
    · rintro b (hb | hb) <;> cases hb

/-- Any number of worker steps keeps the order. -/
theorem runWorker (h : InOrder options s hist) (n : Nat) :
    InOrder options (s.runWorker n) (hist.publish (s.published n)) :=
  Store.runWorker_induction (fun _ _ _ h hs => h.workerStep hs) n h

/-- Accepting nothing more keeps the order. -/
theorem stopAccepting (h : InOrder options s hist) : InOrder options s.stopAccepting hist :=
  ⟨h.accepted, h.capacity, h.maxBatch, h.waiting_le, h.batch, fun hs => ⟨(h.stopped hs).1, rfl⟩,
    h.closed⟩

/-- **A put is accepted** behind all the others. -/
theorem push (h : InOrder options s hist) {item : QueuedPut} {queue : PutQueue}
    (hpush : s.queue.push item = .ok queue) :
    InOrder options { s with queue := queue }
      { hist with accepted := hist.accepted ++ [item] } := by
  obtain ⟨hopen, hroom, rfl⟩ := PutQueue.push_eq_ok.1 hpush
  refine ⟨?_, h.capacity, h.maxBatch, ?_, h.batch, fun hs => ?_, h.closed⟩
  · show hist.accepted ++ [item]
      = hist.applied ++ s.queue.inFlight ++ (s.queue.waiting ++ [item])
    rw [h.accepted, List.append_assoc]
  · simp only [List.length_append, List.length_singleton]
    omega
  · -- a worker that has stopped would have closed the queue first
    have := (h.stopped hs).2
    rw [hopen] at this
    cases this

end Session.InOrder

/-! ## What an event does to the queue -/

/-- An event leaves the queue alone, queues a put, lets the worker work, or closes. -/
inductive Session.QueueStep (x : Session) : Session → Prop
  | none {y : Session} (hqueue : y.conn.store.queue = x.conn.store.queue)
      (hclosed : y.conn.store.closed = x.conn.store.closed)
      (happlied : y.history.applied = x.history.applied)
      (haccepted : y.history.accepted = x.history.accepted) : QueueStep x y
  | push {y : Session} {item : QueuedPut}
      (hpush : x.conn.store.queue.push item = .ok y.conn.store.queue)
      (hclosed : y.conn.store.closed = x.conn.store.closed)
      (happlied : y.history.applied = x.history.applied)
      (haccepted : y.history.accepted = x.history.accepted ++ [item]) : QueueStep x y
  | work {y : Session} (n : Nat) (hstore : y.conn.store = x.conn.store.runWorker n)
      (hhist : y.history = x.history.publish (x.conn.store.published n)) : QueueStep x y
  | closing {y : Session} (hstore : y.conn.store = x.conn.store.stopAccepting)
      (hhist : y.history = x.history) : QueueStep x y
  | closed {y : Session}
      (hstopped : x.conn.store.stopAccepting.settle.queue.worker = .stopped)
      (hstore : y.conn.store = { x.conn.store.stopAccepting.settle with closed := true })
      (hhist : y.history = x.history.publish x.conn.store.stopAccepting.publishedBySettling) :
      QueueStep x y

namespace Session.QueueStep

variable {conn : Connection} {hist : History}

/-- A write through a cursor is none of the queue's business. -/
theorem write (conn : Connection) (hist : History) (txn : Handle) (o : Overlay) (h : Handle)
    (w : TypeId → Write) : QueueStep ⟨conn, hist⟩ ⟨conn.setChanges txn o, hist.write h w⟩ :=
  .none rfl rfl (hist.applied_write h w) (hist.accepted_write h w)

/-- A successful call does one of these things to the queue. -/
theorem success (hx : Serial ⟨conn, hist⟩) {c : Call} {answer : Answer} {conn' : Connection}
    (h : Connection.Effect conn c answer conn') :
    QueueStep ⟨conn, hist⟩ ⟨conn', hist.noteSuccess conn c answer⟩ := by
  cases h with
  | register _ _ hstore =>
    obtain ⟨types, rfl⟩ := Store.register_eq_ok hstore
    exact .none rfl rfl rfl rfl
  | awaitIdle => exact .work _ rfl rfl
  | close _ hstopped => exact .closed hstopped rfl rfl
  | boxId _ hissue =>
    obtain ⟨-, t, t', -, -, rfl⟩ := Store.issueId_eq_ok.1 hissue
    exact .none rfl rfl rfl rfl
  | @putAsync h type id data mayReplace queue hbox _ _ hpush =>
    have hb : hist.boxes.get? h = some type := by
      rw [← hbox]
      exact congrArg (·.get? h) hx.boxes.symm
    refine .push hpush rfl (hist.applied_accept h _) ?_
    rw [History.noteSuccess, History.accept, hb]
  | commitRead => exact .none rfl rfl (hist.applied_commit _) (hist.accepted_commit _)
  | commitWrite => exact .none rfl rfl (hist.applied_commit _) (hist.accepted_commit _)
  | cursorId _ _ hissue =>
    obtain ⟨-, t, t', -, -, rfl⟩ := Store.issueId_eq_ok.1 hissue
    exact .none rfl rfl rfl rfl
  | put => exact write conn hist _ _ _ (.put · _ _ _)
  | remove => exact write conn hist _ _ _ (.remove · _)
  | removeAll => exact write conn hist _ _ _ .removeAll
  | _ => exact .none rfl rfl rfl rfl

/-- A failing call leaves the queue alone. -/
theorem failure (conn : Connection) (hist : History) (c : Call) :
    QueueStep ⟨conn, hist⟩ ⟨conn.afterFailure c, hist.noteFailure c⟩ := by
  obtain ⟨happlied, haccepted⟩ := hist.noteFailure_queue c
  have hleft := conn.leftover_of_failure c
  generalize conn.afterFailure c = conn' at hleft ⊢
  cases hleft with
  | nothing => exact .none rfl rfl happlied haccepted
  | refusedCommit => exact .none rfl rfl happlied haccepted
  | refusedPut => exact .none rfl rfl happlied haccepted

/-- **Every event does one of these things to the queue.** -/
theorem of_event {x : Session} (hx : x.Serial) (e : Event) : QueueStep x (x.step e) := by
  obtain ⟨conn, hist⟩ := x
  cases e with
  | call c =>
    rcases conn.call_cases c with ⟨answer, conn', heffect, hcall⟩ | ⟨e, -, hcall⟩
    · rw [Session.step_of_ok hcall]
      exact success hx heffect
    · rw [Session.step_of_error hcall]
      exact failure conn hist c
  | worker => exact .work 1 rfl rfl
  | closing => exact .closing rfl rfl

end Session.QueueStep

/-- **Every event keeps the order.** -/
theorem Session.InOrder.step {options : Options} {x : Session}
    (h : InOrder options x.conn.store x.history) (hx : x.Serial) (e : Event) :
    InOrder options (x.step e).conn.store (x.step e).history := by
  cases QueueStep.of_event hx e with
  | none hqueue hclosed happlied haccepted => exact h.congr hqueue hclosed happlied haccepted
  | push hpush hclosed happlied haccepted =>
    exact (h.push hpush).congr rfl hclosed happlied haccepted
  | work n hstore hhist =>
    rw [hstore, hhist]
    exact h.runWorker n
  | closing hstore hhist =>
    rw [hstore, hhist]
    exact h.stopAccepting
  | closed hstopped hstore hhist =>
    rw [hstore, hhist]
    have hsettled : InOrder options x.conn.store.stopAccepting.settle
        (x.history.publish x.conn.store.stopAccepting.publishedBySettling) :=
      h.stopAccepting.runWorker _
    obtain ⟨h₁, h₂, h₃, h₄, h₅, h₆, -⟩ := hsettled
    exact ⟨h₁, h₂, h₃, h₄, h₅, h₆, fun _ => hstopped⟩

/-- The order holds at every moment of every run. -/
theorem Session.InOrder.run (options : Options) (events : List Event) :
    InOrder options (Session.run options events).conn.store
      (Session.run options events).history := by
  refine (Session.run_induction (P := fun x => x.Serial ∧ InOrder options x.conn.store x.history)
    ?_ ?_ events).2
  · exact ⟨.new options, .new options⟩
  · rintro x e ⟨hx, h⟩
    exact ⟨hx.step e, h.step hx e⟩

/-! ## After the queue has stopped accepting -/

/-- The worker neither reopens the queue nor accepts for it. -/
theorem Store.runWorker_isClosing {s : Store} (n : Nat) (h : s.queue.isClosing = true) :
    (s.runWorker n).queue.isClosing = true := by
  have hstep : ∀ s s' : Store, ∀ _ : History, s.queue.isClosing = true →
      s.workerStep? = some s' → s'.queue.isClosing = true := by
    intro s s' _ h hs
    rcases Store.workerStep?_eq_some hs with
      ⟨-, -, rfl⟩ | ⟨_, -, -, rfl⟩ | ⟨_, -, rfl⟩ | ⟨-, -, -, rfl⟩ <;> exact h
  exact @Store.runWorker_induction (fun s _ => s.queue.isClosing = true) hstep n s .empty h

namespace Session

/-- An event after the queue has stopped accepting neither accepts a put nor reopens the queue. -/
theorem QueueStep.closing_persists {x y : Session} (h : QueueStep x y)
    (hclosing : x.conn.store.queue.isClosing = true) :
    y.conn.store.queue.isClosing = true ∧ y.history.accepted = x.history.accepted := by
  cases h with
  | none hqueue _ _ haccepted => exact ⟨hqueue ▸ hclosing, haccepted⟩
  | push hpush =>
    have hopen := (PutQueue.push_eq_ok.1 hpush).1
    rw [hclosing] at hopen
    cases hopen
  | work n hstore hhist =>
    rw [hstore, hhist]
    exact ⟨Store.runWorker_isClosing n hclosing, rfl⟩
  | closing hstore hhist =>
    rw [hstore, hhist]
    exact ⟨rfl, rfl⟩
  | closed _ hstore hhist =>
    rw [hstore, hhist]
    exact ⟨Store.runWorker_isClosing _ rfl, rfl⟩

/-- Nothing is accepted once the queue has stopped accepting. -/
theorem accepted_after {x : Session} (hx : x.Serial)
    (hclosing : x.conn.store.queue.isClosing = true) (later : List Event) :
    (x.after later).history.accepted = x.history.accepted := by
  -- that the queue stays closed has to go along with the induction
  induction later generalizing x with
  | nil => rfl
  | cons e later ih =>
    obtain ⟨hclosing', haccepted⟩ := (QueueStep.of_event hx e).closing_persists hclosing
    exact (ih (hx.step e) hclosing').trans haccepted

/-- What was applied stays applied, in its order. -/
theorem applied_after (x : Session) (later : List Event) :
    x.history.applied <+: (x.after later).history.applied := by
  obtain ⟨tail, htail⟩ := x.publications_after later
  rw [History.applied, History.applied, ← htail, List.flatMap_append]
  exact List.prefix_append _ _

end Session

/-! ## The law -/

/-- What callers of asynchronous puts rely on. -/
structure Session.AsyncLaw (options : Options) (x : Session) : Prop where
  /-- The accepted puts are, in order, those applied, those in flight and those that wait. -/
  order : x.history.accepted
    = x.history.applied ++ x.conn.store.queue.inFlight ++ x.conn.store.queue.waiting
  /-- What is applied is in the committed contents, every put of a batch tried on its own. -/
  visible : ∀ type, x.conn.store.committed.payloads type = x.history.state type
  /-- What is applied stays applied, in its order. -/
  kept : ∀ later, x.history.applied <+: (x.after later).history.applied
  /-- The queue has a bound. -/
  waiting_le : x.conn.store.queue.waiting.length ≤ max options.queueCapacity 1
  /-- A batch is not empty and has a bound. -/
  batch : ∀ batch, x.conn.store.queue.worker = .carrying batch ∨
    x.conn.store.queue.worker = .reporting batch →
      1 ≤ batch.length ∧ batch.length ≤ max options.maxBatch 1
  /-- A put that succeeds is accepted behind all the others. -/
  acceptance : ∀ box id data mayReplace answer,
    (x.conn.call (.putAsync box id data mayReplace)).1 = .ok answer →
      ∃ type payload, data = some payload ∧
        (x.step (.call (.putAsync box id data mayReplace))).history.accepted
          = x.history.accepted ++ [⟨type, id, payload, mayReplace⟩] ∧
        (x.step (.call (.putAsync box id data mayReplace))).conn.store.queue.waiting
          = x.conn.store.queue.waiting ++ [⟨type, id, payload, mayReplace⟩]
  /-- A put that is refused, for whatever reason, leaves no trace. -/
  refusal : ∀ box id data mayReplace e,
    (x.conn.call (.putAsync box id data mayReplace)).1 = .error e →
      x.step (.call (.putAsync box id data mayReplace)) = x
  /-- An idle queue has had every accepted put applied. -/
  idle : x.conn.store.queue.isIdle = true → x.history.applied = x.history.accepted
  /-- Who waited for the queue finds every accepted put applied. -/
  awaited : ∀ answer, (x.conn.call .awaitIdle).1 = .ok answer →
    (x.step (.call .awaitIdle)).history.applied = x.history.accepted
  /-- A queue that has stopped accepting accepts nothing more. -/
  closing : x.conn.store.queue.isClosing = true →
    ∀ later, (x.after later).history.accepted = x.history.accepted
  /-- The worker stops only after it has applied every accepted put and nothing more can come. -/
  stopped : x.conn.store.queue.worker = .stopped →
    x.conn.store.queue.isClosing = true ∧ x.history.applied = x.history.accepted
  /-- A completed close has applied every accepted put, and nothing comes after it. -/
  closed : ∀ answer, (x.conn.call .close).1 = .ok answer → ∀ later,
    ((x.step (.call .close)).after later).history.applied = x.history.accepted ∧
      ((x.step (.call .close)).after later).history.accepted = x.history.accepted

namespace Session

variable {options : Options} {x : Session}

/-- With nothing in flight and nothing waiting everything accepted is applied. -/
theorem InOrder.applied_eq {s : Store} {hist : History} (h : InOrder options s hist)
    (hflight : s.queue.inFlight = []) (hwaiting : s.queue.waiting = []) :
    hist.applied = hist.accepted := by
  rw [h.accepted, hflight, hwaiting, List.append_nil, List.append_nil]

/-- What is applied was accepted. -/
theorem InOrder.applied_within {s : Store} {hist : History} (h : InOrder options s hist) :
    hist.applied <+: hist.accepted := by
  rw [h.accepted, List.append_assoc]
  exact List.prefix_append _ _

/-- A worker that has stopped has left nothing behind. -/
theorem InOrder.applied_of_stopped {s : Store} {hist : History} (h : InOrder options s hist)
    (hw : s.queue.worker = .stopped) : hist.applied = hist.accepted := by
  refine h.applied_eq ?_ (h.stopped hw).1
  rw [PutQueue.inFlight, hw]

/-- The invariants hold after any events from where they hold. -/
theorem InOrder.after (h : InOrder options x.conn.store x.history) (hx : x.Serial)
    (later : List Event) :
    (x.after later).Serial ∧
      InOrder options (x.after later).conn.store (x.after later).history := by
  induction later generalizing x with
  | nil => exact ⟨hx, h⟩
  | cons e later ih => exact ih (h.step hx e) (hx.step e)

/-- A successful put is queued. -/
theorem acceptance_of_call (hx : x.Serial) {box : Handle} {id : ObjectId} {data : Option Bytes}
    {mayReplace : Bool} {answer : Answer}
    (hok : (x.conn.call (.putAsync box id data mayReplace)).1 = .ok answer) :
    ∃ type payload, data = some payload ∧
      (x.step (.call (.putAsync box id data mayReplace))).history.accepted
        = x.history.accepted ++ [⟨type, id, payload, mayReplace⟩] ∧
      (x.step (.call (.putAsync box id data mayReplace))).conn.store.queue.waiting
        = x.conn.store.queue.waiting ++ [⟨type, id, payload, mayReplace⟩] := by
  obtain ⟨conn, hist⟩ := x
  rcases conn.call_cases (.putAsync box id data mayReplace) with
    ⟨answer, conn', heffect, hcall⟩ | ⟨e, -, hcall⟩
  · rw [Session.step_of_ok hcall]
    cases heffect with
    | @putAsync _ type _ payload _ queue hbox _ _ hpush =>
      have hb : hist.boxes.get? box = some type := by
        rw [← hbox]
        exact congrArg (·.get? box) hx.boxes.symm
      obtain ⟨-, -, rfl⟩ := PutQueue.push_eq_ok.1 hpush
      refine ⟨type, payload, rfl, ?_, rfl⟩
      rw [History.noteSuccess, History.accept, hb]
  · rw [hcall] at hok
    cases hok

/-- A refused put leaves the session as it was. -/
theorem refusal_of_call (x : Session) {box : Handle} {id : ObjectId} {data : Option Bytes}
    {mayReplace : Bool} {e : StoreError}
    (herror : (x.conn.call (.putAsync box id data mayReplace)).1 = .error e) :
    x.step (.call (.putAsync box id data mayReplace)) = x := by
  obtain ⟨conn, hist⟩ := x
  rcases conn.call_cases (.putAsync box id data mayReplace) with
    ⟨answer, conn', -, hcall⟩ | ⟨e, -, hcall⟩
  · rw [hcall] at herror
    cases herror
  · rw [Session.step_of_error hcall]
    rfl

/-- Waiting for the queue succeeds once it is idle. -/
theorem awaited_of_call (h : InOrder options x.conn.store x.history) (hx : x.Serial)
    {answer : Answer} (hok : (x.conn.call .awaitIdle).1 = .ok answer) :
    (x.step (.call .awaitIdle)).history.applied = x.history.accepted := by
  have hafter := h.step hx (.call .awaitIdle)
  obtain ⟨conn, hist⟩ := x
  rcases conn.call_cases .awaitIdle with ⟨answer, conn', heffect, hcall⟩ | ⟨e, -, hcall⟩
  · rw [Session.step_of_ok hcall] at hafter ⊢
    cases heffect with
    | awaitIdle _ hidle =>
      obtain ⟨hflight, hwaiting⟩ := PutQueue.eq_nil_of_isIdle hidle
      exact hafter.applied_eq hflight hwaiting
  · rw [hcall] at hok
    cases hok

/-- A close that succeeds leaves a stopped worker and a queue that accepts nothing. -/
theorem closed_of_call {answer : Answer} (hok : (x.conn.call .close).1 = .ok answer) :
    (x.step (.call .close)).conn.store.queue.worker = .stopped ∧
      (x.step (.call .close)).conn.store.queue.isClosing = true ∧
      (x.step (.call .close)).history.accepted = x.history.accepted := by
  obtain ⟨conn, hist⟩ := x
  rcases conn.call_cases .close with ⟨answer, conn', heffect, hcall⟩ | ⟨e, -, hcall⟩
  · rw [Session.step_of_ok hcall]
    cases heffect with
    | close _ hstopped => exact ⟨hstopped, Store.runWorker_isClosing _ rfl, rfl⟩
  · rw [hcall] at hok
    cases hok

/-- After a completed close everything accepted is applied, for good. -/
theorem applied_after_close (h : InOrder options x.conn.store x.history) (hx : x.Serial)
    {answer : Answer} (hok : (x.conn.call .close).1 = .ok answer) (later : List Event) :
    ((x.step (.call .close)).after later).history.applied = x.history.accepted ∧
      ((x.step (.call .close)).after later).history.accepted = x.history.accepted := by
  obtain ⟨hstopped, hclosing, haccepted⟩ := closed_of_call hok
  have hy := hx.step (.call .close)
  have horder := h.step hx (.call .close)
  have hlater : ((x.step (.call .close)).after later).history.accepted = x.history.accepted :=
    (accepted_after hy hclosing later).trans haccepted
  refine ⟨?_, hlater⟩
  -- the applied puts grow from all of them and remain within all of them
  have hall : (x.step (.call .close)).history.applied = x.history.accepted :=
    (horder.applied_of_stopped hstopped).trans haccepted
  have hlower := applied_after (x.step (.call .close)) later
  have hupper := (horder.after hy later).2.applied_within
  rw [hall] at hlower
  rw [hlater] at hupper
  exact hupper.eq_of_length (le_antisymm hupper.length_le hlower.length_le)

end Session

/-- **No asynchronous put is lost, duplicated or reordered**: the law holds at every moment of every
run, in whatever order callers, the worker and who closes the store make their steps. -/
theorem run_asyncLaw (options : Options) (events : List Event) :
    Session.AsyncLaw options (Session.run options events) := by
  have hx := Session.Serial.run options events
  have h := Session.InOrder.run options events
  generalize Session.run options events = x at hx h
  exact {
    order := h.accepted
    visible := fun type => congrFun hx.committed type
    kept := Session.applied_after x
    waiting_le := h.capacity ▸ h.waiting_le
    batch := h.maxBatch ▸ h.batch
    acceptance := fun _ _ _ _ _ hok => Session.acceptance_of_call hx hok
    refusal := fun _ _ _ _ _ herror => x.refusal_of_call herror
    idle := by
      intro hidle
      obtain ⟨hflight, hwaiting⟩ := PutQueue.eq_nil_of_isIdle hidle
      exact h.applied_eq hflight hwaiting
    awaited := fun _ hok => Session.awaited_of_call h hx hok
    closing := fun hclosing later => Session.accepted_after hx hclosing later
    stopped := fun hw => ⟨(h.stopped hw).2, h.applied_of_stopped hw⟩
    closed := fun _ hok later => Session.applied_after_close h hx hok later }

end ObjectStore
