import Mathlib
import ObjectStore.Proofs.Store.Alike

/-!
# Batches leave no trace

The puts of a batch share one overlay: a later one sees what the earlier ones changed and not what is
committed, and one that is rejected may have copied a type.  All the same a batch is no different from
write transactions of its puts, one after the other (`Store.putAlone`), since installing an overlay
between two puts changes nothing for the second (`Overlay.result_attempt`).

How many puts the worker takes at once is therefore without consequence: what will be committed in the
end (`Store.eventually`) stays the same in each of its steps.  Main statement: `batching_is_invisible`.
-/

namespace ObjectStore

/-! ## Overlays -/

namespace Overlay

/-- Whether a queued put succeeds, or why it is rejected. -/
def verdict (o : Overlay) (item : QueuedPut) : Except StoreError Unit :=
  (o.put item.type item.id item.data item.mayReplace).map fun _ => ()

/-- A put is judged by what the overlay shows. -/
theorem verdict_eq (o : Overlay) (item : QueuedPut) :
    o.verdict item
      = (o.view.put item.type item.id item.data item.mayReplace).map fun _ => () := by
  rw [verdict, ← view_put]
  cases o.put item.type item.id item.data item.mayReplace <;> rfl

/-- Nothing is installed from an overlay without changes. -/
theorem result_ofBase (base c : Contents) : (ofBase base).result c = c := rfl

/-- A rejected put leaves what was there. -/
theorem result_attempt_of_rejected {o : Overlay} {item : QueuedPut} {e : StoreError}
    (h : o.verdict item = .error e) : (o.attempt item).result o.base = o.result o.base := by
  unfold verdict at h
  cases hput : o.put item.type item.id item.data item.mayReplace with
  | ok o' =>
    rw [hput] at h
    cases h
  | error e' =>
    rw [attempt, hput]
    exact (alike_afterRefusedPut hput).result

/-- **Installing between two puts changes nothing**: the second one finds the same and leaves the
same. -/
theorem result_attempt (o : Overlay) (item : QueuedPut) :
    (o.attempt item).result o.base = Store.afterBatch (o.result o.base) [item] := by
  have hview : (ofBase (o.result o.base)).view = o.view := view_result rfl
  have hverdict : (ofBase (o.result o.base)).verdict item = o.verdict item := by
    rw [verdict_eq, hview, verdict_eq]
  cases hput : o.put item.type item.id item.data item.mayReplace with
  | error e =>
    have hrejected : o.verdict item = .error e := by rw [verdict, hput]; rfl
    rw [result_attempt_of_rejected hrejected]
    exact (result_attempt_of_rejected (hverdict.trans hrejected)).symm
  | ok o' =>
    obtain ⟨hcheck, hnew, rfl⟩ := put_eq_ok.1 hput
    have hpayloads : (ofBase (o.result o.base)).payloads item.type = o.payloads item.type :=
      congrFun hview item.type
    rw [← hpayloads] at hnew
    have hput' := put_eq_ok.2 ⟨hcheck, hnew, rfl⟩
    rw [Store.afterBatch, List.foldl_cons, List.foldl_nil, attempt, attempt, hput, hput']
    dsimp only
    rw [result_change, result_change, hpayloads, result_ofBase]

end Overlay

namespace Store

variable {s s' : Store} {c : Contents}

/-! ## Batches -/

@[simp] theorem afterBatch_nil (c : Contents) : afterBatch c [] = c := rfl

/-- Two batches are one. -/
theorem afterBatch_append (c : Contents) (batch later : List QueuedPut) :
    afterBatch c (batch ++ later) = afterBatch (afterBatch c batch) later := by
  -- the last put of the later batch is taken off, since it is the one that sees all the others
  have hlast : ∀ (c : Contents) (batch : List QueuedPut) (item : QueuedPut),
      afterBatch c (batch ++ [item]) = afterBatch (afterBatch c batch) [item] := by
    intro c batch item
    have hbase := Overlay.base_foldl_attempt (.ofBase c) batch
    have hstep := Overlay.result_attempt (batch.foldl Overlay.attempt (.ofBase c)) item
    rw [hbase] at hstep
    unfold afterBatch
    rw [List.foldl_append]
    exact hstep
  induction later using List.reverseRecOn with
  | nil => rw [List.append_nil, afterBatch_nil]
  | append_singleton later item ih => rw [← List.append_assoc, hlast, ih, ← hlast]

theorem afterBatch_cons (c : Contents) (item : QueuedPut) (items : List QueuedPut) :
    afterBatch c (item :: items) = afterBatch (afterBatch c [item]) items :=
  afterBatch_append c [item] items

/-- However puts are cut into batches, they are one batch. -/
theorem foldl_afterBatch (c : Contents) (batches : List (List QueuedPut)) :
    batches.foldl afterBatch c = afterBatch c batches.flatten := by
  induction batches generalizing c with
  | nil => rfl
  | cons batch batches ih => rw [List.foldl_cons, ih, List.flatten_cons, afterBatch_append]

/-- In a batch a put is judged as it would be alone, once the puts before it were committed. -/
theorem verdict_afterBatch (c : Contents) (batch : List QueuedPut) (item : QueuedPut) :
    (batch.foldl Overlay.attempt (.ofBase c)).verdict item
      = (Overlay.ofBase (afterBatch c batch)).verdict item := by
  have hview : (afterBatch c batch).view = (batch.foldl Overlay.attempt (.ofBase c)).view :=
    Overlay.view_result (Overlay.base_foldl_attempt (.ofBase c) batch)
  rw [Overlay.verdict_eq, Overlay.verdict_eq, Overlay.view_ofBase, hview]

/-- A put that is rejected can be left out of its batch. -/
theorem afterBatch_of_rejected {before : List QueuedPut} {item : QueuedPut} {e : StoreError}
    (h : (before.foldl Overlay.attempt (.ofBase c)).verdict item = .error e)
    (after : List QueuedPut) :
    afterBatch c (before ++ item :: after) = afterBatch c (before ++ after) := by
  rw [verdict_afterBatch] at h
  have hitem : afterBatch (afterBatch c before) [item] = afterBatch c before :=
    Overlay.result_attempt_of_rejected h
  calc afterBatch c (before ++ item :: after)
      = afterBatch (afterBatch c before) ([item] ++ after) := afterBatch_append c before _
    _ = afterBatch (afterBatch c before) after := by rw [afterBatch_append, hitem]
    _ = afterBatch c (before ++ after) := (afterBatch_append c before after).symm

/-! ## Transactions of one put -/

/-- Makes a put in a write transaction of its own, which is committed if the put succeeds and ended
without effect if the put is rejected. -/
def putAlone (s : Store) (item : QueuedPut) : Except StoreError Store := do
  let (o, s) ← s.openWriter
  match o.put item.type item.id item.data item.mayReplace with
  | .ok o => s.commit o
  | .error _ => return s.releaseWriter

/-- A put in a transaction of its own is a batch. -/
theorem putAlone_eq (hopen : s.closed = false) (hfree : s.writing = false) (item : QueuedPut) :
    s.putAlone item = .ok { s with committed := afterBatch s.committed [item] } := by
  obtain ⟨types, committed, writing, queue, closed⟩ := s
  obtain rfl : closed = false := hopen
  obtain rfl : writing = false := hfree
  refine bind_eq_ok.2 ⟨_, openWriter_eq_ok.2 ⟨rfl, rfl, rfl, rfl⟩, ?_⟩
  dsimp only
  cases hput : (Overlay.ofBase committed).put item.type item.id item.data item.mayReplace with
  | ok o =>
    refine commit_eq_ok.2 ⟨rfl, ?_⟩
    rw [install, afterBatch, List.foldl_cons, List.foldl_nil, Overlay.attempt, hput]
  | error e =>
    have hrejected : (Overlay.ofBase committed).verdict item = .error e := by
      rw [Overlay.verdict, hput]
      rfl
    have hleft : afterBatch committed [item] = committed :=
      Overlay.result_attempt_of_rejected hrejected
    rw [hleft]
    rfl

/-- Puts in transactions of their own, one after the other, are a batch. -/
theorem foldlM_putAlone (hopen : s.closed = false) (hfree : s.writing = false)
    (items : List QueuedPut) :
    items.foldlM putAlone s = .ok { s with committed := afterBatch s.committed items } := by
  induction items generalizing s with
  | nil => rfl
  | cons item items ih =>
    rw [List.foldlM_cons, putAlone_eq hopen hfree, afterBatch_cons s.committed item items]
    exact ih (s := { s with committed := afterBatch s.committed [item] }) hopen hfree

end Store

/-! ## The worker -/

/-- The accepted puts that are not yet applied, in order. -/
def PutQueue.unapplied (q : PutQueue) : List QueuedPut := q.inFlight ++ q.waiting

/-- A queue whose worker gets to everything that waits. -/
structure PutQueue.Attended (q : PutQueue) : Prop where
  maxBatch : 1 ≤ q.maxBatch
  stopped : q.worker = .stopped → q.waiting = []

namespace Store

variable {s s' : Store}

/-- What is committed once every accepted put has been applied. -/
def eventually (s : Store) : Contents := afterBatch s.committed s.queue.unapplied

/-- What a step of the worker commits, if anything, comes off the front of what is not yet applied. -/
theorem exists_batch_of_workerStep (h : s.workerStep? = some s') : ∃ batch,
    s.queue.unapplied = batch ++ s'.queue.unapplied ∧
      s'.committed = afterBatch s.committed batch := by
  unfold PutQueue.unapplied PutQueue.inFlight
  rcases workerStep?_eq_some h with
    ⟨hw, -, rfl⟩ | ⟨batch, hw, -, rfl⟩ | ⟨_, hw, rfl⟩ | ⟨hw, -, -, rfl⟩
  · -- the batch that is taken and what it leaves are what waited
    exact ⟨[], by simp [hw, List.take_append_drop], rfl⟩
  · exact ⟨batch, by simp [hw], rfl⟩
  · exact ⟨[], by simp [hw], rfl⟩
  · exact ⟨[], by simp [hw], rfl⟩

/-- **No step of the worker changes what is committed in the end.** -/
theorem eventually_workerStep (h : s.workerStep? = some s') : s'.eventually = s.eventually := by
  obtain ⟨batch, hbatch, hcommitted⟩ := exists_batch_of_workerStep h
  rw [eventually, eventually, hbatch, hcommitted, afterBatch_append]

/-- No number of its steps does. -/
theorem eventually_runWorker (s : Store) (n : Nat) : (s.runWorker n).eventually = s.eventually := by
  induction n generalizing s with
  | zero => rfl
  | succ n ih =>
    unfold runWorker
    cases h : s.workerStep? with
    | none => rfl
    | some s' => exact (ih s').trans (eventually_workerStep h)

/-- The worker gets to everything after a step as before. -/
theorem attended_workerStep (hq : s.queue.Attended) (h : s.workerStep? = some s') :
    s'.queue.Attended := by
  rcases workerStep?_eq_some h with
    ⟨-, -, rfl⟩ | ⟨_, -, -, rfl⟩ | ⟨_, -, rfl⟩ | ⟨-, hnil, -, rfl⟩
  · exact ⟨hq.maxBatch, nofun⟩
  · exact ⟨hq.maxBatch, nofun⟩
  · exact ⟨hq.maxBatch, nofun⟩
  · exact ⟨hq.maxBatch, fun _ => hnil⟩

/-- A bound on the steps that the worker can still make: three for each put that waits, and those that
it needs for what it is at. -/
def stepsLeft (s : Store) : Nat :=
  3 * s.queue.waiting.length +
    match s.queue.worker with
    | .free => 1
    | .carrying _ => 3
    | .reporting _ => 2
    | .stopped => 0

theorem stepsLeft_le (s : Store) : s.stepsLeft ≤ 3 * s.queue.waiting.length + 3 := by
  unfold stepsLeft
  split <;> omega

theorem stepsLeft_workerStep (hq : s.queue.Attended) (h : s.workerStep? = some s') :
    s'.stepsLeft < s.stepsLeft := by
  have hmax := hq.maxBatch
  unfold stepsLeft
  rcases workerStep?_eq_some h with
    ⟨hw, hne, rfl⟩ | ⟨_, hw, -, rfl⟩ | ⟨_, hw, rfl⟩ | ⟨hw, -, -, rfl⟩
  · have hpos : 0 < s.queue.waiting.length := List.length_pos_iff.2 hne
    simp only [hw, List.length_drop]
    omega
  · simp only [hw]
    omega
  · simp only [hw]
    omega
  · simp only [hw]
    omega

/-- The worker goes as far as it can if it is given that many steps. -/
theorem workerStep?_runWorker {n : Nat} (hq : s.queue.Attended) (hn : s.stepsLeft ≤ n) :
    (s.runWorker n).queue.Attended ∧ (s.runWorker n).workerStep? = none := by
  induction n generalizing s with
  | zero =>
    refine ⟨hq, ?_⟩
    cases h : s.workerStep? with
    | none => exact h
    | some s' =>
      have hless := stepsLeft_workerStep hq h
      omega
  | succ n ih =>
    unfold runWorker
    cases h : s.workerStep? with
    | none => exact ⟨hq, h⟩
    | some s' =>
      have hless := stepsLeft_workerStep hq h
      exact ih (attended_workerStep hq h) (by omega)

/-- A worker that could make a step and does not has applied everything. -/
theorem unapplied_eq_nil (hfree : s.writing = false) (hq : s.queue.Attended)
    (h : s.workerStep? = none) : s.queue.unapplied = [] := by
  unfold workerStep? applyBatch? PutQueue.next? PutQueue.report? at h
  unfold PutQueue.unapplied PutQueue.inFlight
  cases hw : s.queue.worker with
  | free =>
    by_contra hne
    simp [hw] at h hne
    simp [hne] at h
  | carrying batch => simp [hw, hfree] at h
  | reporting batch => simp [hw] at h
  | stopped => exact hq.stopped hw

/-- **Everything is applied** once the worker has gone as far as it can while nobody writes. -/
theorem settle_committed (hfree : s.writing = false) (hq : s.queue.Attended) :
    s.settle.queue.unapplied = [] ∧ s.settle.committed = s.eventually := by
  obtain ⟨hattended, hnone⟩ := workerStep?_runWorker hq s.stepsLeft_le
  have hwriting : s.settle.writing = false := (worked_runWorker s _).writing.trans hfree
  have hnil : s.settle.queue.unapplied = [] := unapplied_eq_nil hwriting hattended hnone
  refine ⟨hnil, ?_⟩
  calc s.settle.committed = s.settle.eventually := by rw [eventually, hnil, afterBatch_nil]
    _ = s.eventually := eventually_runWorker s _

end Store

/-! ## The main theorem -/

open Store in
/-- **Batching is invisible.**  For an open store in which nobody writes, whatever is committed,

* puts that are applied batch by batch, however they are cut into batches, leave the same as a write
  transaction for each of them;
* a put is rejected in its batch if it is in its transaction, for the same reason, and then neither
  the contents nor the verdicts on later puts depend on it;
* whatever number of puts the worker takes at once, it gets to every accepted put and leaves the same
  as a write transaction for each of them. -/
theorem batching_is_invisible {s : Store} (hopen : s.closed = false) (hfree : s.writing = false)
    (hstopped : s.queue.worker = .stopped → s.queue.waiting = []) :
    (∀ batches : List (List QueuedPut), batches.flatten.foldlM putAlone s
      = .ok { s with committed := batches.foldl afterBatch s.committed }) ∧
    (∀ before item, (before.foldl Overlay.attempt (.ofBase s.committed)).verdict item
        = (Overlay.ofBase (afterBatch s.committed before)).verdict item ∧
      ∀ e, (before.foldl Overlay.attempt (.ofBase s.committed)).verdict item = .error e → ∀ after,
        afterBatch s.committed (before ++ item :: after)
          = afterBatch s.committed (before ++ after) ∧
        ∀ later, ((before ++ item :: after).foldl Overlay.attempt (.ofBase s.committed)).verdict later
          = ((before ++ after).foldl Overlay.attempt (.ofBase s.committed)).verdict later) ∧
    ∀ maxBatch, 1 ≤ maxBatch →
      let settled := settle { s with queue := { s.queue with maxBatch := maxBatch } }
      settled.queue.unapplied = [] ∧
        s.queue.unapplied.foldlM putAlone s = .ok { s with committed := settled.committed } := by
  refine ⟨fun batches => ?_, fun before item => ⟨verdict_afterBatch _ _ _, fun e he after => ?_⟩,
    fun maxBatch hmax => ?_⟩
  · rw [foldlM_putAlone hopen hfree, foldl_afterBatch]
  · have hcontents := afterBatch_of_rejected he after
    refine ⟨hcontents, fun later => ?_⟩
    rw [verdict_afterBatch, hcontents, verdict_afterBatch]
  · intro settled
    obtain ⟨hall, hcommitted⟩ :=
      settle_committed (s := { s with queue := { s.queue with maxBatch := maxBatch } }) hfree
        ⟨hmax, hstopped⟩
    refine ⟨hall, ?_⟩
    rw [foldlM_putAlone hopen hfree]
    exact congrArg (fun c => Except.ok { s with committed := c }) hcommitted.symm

/-- Three puts wait, of which the second may not replace what the first one leaves. -/
def waitingRun : List Event :=
  [.call (.register 1 (some [65])), .call (.openBox 1 true),
    .call (.putAsync 0 5 (some [1]) false), .call (.putAsync 0 5 (some [2]) false),
    .call (.putAsync 0 6 (some [3]) true)]

/-- The second put is rejected in a batch with the first, in a batch of its own, and in a transaction
of its own. -/
theorem batching_is_invisible_waitingRun :
    let s := (Session.run {} waitingRun).conn.store
    let c : Contents := SortedMap.ofList [(1, SortedMap.ofList [(5, [1]), (6, [3])])]
    s.queue.unapplied.length = 3 ∧
      (Store.settle { s with queue := { s.queue with maxBatch := 1 } }).committed = c ∧
      (Store.settle { s with queue := { s.queue with maxBatch := 2 } }).committed = c ∧
      s.queue.unapplied.foldlM Store.putAlone s = .ok { s with committed := c } := by
  intro s c
  have hworker : s.queue.worker ≠ .stopped := by decide +kernel
  obtain ⟨-, -, hsettled⟩ := batching_is_invisible (s := s) (by decide +kernel) (by decide +kernel)
    fun h => absurd h hworker
  have hone : (Store.settle { s with queue := { s.queue with maxBatch := 1 } }).committed = c := by
    decide +kernel
  obtain ⟨-, halone⟩ := hsettled 1 le_rfl
  obtain ⟨-, halone'⟩ := hsettled 2 (by omega)
  have hboth := Except.ok.inj (halone.symm.trans halone')
  rw [hone] at halone hboth
  exact ⟨by decide +kernel, hone, (congrArg Store.committed hboth).symm, halone⟩

end ObjectStore
