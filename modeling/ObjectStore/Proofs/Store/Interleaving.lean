import Mathlib
import ObjectStore.Proofs.Store.Batching

/-!
# New objects that wait, and updates that do not

A new object is put asynchronously and may not replace another one; an update of an object is put in a
write transaction and may.  The worker can get to a new object before or after an update of it: an
early insert is replaced, and a late one is rejected.  In both orders the update is what is left
(`Contents.insert_upsert_comm`).

An `Interplay` is a store with one open write transaction at most, in whatever order callers and the
worker act on it.  Main statement: `inserts_commute_with_upserts`.
-/

namespace ObjectStore

/-! ## Objects in contents -/

/-- The object under an ID. -/
def Contents.object (c : Contents) (type : TypeId) (id : ObjectId) : Option Bytes :=
  (c.payloads type).get? id

/-- Contents with one object more, or with another one in its place. -/
def Contents.place (c : Contents) (type : TypeId) (id : ObjectId) (data : Bytes) : Contents :=
  c.insert type ((c.payloads type).insert id data)

/-- A put that may not replace an object, and that can be made otherwise. -/
structure QueuedPut.IsInsert (item : QueuedPut) : Prop where
  mayReplace : item.mayReplace = false
  check : checkPut item.id item.data = .ok ()

/-- A put that may replace an object, and that can be made otherwise. -/
structure QueuedPut.IsUpsert (item : QueuedPut) : Prop where
  mayReplace : item.mayReplace = true
  check : checkPut item.id item.data = .ok ()

/-- What the first of some puts brings under an ID, if there is one. -/
def firstPut (items : List QueuedPut) (type : TypeId) (id : ObjectId) : Option Bytes :=
  (items.find? fun item => item.type = type ∧ item.id = id).map QueuedPut.data

/-- What the last of some puts brings under an ID, if there is one. -/
def lastPut (items : List QueuedPut) (type : TypeId) (id : ObjectId) : Option Bytes :=
  firstPut items.reverse type id

theorem firstPut_append (items later : List QueuedPut) (type : TypeId) (id : ObjectId) :
    firstPut (items ++ later) type id = (firstPut items type id).or (firstPut later type id) := by
  unfold firstPut
  rw [List.find?_append, Option.map_or]

theorem lastPut_cons (item : QueuedPut) (items : List QueuedPut) (type : TypeId) (id : ObjectId) :
    lastPut (item :: items) type id = (lastPut items type id).or (firstPut [item] type id) := by
  unfold lastPut
  rw [List.reverse_cons, firstPut_append]

theorem firstPut_singleton (item : QueuedPut) (type : TypeId) (id : ObjectId) :
    firstPut [item] type id = if item.type = type ∧ item.id = id then some item.data else none := by
  unfold firstPut
  rw [List.find?_singleton]
  by_cases h : item.type = type ∧ item.id = id
  · simp [h]
  · simp [h]

namespace Contents

variable {c : Contents} {type type' : TypeId} {id id' : ObjectId} {data data' : Bytes}
  {item insert upsert : QueuedPut}

theorem payloads_place (c : Contents) (type type' : TypeId) (id : ObjectId) (data : Bytes) :
    (c.place type id data).payloads type'
      = if type' = type then (c.payloads type).insert id data else c.payloads type' := by
  unfold place
  rw [payloads, SortedMap.get?_insert]
  split <;> rfl

/-- The object is found where it was placed, and the others where they were. -/
theorem object_place (c : Contents) (type type' : TypeId) (id id' : ObjectId) (data : Bytes) :
    (c.place type id data).object type' id'
      = if type = type' ∧ id = id' then some data else c.object type' id' := by
  unfold object
  rw [payloads_place]
  by_cases htype : type' = type
  · subst htype
    rw [if_pos rfl, SortedMap.get?_insert]
    simp [eq_comm]
  · rw [if_neg htype, if_neg (fun h => htype h.1.symm)]

/-- An object is replaced by a later one. -/
theorem place_place_self (c : Contents) (type : TypeId) (id : ObjectId) (data data' : Bytes) :
    (c.place type id data).place type id data' = c.place type id data' := by
  rw [place, payloads_place, if_pos rfl, SortedMap.insert_insert_self]
  exact SortedMap.insert_insert_self c type _ _

/-- Objects under different IDs are placed in any order. -/
theorem place_comm (c : Contents) (h : ¬ (type = type' ∧ id = id')) (data data' : Bytes) :
    (c.place type id data).place type' id' data' = (c.place type' id' data').place type id data := by
  rw [place, payloads_place]
  conv_rhs => rw [place, payloads_place]
  by_cases htype : type' = type
  · subst htype
    have hid : id' ≠ id := fun hid => h ⟨rfl, hid.symm⟩
    rw [if_pos rfl, if_pos rfl, SortedMap.insert_comm _ hid]
    unfold place
    rw [SortedMap.insert_insert_self, SortedMap.insert_insert_self]
  · rw [if_neg htype, if_neg (Ne.symm htype)]
    exact SortedMap.insert_comm c htype _ _

/-! ## Single puts -/

/-- A put that meets no object which it may not replace leaves its object in place. -/
theorem afterBatch_eq_place (hcheck : checkPut item.id item.data = .ok ())
    (hnew : item.mayReplace = true ∨ (c.payloads item.type).contains item.id = false) :
    Store.afterBatch c [item] = c.place item.type item.id item.data := by
  have hput := Overlay.put_eq_ok (o := .ofBase c) |>.2 ⟨hcheck, hnew, rfl⟩
  rw [Store.afterBatch, List.foldl_cons, List.foldl_nil, Overlay.attempt, hput]
  exact Overlay.result_change (.ofBase c) item.type _ c

/-- An upsert leaves its object in place. -/
theorem afterBatch_upsert (c : Contents) (h : item.IsUpsert) :
    Store.afterBatch c [item] = c.place item.type item.id item.data :=
  afterBatch_eq_place h.check (Or.inl h.mayReplace)

/-- An insert leaves its object in place where there is none yet. -/
theorem afterBatch_insert (c : Contents) (h : item.IsInsert) :
    Store.afterBatch c [item]
      = if (c.object item.type item.id).isSome then c
        else c.place item.type item.id item.data := by
  split
  · rename_i hthere
    cases hput : (Overlay.ofBase c).put item.type item.id item.data item.mayReplace with
    | ok o =>
      rcases (Overlay.put_eq_ok.1 hput).2.1 with hmay | hfree
      · rw [h.mayReplace] at hmay
        cases hmay
      · exact absurd hthere (Bool.not_eq_true _ |>.mpr hfree)
    | error e =>
      refine Overlay.result_attempt_of_rejected (o := .ofBase c) (e := e) ?_
      rw [Overlay.verdict, hput]
      rfl
  · rename_i hfree
    exact afterBatch_eq_place h.check (Or.inr ((Bool.not_eq_true _).mp hfree))

/-- **An insert and an upsert commute**: an early insert is replaced, a late one is rejected. -/
theorem insert_upsert_comm (c : Contents) (hinsert : insert.IsInsert) (hupsert : upsert.IsUpsert) :
    Store.afterBatch (Store.afterBatch c [upsert]) [insert]
      = Store.afterBatch (Store.afterBatch c [insert]) [upsert] := by
  rw [afterBatch_upsert c hupsert, afterBatch_upsert _ hupsert, afterBatch_insert _ hinsert,
    afterBatch_insert c hinsert, object_place]
  by_cases hsame : upsert.type = insert.type ∧ upsert.id = insert.id
  · rw [if_pos hsame, hsame.1, hsame.2]
    split
    · split
      · rfl
      · rw [place_place_self]
    · simp_all
  · rw [if_neg hsame]
    split
    · rfl
    · exact place_comm c hsame _ _

/-! ## Many puts -/

variable {inserts upserts : List QueuedPut}

/-- Upserts before one insert can as well come after it. -/
theorem insert_upserts_comm (c : Contents) (hinsert : insert.IsInsert)
    (hupserts : ∀ item ∈ upserts, item.IsUpsert) :
    Store.afterBatch (Store.afterBatch c upserts) [insert]
      = Store.afterBatch (Store.afterBatch c [insert]) upserts := by
  induction upserts generalizing c with
  | nil => rfl
  | cons upsert upserts ih =>
    have hupsert := hupserts upsert List.mem_cons_self
    rw [Store.afterBatch_cons c, ih _ fun item h => hupserts item (List.mem_cons_of_mem upsert h),
      insert_upsert_comm c hinsert hupsert, ← Store.afterBatch_cons]

/-- **Inserts and upserts commute.** -/
theorem inserts_upserts_comm (c : Contents) (hinserts : ∀ item ∈ inserts, item.IsInsert)
    (hupserts : ∀ item ∈ upserts, item.IsUpsert) :
    Store.afterBatch (Store.afterBatch c upserts) inserts
      = Store.afterBatch (Store.afterBatch c inserts) upserts := by
  induction inserts generalizing c with
  | nil => rfl
  | cons insert inserts ih =>
    have hinsert := hinserts insert List.mem_cons_self
    rw [Store.afterBatch_cons _ insert, insert_upserts_comm c hinsert hupserts,
      ih _ fun item h => hinserts item (List.mem_cons_of_mem insert h), ← Store.afterBatch_cons]

/-- Of upserts the last one is left. -/
theorem object_upserts (c : Contents) (hupserts : ∀ item ∈ upserts, item.IsUpsert)
    (type : TypeId) (id : ObjectId) :
    (Store.afterBatch c upserts).object type id
      = (lastPut upserts type id).or (c.object type id) := by
  induction upserts generalizing c with
  | nil => rfl
  | cons upsert upserts ih =>
    have hfirst : (Store.afterBatch c [upsert]).object type id
        = (firstPut [upsert] type id).or (c.object type id) := by
      rw [afterBatch_upsert c (hupserts upsert List.mem_cons_self), object_place, firstPut_singleton]
      split <;> rfl
    rw [Store.afterBatch_cons, ih _ fun item h => hupserts item (List.mem_cons_of_mem upsert h),
      hfirst, lastPut_cons, Option.or_assoc]

/-- Of inserts the first one is left, unless there was an object before. -/
theorem object_inserts (c : Contents) (hinserts : ∀ item ∈ inserts, item.IsInsert)
    (type : TypeId) (id : ObjectId) :
    (Store.afterBatch c inserts).object type id
      = (c.object type id).or (firstPut inserts type id) := by
  induction inserts generalizing c with
  | nil => exact (Option.or_none).symm
  | cons insert inserts ih =>
    have hfirst : (Store.afterBatch c [insert]).object type id
        = (c.object type id).or (firstPut [insert] type id) := by
      rw [afterBatch_insert c (hinserts insert List.mem_cons_self), firstPut_singleton]
      split
      · rename_i hthere
        by_cases h : insert.type = type ∧ insert.id = id
        · obtain ⟨rfl, rfl⟩ := h
          rw [Option.or_of_isSome hthere]
        · rw [if_neg h, Option.or_none]
      · rename_i hfree
        rw [object_place]
        by_cases h : insert.type = type ∧ insert.id = id
        · obtain ⟨rfl, rfl⟩ := h
          rw [Option.not_isSome_iff_eq_none.1 hfree]
          rfl
        · rw [if_neg h, if_neg h, Option.or_none]
    rw [Store.afterBatch_cons, ih _ fun item h => hinserts item (List.mem_cons_of_mem insert h),
      hfirst, Option.or_assoc, ← firstPut_append, List.singleton_append]

end Contents

/-! ## Stores at work -/

/-- A put that is accepted waits behind all the others. -/
theorem Store.queued_of_enqueue {s s' : Store} {item : QueuedPut} (h : s.enqueue item = .ok s') :
    checkPut item.id item.data = .ok () ∧ s'.writing = s.writing ∧ s'.committed = s.committed ∧
      s'.queue.unapplied = s.queue.unapplied ++ [item] := by
  obtain ⟨-, hcheck, queue, hpush, rfl⟩ := enqueue_eq_ok.1 h
  obtain ⟨-, -, rfl⟩ := PutQueue.push_eq_ok.1 hpush
  exact ⟨hcheck, rfl, rfl, (List.append_assoc ..).symm⟩

/-- A store with what was asked of it so far.  All puts are written as queued ones. -/
structure Interplay where
  store : Store
  /-- The changes of the open write transaction. -/
  writer : Option Overlay
  /-- The asynchronous puts that were accepted, the oldest first. -/
  inserts : List QueuedPut
  /-- The puts of the open write transaction. -/
  pending : List QueuedPut
  /-- The puts of the committed transactions, the oldest first. -/
  upserts : List QueuedPut

namespace Interplay

/-- What a caller or the worker can do next. -/
inductive Action
  /-- Queues a new object, which may replace no other one. -/
  | insert (type : TypeId) (id : ObjectId) (data : Bytes)
  /-- The worker makes a step, if it can. -/
  | work
  /-- Opens the write transaction. -/
  | begin
  /-- Puts an object in the open write transaction, in place of another one if need be. -/
  | upsert (type : TypeId) (id : ObjectId) (data : Bytes)
  | commit
  | abort
  deriving DecidableEq, Repr

/-- A store of which nothing was asked yet. -/
def start (s : Store) : Interplay :=
  { store := s, writer := none, inserts := [], pending := [], upserts := [] }

/-- The store is left as it is by what it refuses. -/
def act (x : Interplay) : Action → Interplay
  | .insert type id data =>
    match x.store.enqueue ⟨type, id, data, false⟩ with
    | .ok s => { x with store := s, inserts := x.inserts ++ [⟨type, id, data, false⟩] }
    | .error _ => x
  | .work => { x with store := x.store.runWorker 1 }
  | .begin =>
    match x.store.openWriter with
    | .ok (o, s) => { x with store := s, writer := some o, pending := [] }
    | .error _ => x
  | .upsert type id data =>
    match x.writer with
    | none => x
    | some o =>
      match o.put type id data true with
      | .ok o => { x with writer := some o, pending := x.pending ++ [⟨type, id, data, true⟩] }
      | .error _ => { x with writer := some (o.afterRefusedPut type id data) }
  | .commit =>
    match x.writer with
    | none => x
    | some o =>
      match x.store.commit o with
      | .ok s => { x with store := s, writer := none, pending := [], upserts := x.upserts ++ x.pending }
      | .error _ => { x with writer := none, pending := [] }
  | .abort =>
    match x.writer with
    | none => x
    | some _ => { x with store := x.store.releaseWriter, writer := none, pending := [] }

/-- What comes of actions, one after the other. -/
def run (x : Interplay) (actions : List Action) : Interplay := actions.foldl act x

/-- What is committed and what still waits account for everything that was asked, on contents `c`. -/
structure Accounted (c : Contents) (x : Interplay) : Prop where
  inserts : ∀ item ∈ x.inserts, item.IsInsert
  pending : ∀ item ∈ x.pending, item.IsUpsert
  upserts : ∀ item ∈ x.upserts, item.IsUpsert
  unapplied : ∀ item ∈ x.store.queue.unapplied, item ∈ x.inserts
  writer : ∀ o, x.writer = some o → x.store.writing = true ∧
    o = x.pending.foldl Overlay.attempt (.ofBase x.store.committed)
  eventually : x.store.eventually = Store.afterBatch (Store.afterBatch c x.upserts) x.inserts

namespace Accounted

variable {c : Contents} {x : Interplay}

/-- At first nothing was asked. -/
theorem start {s : Store} (hnone : s.queue.unapplied = []) :
    Accounted s.committed (Interplay.start s) where
  inserts := nofun
  pending := nofun
  upserts := nofun
  unapplied := by
    intro item hitem
    have hmem : item ∈ s.queue.unapplied := hitem
    rw [hnone] at hmem
    cases hmem
  writer := nofun
  eventually := by
    show s.eventually = s.committed
    rw [Store.eventually, hnone, Store.afterBatch_nil]

/-- **A new object is accepted**, and will be applied after all the others. -/
theorem insert (h : x.Accounted c) (type : TypeId) (id : ObjectId) (data : Bytes) :
    (x.act (.insert type id data)).Accounted c := by
  unfold act
  dsimp only
  cases henqueue : x.store.enqueue ⟨type, id, data, false⟩ with
  | error e => exact h
  | ok s =>
    obtain ⟨hcheck, hwriting, hcommitted, hunapplied⟩ := Store.queued_of_enqueue henqueue
    refine ⟨?_, h.pending, h.upserts, ?_, fun o ho => ?_, ?_⟩
    · refine List.forall_mem_append.2 ⟨h.inserts, ?_⟩
      exact List.forall_mem_singleton.2 ⟨rfl, hcheck⟩
    · intro item hitem
      dsimp only at hitem ⊢
      rw [hunapplied] at hitem
      exact List.mem_append.2 ((List.mem_append.1 hitem).imp_left (h.unapplied item))
    · dsimp only
      rw [hwriting, hcommitted]
      exact h.writer o ho
    · dsimp only
      rw [Store.eventually, hunapplied, hcommitted, Store.afterBatch_append, Store.afterBatch_append,
        ← h.eventually, Store.eventually]

/-- A step of the worker applies what would be applied anyway. -/
theorem work (h : x.Accounted c) : (x.act .work).Accounted c := by
  unfold act Store.runWorker
  dsimp only
  cases hstep : x.store.workerStep? with
  | none => exact h
  | some s =>
    obtain ⟨batch, hbatch, -⟩ := Store.exists_batch_of_workerStep hstep
    have hworked := Store.worked_workerStep hstep
    refine ⟨h.inserts, h.pending, h.upserts, fun item hitem => ?_, fun o ho => ?_, ?_⟩
    · refine h.unapplied item ?_
      rw [hbatch]
      exact List.mem_append_right batch hitem
    · -- while somebody writes, the worker leaves alone what is committed
      obtain ⟨hwriting, hchanges⟩ := h.writer o ho
      refine ⟨hworked.writing.trans hwriting, hchanges.trans ?_⟩
      exact congrArg (fun c => x.pending.foldl Overlay.attempt (.ofBase c))
        (hworked.committed hwriting).symm
    · exact (Store.eventually_workerStep hstep).trans h.eventually

/-- A write transaction begins with what is committed. -/
theorem begin (h : x.Accounted c) : (x.act .begin).Accounted c := by
  unfold act
  dsimp only
  cases hopen : x.store.openWriter with
  | error e => exact h
  | ok r =>
    obtain ⟨o, s⟩ := r
    obtain ⟨-, -, rfl, rfl⟩ := Store.openWriter_eq_ok.1 hopen
    refine ⟨h.inserts, nofun, h.upserts, h.unapplied, fun o ho => ?_, h.eventually⟩
    obtain rfl := Option.some.inj ho
    exact ⟨rfl, rfl⟩

/-- A put in the open transaction is seen by nobody else. -/
theorem upsert (h : x.Accounted c) (type : TypeId) (id : ObjectId) (data : Bytes) :
    (x.act (.upsert type id data)).Accounted c := by
  unfold act
  dsimp only
  cases hwriter : x.writer with
  | none => exact h
  | some o =>
    obtain ⟨hwriting, hchanges⟩ := h.writer o hwriter
    dsimp only
    cases hput : o.put type id data true with
    | error e =>
      -- an upsert fails only if it may not be made at all, and has changed nothing then
      have hleft : o.afterRefusedPut type id data = o := by
        unfold Overlay.afterRefusedPut
        cases hcheck : checkPut id data with
        | error e => rfl
        | ok _ =>
          have hok : o.put type id data true = .ok _ :=
            Overlay.put_eq_ok.2 ⟨hcheck, Or.inl rfl, rfl⟩
          rw [hok] at hput
          cases hput
      refine ⟨h.inserts, h.pending, h.upserts, h.unapplied, fun o' ho' => ?_, h.eventually⟩
      obtain rfl := Option.some.inj ho'
      exact ⟨hwriting, hleft.trans hchanges⟩
    | ok o' =>
      refine ⟨h.inserts, ?_, h.upserts, h.unapplied, fun o'' ho'' => ?_, h.eventually⟩
      · refine List.forall_mem_append.2 ⟨h.pending, ?_⟩
        exact List.forall_mem_singleton.2 ⟨rfl, (Overlay.put_eq_ok.1 hput).1⟩
      · obtain rfl := Option.some.inj ho''
        refine ⟨hwriting, ?_⟩
        rw [List.foldl_append, ← hchanges, List.foldl_cons, List.foldl_nil, Overlay.attempt, hput]

/-- **A commit overtakes what waits**, and leaves the same as if it had come later. -/
theorem commit (h : x.Accounted c) : (x.act .commit).Accounted c := by
  unfold act
  dsimp only
  cases hwriter : x.writer with
  | none => exact h
  | some o =>
    obtain ⟨-, hchanges⟩ := h.writer o hwriter
    dsimp only
    cases hcommit : x.store.commit o with
    | error e => exact ⟨h.inserts, nofun, h.upserts, h.unapplied, nofun, h.eventually⟩
    | ok s =>
      obtain ⟨-, rfl⟩ := Store.commit_eq_ok.1 hcommit
      have hcommitted : (x.store.install o).committed
          = Store.afterBatch x.store.committed x.pending := by
        rw [hchanges]
        rfl
      have hwaiting : ∀ item ∈ x.store.queue.unapplied, item.IsInsert :=
        fun item hitem => h.inserts item (h.unapplied item hitem)
      refine ⟨h.inserts, nofun, List.forall_mem_append.2 ⟨h.upserts, h.pending⟩, h.unapplied, nofun, ?_⟩
      calc (x.store.install o).eventually
          = Store.afterBatch (Store.afterBatch x.store.committed x.pending)
              x.store.queue.unapplied := by
            rw [Store.eventually, hcommitted]
            rfl
        _ = Store.afterBatch x.store.eventually x.pending :=
          Contents.inserts_upserts_comm _ hwaiting h.pending
        _ = Store.afterBatch (Store.afterBatch (Store.afterBatch c x.upserts) x.inserts) x.pending := by
          rw [h.eventually]
        _ = Store.afterBatch (Store.afterBatch c (x.upserts ++ x.pending)) x.inserts := by
          rw [← Contents.inserts_upserts_comm _ h.inserts h.pending, Store.afterBatch_append c x.upserts]

/-- A transaction that ends without effect has none. -/
theorem abort (h : x.Accounted c) : (x.act .abort).Accounted c := by
  unfold act
  dsimp only
  cases hwriter : x.writer with
  | none => exact h
  | some o => exact ⟨h.inserts, nofun, h.upserts, h.unapplied, nofun, h.eventually⟩

/-- **Every action keeps the account.** -/
theorem act (h : x.Accounted c) (action : Action) : (x.act action).Accounted c := by
  cases action with
  | insert type id data => exact h.insert type id data
  | work => exact h.work
  | begin => exact h.begin
  | upsert type id data => exact h.upsert type id data
  | commit => exact h.commit
  | abort => exact h.abort

theorem run (h : x.Accounted c) (actions : List Action) : (x.run actions).Accounted c := by
  induction actions generalizing x with
  | nil => exact h
  | cons action actions ih => exact ih (h.act action)

/-- Once everything is applied, the committed contents are those of all upserts and then all inserts.
-/
theorem committed (h : x.Accounted c) (hall : x.store.queue.unapplied = []) :
    x.store.committed = Store.afterBatch (Store.afterBatch c x.upserts) x.inserts := by
  have heventually := h.eventually
  rwa [Store.eventually, hall, Store.afterBatch_nil] at heventually

end Accounted

end Interplay

/-! ## The main theorem -/

/-- **Asynchronous inserts commute with synchronous upserts.**  From any store in which nothing waits,
after any actions of its callers and of its worker by which everything that was accepted has been
applied,

* under every ID there is what the last committed upsert brought, otherwise what was there before,
  otherwise what the first accepted insert brought;
* the committed contents are the same as after any other actions by which the same inserts were
  accepted and the same upserts were committed, each in their order. -/
theorem inserts_commute_with_upserts {s : Store} (hnone : s.queue.unapplied = [])
    {actions : List Interplay.Action}
    (hall : ((Interplay.start s).run actions).store.queue.unapplied = []) :
    let x := (Interplay.start s).run actions
    (∀ type id, x.store.committed.object type id
      = (lastPut x.upserts type id).or
          ((s.committed.object type id).or (firstPut x.inserts type id))) ∧
    ∀ actions', let y := (Interplay.start s).run actions'
      y.store.queue.unapplied = [] → y.inserts = x.inserts → y.upserts = x.upserts →
        y.store.committed = x.store.committed := by
  intro x
  have hx : x.Accounted s.committed := (Interplay.Accounted.start hnone).run actions
  refine ⟨fun type id => ?_, fun actions' => ?_⟩
  · rw [hx.committed hall, Contents.object_inserts _ hx.inserts, Contents.object_upserts _ hx.upserts,
      Option.or_assoc]
  · intro y hall' hinserts hupserts
    have hy : y.Accounted s.committed := (Interplay.Accounted.start hnone).run actions'
    rw [hx.committed hall, hy.committed hall', hinserts, hupserts]

namespace Interplay

/-- A store with the object 9. -/
def oneObject : Store := { Store.new {} with committed := Contents.place ∅ 1 9 [9] }

/-- The objects 5, 7 and 9 are queued as new ones, and applied before 5 is updated. -/
def earlyWorker : List Action :=
  [.insert 1 5 [1], .insert 1 7 [1], .work, .work, .work, .insert 1 9 [1], .work, .work, .begin,
    .upsert 1 5 [2], .commit]

/-- They are applied after 5 was updated. -/
def lateWorker : List Action :=
  [.insert 1 5 [1], .begin, .insert 1 7 [1], .upsert 1 5 [2], .work, .commit, .insert 1 9 [1], .work,
    .work, .work, .work]

end Interplay

open Interplay in
/-- The update of 5 is left, and so are the new object 7 and the old one 9. -/
theorem inserts_commute_with_upserts_oneObject :
    let x := (start oneObject).run earlyWorker
    let y := (start oneObject).run lateWorker
    x.inserts.length = 3 ∧ x.upserts.length = 1 ∧ y.store.committed = x.store.committed ∧
      x.store.committed.object 1 5 = some [2] ∧ x.store.committed.object 1 7 = some [1] ∧
      x.store.committed.object 1 9 = some [9] := by
  intro x y
  have hnone : oneObject.queue.unapplied = [] := by decide +kernel
  have hall : ((start oneObject).run earlyWorker).store.queue.unapplied = [] := by decide +kernel
  obtain ⟨hobject, hsame⟩ := inserts_commute_with_upserts hnone hall
  have hcommitted : y.store.committed = x.store.committed :=
    hsame lateWorker (by decide +kernel) (by decide +kernel) (by decide +kernel)
  refine ⟨by decide +kernel, by decide +kernel, hcommitted, ?_, ?_, ?_⟩
  · rw [hobject]
    decide +kernel
  · rw [hobject]
    decide +kernel
  · rw [hobject]
    decide +kernel

end ObjectStore
