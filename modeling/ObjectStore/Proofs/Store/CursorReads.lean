import Mathlib
import ObjectStore.Proofs.Store.Batching
import ObjectStore.Proofs.Store.CopyOnWrite
import ObjectStore.Proofs.Store.Held
import ObjectStore.Proofs.Store.IdSequence

/-!
# What cursors show

The reads through a cursor are four different questions, and they are answered from a copy, from what
was committed, or from nothing at all where a type has no objects.  They agree on one list of objects
(`Connection.Shows`), the IDs of which ascend.

Whatever may be seen could be put: the IDs of all objects are IDs that objects can have, and no payload
is empty.  This is carried through every event (`Connection.Sound`), however an object arrived.  Main
statement: `cursor_reads_agree`.
-/

namespace ObjectStore

/-! ## Objects that could be put -/

/-- Nothing is seen that could not be put. -/
def View.Sound (v : View) : Prop :=
  ∀ type id data, (v type).get? id = some data → checkPut id data = .ok ()

/-- The rules for puts, taken apart. -/
theorem of_checkPut {id : ObjectId} {data : Bytes} (h : checkPut id data = .ok ()) :
    1 ≤ id ∧ id ≤ highestId ∧ data ≠ [] := by
  unfold checkPut at h
  split at h
  · cases h
  · rename_i hid
    split at h
    · cases h
    · rename_i hdata
      obtain ⟨hzero, hhigh⟩ := not_or.1 hid
      exact ⟨UInt64.pos_iff_ne_zero.2 hzero, UInt64.not_lt.1 hhigh, hdata⟩

namespace View.Sound

variable {v : View}

theorem empty : View.empty.Sound := nofun

/-- Payloads of one type that could be put take the place of others. -/
theorem set (h : v.Sound) (type : TypeId) {payloads : Payloads}
    (hpayloads : ∀ id data, payloads.get? id = some data → checkPut id data = .ok ()) :
    (v.set type payloads).Sound := by
  intro other id data hget
  by_cases htype : other = type
  · rw [htype, set_self] at hget
    exact hpayloads id data hget
  · rw [set_of_ne v payloads htype] at hget
    exact h other id data hget

/-- A put that succeeds passes the rules for puts. -/
theorem put {type : TypeId} {id : ObjectId} {data : Bytes} {mayReplace : Bool} {v' : View}
    (h : v.Sound) (hput : v.put type id data mayReplace = .ok v') : v'.Sound := by
  unfold View.put at hput
  obtain ⟨⟨⟩, hcheck, hput⟩ := bind_eq_ok.1 hput
  dsimp only at hput
  split at hput
  · cases hput
  · cases hput
    refine h.set type fun id' data' hget => ?_
    rw [SortedMap.get?_insert] at hget
    split at hget
    · rename_i heq
      cases hget
      rw [heq, hcheck]
    · exact h type id' data' hget

/-- A removal leaves less. -/
theorem remove {type : TypeId} {id : ObjectId} {v' : View} (h : v.Sound)
    (hremove : v.remove type id = .ok v') : v'.Sound := by
  unfold View.remove at hremove
  split at hremove
  · cases hremove
    refine h.set type fun id' data' hget => ?_
    rw [SortedMap.get?_erase] at hget
    split at hget
    · cases hget
    · exact h type id' data' hget
  · cases hremove

/-- **No write** leaves what could not be put. -/
theorem after (h : v.Sound) (w : Write) : (v.after w).Sound := by
  unfold View.after
  cases hwrite : v.write w with
  | error e => exact h
  | ok v' =>
    cases w with
    | put type id data mayReplace => exact h.put hwrite
    | remove type id => exact h.remove hwrite
    | removeAll type =>
      cases hwrite
      exact h.set type nofun

theorem afterAll (h : v.Sound) (ws : List Write) : (v.afterAll ws).Sound := by
  induction ws generalizing v with
  | nil => exact h
  | cons w ws ih => exact ih (h.after w)

/-- Changes that are installed leave what the overlay shows, and what was there before. -/
theorem install {c : Contents} {o : Overlay} (hc : c.view.Sound) (ho : o.view.Sound) :
    (o.result c).view.Sound := by
  intro type id data hget
  rcases Overlay.get?_of_result hget with hshown | hbefore
  · exact ho type id data hshown
  · exact hc type id data hbefore

end View.Sound

/-- The worker applies nothing that could not be put. -/
theorem Store.sound_runWorker {s : Store} (h : s.committed.view.Sound) (n : Nat) :
    (s.runWorker n).committed.view.Sound := by
  have hstep : ∀ s s' : Store, ∀ _ : History, s.committed.view.Sound →
      s.workerStep? = some s' → s'.committed.view.Sound := by
    intro s s' _ h hs
    obtain ⟨batch, -, hcommitted⟩ := Store.exists_batch_of_workerStep hs
    rw [hcommitted, Store.view_afterBatch]
    exact h.afterAll _
  exact @Store.runWorker_induction (fun s _ => s.committed.view.Sound) hstep n s .empty h

namespace Connection

/-- What is committed and what the open transactions show could be put. -/
structure Sound (conn : Connection) : Prop where
  committed : conn.store.committed.view.Sound
  txns : ∀ {h mode}, conn.txns.get? h = some mode → View.Sound mode.payloads

namespace Sound

variable {conn conn' : Connection}

theorem new (options : Options) : (Connection.new options).Sound := ⟨.empty, nofun⟩

/-- The invariant is about the committed contents and the transactions. -/
theorem keep (h : conn.Sound) (hcommitted : conn'.store.committed.view.Sound)
    (htxns : ∀ {t mode}, conn'.txns.get? t = some mode →
      conn.txns.get? t = some mode ∨ View.Sound mode.payloads) : conn'.Sound where
  committed := hcommitted
  txns := fun ht => (htxns ht).elim h.txns id

/-- A transaction begins, or shows something else. -/
theorem insertTxn (h : conn.Sound) {txn : Handle} (mode : TxnMode)
    (hmode : View.Sound mode.payloads) (htxns : conn'.txns = conn.txns.insert txn mode)
    (hcommitted : conn'.store.committed = conn.store.committed) : conn'.Sound := by
  refine h.keep (hcommitted ▸ h.committed) fun ht => ?_
  rw [htxns, SortedMap.get?_insert] at ht
  split at ht
  · cases ht
    exact Or.inr hmode
  · exact Or.inl ht

/-- A transaction ends. -/
theorem eraseTxn (h : conn.Sound) {txn : Handle} (htxns : conn'.txns = conn.txns.erase txn)
    (hcommitted : conn'.store.committed.view.Sound) : conn'.Sound := by
  refine h.keep hcommitted fun ht => ?_
  rw [htxns, SortedMap.get?_erase] at ht
  split at ht
  · cases ht
  · exact Or.inl ht

/-- A write through a cursor. -/
theorem setChanges (h : conn.Sound) {txn : Handle} {o o' : Overlay}
    (htxn : conn.txns.get? txn = some (.write o)) {w : Write} (hview : o'.view = o.view.after w) :
    (conn.setChanges txn o').Sound := by
  refine h.insertTxn (.write o') ?_ rfl rfl
  show o'.view.Sound
  rw [hview]
  exact View.Sound.after (h.txns htxn) w

/-- A successful call keeps the invariant. -/
theorem success (h : conn.Sound) {c : Call} {answer : Answer} (heffect : Effect conn c answer conn') :
    conn'.Sound := by
  cases heffect with
  | register _ _ hstore =>
    obtain ⟨types, rfl⟩ := Store.register_eq_ok hstore
    exact h.keep h.committed Or.inl
  | awaitIdle => exact h.keep (Store.sound_runWorker h.committed _) Or.inl
  | close => exact h.keep (Store.sound_runWorker (s := conn.store.stopAccepting) h.committed _) Or.inl
  | boxId _ hissue =>
    obtain ⟨-, t, t', -, -, rfl⟩ := Store.issueId_eq_ok.1 hissue
    exact h.keep h.committed Or.inl
  | beginRead => exact h.insertTxn (.read conn.store.committed) h.committed rfl rfl
  | beginWrite =>
    exact h.insertTxn (.write (.ofBase conn.store.committed)) h.committed rfl rfl
  | commitRead => exact h.eraseTxn rfl h.committed
  | commitWrite htxn => exact h.eraseTxn rfl (h.committed.install (h.txns htxn))
  | abortRead => exact h.eraseTxn rfl h.committed
  | abortWrite => exact h.eraseTxn rfl h.committed
  | cursorId _ _ hissue =>
    obtain ⟨-, t, t', -, -, rfl⟩ := Store.issueId_eq_ok.1 hissue
    exact h.keep h.committed Or.inl
  | put _ htxn hput => exact h.setChanges htxn (Overlay.view_of_write (w := .put _ _ _ _) hput)
  | remove _ htxn hremove =>
    exact h.setChanges htxn (Overlay.view_of_write (w := .remove _ _) hremove)
  | removeAll _ htxn => exact h.setChanges htxn (Overlay.view_of_write (w := .removeAll _) rfl)
  | _ => exact h.keep h.committed Or.inl

/-- A failing call keeps the invariant. -/
theorem failure (h : conn.Sound) (c : Call) : (conn.afterFailure c).Sound := by
  have hleft := conn.leftover_of_failure c
  generalize conn.afterFailure c = conn' at hleft
  cases hleft with
  | nothing => exact h
  | refusedCommit => exact h.eraseTxn rfl h.committed
  | @refusedPut _ c o id data _ _ htxn =>
    refine h.insertTxn (.write (o.afterRefusedPut c.type id data)) ?_ rfl rfl
    show (o.afterRefusedPut c.type id data).view.Sound
    rw [Overlay.view_afterRefusedPut]
    exact h.txns htxn

/-- **Every event keeps the invariant.** -/
theorem step (h : conn.Sound) (event : Event) : (conn.step event).Sound := by
  cases event with
  | call c =>
    rcases conn.call_cases c with ⟨answer, conn', heffect, hcall⟩ | ⟨e, -, hcall⟩
    · rw [Connection.step, hcall]
      exact h.success heffect
    · rw [Connection.step, hcall]
      exact h.failure c
  | worker => exact h.keep (Store.sound_runWorker h.committed 1) Or.inl
  | closing => exact h.keep h.committed Or.inl

theorem after (h : conn.Sound) (events : List Event) : (conn.after events).Sound := by
  induction events generalizing conn with
  | nil => exact h
  | cons event events ih => exact ih (h.step event)

end Sound

/-! ## Reads through a cursor -/

/-- The objects of a type: their IDs ascend and are such as objects can have, and no payload is
empty. -/
structure WellFormed (objects : List (ObjectId × Bytes)) : Prop where
  ascending : (objects.map Prod.fst).Pairwise (· < ·)
  range : ∀ object ∈ objects, 1 ≤ object.1 ∧ object.1 ≤ highestId
  nonempty : ∀ object ∈ objects, object.2 ≠ []

/-- The reads through a cursor tell of these objects. -/
structure Shows (conn : Connection) (h : Handle) (objects : List (ObjectId × Bytes)) : Prop where
  getAll : (conn.call (.getAll h true)).1 = .ok (.list (objects.map Prod.snd))
  count : (conn.call (.count h true)).1 = .ok (.count objects.length)
  contains : ∀ id, (conn.call (.contains h id true)).1
    = .ok (.flag (decide (id ∈ objects.map Prod.fst)))
  get : ∀ object ∈ objects, (conn.call (.get h object.1 true)).1 = .ok (.data object.2)
  notFound : ∀ id, id ∉ objects.map Prod.fst → (conn.call (.get h id true)).1 = .error (.notFound id)

/-- A write through a cursor leaves these objects to it.  What cursors on another type or of another
transaction show is not touched, nor is the store. -/
structure Leaves (conn conn' : Connection) (h : Handle) (objects : List (ObjectId × Bytes)) :
    Prop where
  shown : conn'.Shows h objects
  others : ∀ {c h' c' mode'}, conn.cursors.get? h = some c → conn.cursor h' = .ok (c', mode') →
    c' ≠ c → ∀ objects', conn.Shows h' objects' → conn'.Shows h' objects'
  store : conn'.store = conn.store

/-- The removals through a cursor take objects out of these. -/
structure Removes (conn : Connection) (h : Handle) (type : TypeId)
    (objects : List (ObjectId × Bytes)) : Prop where
  remove : ∀ id ∈ objects.map Prod.fst, (conn.call (.remove h id)).1 = .ok .done ∧
    conn.Leaves (conn.call (.remove h id)).2 h (objects.filter fun object => object.1 ≠ id)
  nothing : ∀ id, id ∉ objects.map Prod.fst →
    conn.call (.remove h id) = (.error (.nothingToRemove id type), conn)
  removeAll : (conn.call (.removeAll h true)).1 = .ok (.count objects.length) ∧
    conn.Leaves (conn.call (.removeAll h true)).2 h []

theorem wellFormed_entries {v : View} (hv : v.Sound) (type : TypeId) :
    WellFormed (v type).entries where
  ascending := List.pairwise_map.2 (v type).ascending
  range := fun _ hobject =>
    have hrules := of_checkPut (hv type _ _ (SortedMap.mem_entries_iff.1 hobject))
    ⟨hrules.1, hrules.2.1⟩
  nonempty := fun _ hobject => (of_checkPut (hv type _ _ (SortedMap.mem_entries_iff.1 hobject))).2.2

section Reads

variable {conn conn' : Connection} {h : Handle} {c : Cursor} {mode mode' : TxnMode}
  {objects : List (ObjectId × Bytes)}

/-- **The reads through a cursor** tell of what its transaction shows. -/
theorem shows_entries (hcursor : conn.cursor h = .ok (c, mode)) :
    conn.Shows h (mode.payloads c.type).entries where
  getAll := by
    rw [call_fst]
    simp only [call?, hcursor, needPlace]
    rfl
  count := by
    rw [call_fst]
    simp only [call?, hcursor, needPlace]
    rfl
  contains := fun id => by
    have hmem : decide (id ∈ (mode.payloads c.type).entries.map Prod.fst)
        = (mode.payloads c.type).contains id :=
      Bool.eq_iff_iff.2 (decide_eq_true_iff.trans SortedMap.contains_iff_mem_entries.symm)
    rw [call_fst, hmem]
    simp only [call?, hcursor, needPlace]
    rfl
  get := fun object hobject => by
    have hget := SortedMap.mem_entries_iff.1 hobject
    rw [call_fst]
    simp only [call?, hcursor, needPlace, bind, Except.bind, hget]
    rfl
  notFound := fun id hid => by
    have hget : (mode.payloads c.type).get? id = none :=
      Option.not_isSome_iff_eq_none.1 fun hthere => hid (SortedMap.contains_iff_mem_entries.1 hthere)
    rw [call_fst]
    simp only [call?, hcursor, bind, Except.bind, hget]
    rfl

/-- The reads through a cursor. -/
inductive IsRead (h : Handle) : Call → Prop
  | get (id : ObjectId) : IsRead h (.get h id true)
  | getAll : IsRead h (.getAll h true)
  | contains (id : ObjectId) : IsRead h (.contains h id true)
  | count : IsRead h (.count h true)

/-- A read is answered from what the transaction shows of one type. -/
theorem read_congr (hcursor : conn.cursor h = .ok (c, mode))
    (hcursor' : conn'.cursor h = .ok (c, mode'))
    (hsame : mode'.payloads c.type = mode.payloads c.type) {read : Call} (hread : IsRead h read) :
    (conn'.call read).1 = (conn.call read).1 := by
  rw [call_fst, call_fst]
  cases hread with
  | get id =>
    simp only [call?, hcursor, hcursor', bind, Except.bind, hsame]
    cases (mode.payloads c.type).get? id <;> rfl
  | _ =>
    simp only [call?, hcursor, hcursor', needPlace, bind, Except.bind, hsame]
    rfl

/-- A cursor shows nothing else while its transaction shows the same of its type. -/
theorem Shows.transfer (hshows : conn.Shows h objects) (hcursor : conn.cursor h = .ok (c, mode))
    (hcursor' : conn'.cursor h = .ok (c, mode'))
    (hsame : mode'.payloads c.type = mode.payloads c.type) : conn'.Shows h objects :=
  have hread {read : Call} (hread : IsRead h read) : (conn'.call read).1 = (conn.call read).1 :=
    read_congr hcursor hcursor' hsame hread
  { getAll := (hread .getAll).trans hshows.getAll
    count := (hread .count).trans hshows.count
    contains := fun id => (hread (.contains id)).trans (hshows.contains id)
    get := fun object hobject => (hread (.get object.1)).trans (hshows.get object hobject)
    notFound := fun id hid => (hread (.get id)).trans (hshows.notFound id hid) }

end Reads

/-! ## Removals through a cursor -/

section Removals

variable {conn : Connection} {h : Handle} {c : Cursor} {o : Overlay}

/-- A write on one type through a cursor leaves to it what the changes then show of this type. -/
theorem leaves_setChanges {o' : Overlay} {payloads : Payloads}
    (hcursor : conn.cursor h = .ok (c, .write o)) (hview : o'.view = o.view.set c.type payloads) :
    conn.Leaves (conn.setChanges c.txn o') h payloads.entries := by
  obtain ⟨hc, htxn⟩ := cursor_eq_ok.1 hcursor
  have hcursor' : (conn.setChanges c.txn o').cursor h = .ok (c, .write o') :=
    cursor_eq_ok.2 ⟨hc, SortedMap.get?_insert_self _ _ _⟩
  have hown : (TxnMode.write o').payloads c.type = payloads := by
    show o'.view c.type = payloads
    rw [hview, View.set_self]
  refine ⟨?_, ?_, rfl⟩
  · have hshows := shows_entries hcursor'
    rwa [hown] at hshows
  · intro c₁ h' c' mode' hc₁ hother hne objects hshows
    obtain rfl : c₁ = c := Option.some.inj (hc₁.symm.trans hc)
    obtain ⟨hc', htxn'⟩ := cursor_eq_ok.1 hother
    by_cases hsame : c'.txn = c₁.txn
    · -- Another type of the same transaction.
      have htype : c'.type ≠ c₁.type := fun htype => hne (by cases c'; cases c₁; simp_all)
      obtain rfl : mode' = .write o := by
        rw [hsame, htxn] at htxn'
        exact (Option.some.inj htxn').symm
      have hafter : (conn.setChanges c₁.txn o').cursor h' = .ok (c', .write o') := by
        refine cursor_eq_ok.2 ⟨hc', ?_⟩
        rw [hsame]
        exact SortedMap.get?_insert_self _ _ _
      refine hshows.transfer hother hafter ?_
      show o'.view c'.type = o.view c'.type
      rw [hview, View.set_of_ne _ _ htype]
    · refine hshows.transfer hother (cursor_eq_ok.2 ⟨hc', ?_⟩) rfl
      show (conn.txns.insert c₁.txn (.write o')).get? c'.txn = some mode'
      rw [SortedMap.get?_insert, if_neg hsame, htxn']

/-- **The removals through a cursor** take out what the cursor shows. -/
theorem removes_entries (hcursor : conn.cursor h = .ok (c, .write o)) :
    conn.Removes h c.type (o.payloads c.type).entries := by
  have hwriter : conn.writer h = .ok (c, o) := writer_eq_ok.2 (cursor_eq_ok.1 hcursor)
  refine ⟨fun id hid => ?_, fun id hid => ?_, ?_⟩
  · have hthere : (o.view c.type).contains id = true := SortedMap.contains_iff_mem_entries.2 hid
    obtain ⟨houtcome, hview⟩ := o.perform_spec (.remove c.type id)
    have hwrite : o.view.write (.remove c.type id)
        = .ok (o.view.set c.type ((o.view c.type).erase id)) := if_pos hthere
    have hdone : o.view.outcome (.remove c.type id) = .ok .done := by
      unfold View.outcome
      rw [hwrite]
      rfl
    rw [View.after, hwrite] at hview
    have hcall : conn.call (.remove h id) = _ := call_write (w := .remove c.type id) hwriter rfl
    rw [hcall, ← SortedMap.entries_erase]
    exact ⟨houtcome.trans hdone, leaves_setChanges hcursor hview⟩
  · have hmissing : ¬ (o.payloads c.type).contains id = true :=
      fun hthere => hid (SortedMap.contains_iff_mem_entries.1 hthere)
    have hcall : conn.call (.remove h id) = _ := call_write (w := .remove c.type id) hwriter rfl
    have hfails : o.remove c.type id = .error (.nothingToRemove id c.type) := by
      unfold Overlay.remove
      exact if_neg hmissing
    rw [hcall, Overlay.perform, hfails, setChanges_self (writer_eq_ok.1 hwriter).2]
  · have hcall : conn.call (.removeAll h true) = _ := call_write (w := .removeAll c.type) hwriter rfl
    rw [hcall]
    obtain ⟨houtcome, hview⟩ := o.perform_spec (.removeAll c.type)
    exact ⟨houtcome, leaves_setChanges hcursor hview⟩

end Removals

/-- **The reads of a cursor agree.**  Whatever happened to a store, through cursors and boxes or by its
worker, what an open cursor tells of is one list of objects, with ascending IDs that objects can have
and without an empty payload.

In a write transaction, these objects can be removed and no others.  Each removal takes out its own
object alone; the removal of all says how many they were. -/
theorem cursor_reads_agree (options : Options) (events : List Event) {h : Handle} {c : Cursor}
    {mode : TxnMode}
    (hcursor : ((Connection.new options).after events).cursor h = .ok (c, mode)) :
    let conn := (Connection.new options).after events
    ∃ objects, WellFormed objects ∧ conn.Shows h objects ∧
      ∀ changes, mode = .write changes → conn.Removes h c.type objects := by
  intro conn
  have hsound : conn.Sound := (Sound.new options).after events
  refine ⟨(mode.payloads c.type).entries, ?_, shows_entries hcursor, ?_⟩
  · exact wellFormed_entries (hsound.txns (cursor_eq_ok.1 hcursor).2) c.type
  · rintro changes rfl
    exact removes_entries hcursor

/-- The object 7 was put through the box 0 and applied by the worker, the object 3 through the cursor 2,
which tells of both; the object 7 is the second of them. -/
theorem cursor_reads_agree_twoWays :
    let conn := (Connection.new {}).after
      [.call (.register 1 (some [78])), .call (.openBox 1 true),
        .call (.putAsync 0 7 (some [9]) false), .worker, .worker, .call (.begin false true),
        .call (.openCursor 1 1 true), .call (.put 2 3 (some [1, 2]) true)]
    ∃ objects, WellFormed objects ∧ conn.Shows 2 objects ∧ conn.Removes 2 1 objects ∧
      objects.map Prod.snd = [[1, 2], [9]] := by
  intro conn
  let base : Contents := SortedMap.insert ∅ 1 (SortedMap.insert ∅ 7 [9])
  let changes : Overlay := (Overlay.ofBase base).change 1 ((base.payloads 1).insert 3 [1, 2])
  have hcursor : conn.cursor 2 = .ok (⟨1, 1⟩, .write changes) :=
    cursor_eq_ok.2 ⟨by decide +kernel, by decide +kernel⟩
  obtain ⟨objects, hwellFormed, hshows, hremoves⟩ := cursor_reads_agree {} _ hcursor
  have hread : (conn.call (.getAll 2 true)).1 = .ok (.list [[1, 2], [9]]) := by decide +kernel
  refine ⟨objects, hwellFormed, hshows, hremoves changes rfl, ?_⟩
  injection hshows.getAll.symm.trans hread with hlist
  injection hlist

end Connection

end ObjectStore
