import Mathlib
import ObjectStore.Proofs.Store.Serializability
import ObjectStore.Proofs.Store.Held

/-!
# Connections that no call can tell apart

A put that is rejected has copied the type among the changes of its transaction.  The copy is the
type as it was, so nobody can find out about it: not by a read or a write through a cursor, and not
after the commit, because the changes are installed on the very contents that they were copied from.

Two overlays are `Overlay.Alike` if they have one base and leave the same when they are installed
there.  Two connections are `Connection.Alike` if they differ at most in such overlays.  Main
statements: `Overlay.alike_afterRefusedPut`, and `Connection.Alike.call`, by which every call has
the same answer on connections that are alike and leaves connections that are alike.
-/

namespace ObjectStore

/-! ## Overlays -/

namespace Overlay

variable {o o' o'' : Overlay}

/-- Overlays on one base that leave the same there. -/
structure Alike (o o' : Overlay) : Prop where
  base : o'.base = o.base
  result : o'.result o.base = o.result o.base

namespace Alike

theorem refl (o : Overlay) : o.Alike o := ⟨rfl, rfl⟩

theorem symm (h : o.Alike o') : o'.Alike o where
  base := h.base.symm
  result := by
    rw [h.base]
    exact h.result.symm

theorem trans (h : o.Alike o') (h' : o'.Alike o'') : o.Alike o'' where
  base := h'.base.trans h.base
  result := by
    have hresult := h'.result
    rw [h.base] at hresult
    exact hresult.trans h.result

/-- They show the same payloads. -/
theorem payloads_eq (h : o.Alike o') (type : TypeId) : o'.payloads type = o.payloads type := by
  have hview : o'.view = o.view := by
    rw [← view_result h.base, h.result, view_result rfl]
  exact congrFun hview type

end Alike

/-- A changed type is installed as it is. -/
theorem result_change (o : Overlay) (type : TypeId) (payloads : Payloads) (c : Contents) :
    (o.change type payloads).result c = (o.result c).insert type payloads := by
  refine SortedMap.ext_get? fun other => ?_
  rw [result, result, change, Contents.get?_takeOver, SortedMap.get?_insert, SortedMap.get?_insert,
    Contents.get?_takeOver]
  by_cases h : other = type
  · rw [if_pos h, if_pos h]
    rfl
  · rw [if_neg h, if_neg h]

/-- The same change on both sides. -/
theorem Alike.change (h : o.Alike o') (type : TypeId) (payloads : Payloads) :
    (o.change type payloads).Alike (o'.change type payloads) where
  base := h.base
  result := by
    show (o'.change type payloads).result o.base = (o.change type payloads).result o.base
    rw [result_change, result_change, h.result]

/-- A put has the same outcome on both sides. -/
theorem Alike.put (h : o.Alike o') (type : TypeId) (id : ObjectId) (data : Bytes)
    (mayReplace : Bool) :
    SameOutcome Alike (o.put type id data mayReplace) (o'.put type id data mayReplace) := by
  unfold Overlay.put
  rw [h.payloads_eq]
  refine .after fun _ _ => ?_
  dsimp only
  split
  · exact .error _
  · exact .ok (h.change type _)

/-- A removal has the same outcome on both sides. -/
theorem Alike.remove (h : o.Alike o') (type : TypeId) (id : ObjectId) :
    SameOutcome Alike (o.remove type id) (o'.remove type id) := by
  unfold Overlay.remove
  rw [h.payloads_eq]
  dsimp only
  split
  · exact .ok (h.change type _)
  · exact .error _

/-- A copy of a type with an object in it leaves what was there. -/
theorem alike_copy {type : TypeId} {id : ObjectId} (h : (o.payloads type).contains id = true) :
    o.Alike (o.copy type) where
  base := rfl
  result := by
    -- the type is there, changed or not, since a type that is missing has no objects
    have hthere : (o.result o.base).get? type = some (o.payloads type) := by
      have hshown : ((o.result o.base).get? type).getD ∅ = o.payloads type :=
        congrFun (view_result (o := o) rfl) type
      cases hget : (o.result o.base).get? type with
      | some payloads =>
        rw [hget] at hshown
        exact congrArg some hshown
      | none =>
        rw [hget] at hshown
        rw [← hshown] at h
        cases h
    rw [copy, result_change]
    refine SortedMap.ext_get? fun other => ?_
    rw [SortedMap.get?_insert]
    split
    · rename_i heq
      rw [heq, hthere]
    · rfl

/-- **What a put that failed has done cannot be seen**, neither now nor once it is installed. -/
theorem alike_afterRefusedPut {type : TypeId} {id : ObjectId} {data : Bytes} {mayReplace : Bool}
    {e : StoreError} (h : o.put type id data mayReplace = .error e) :
    o.Alike (o.afterRefusedPut type id data) := by
  unfold afterRefusedPut
  cases hcheck : checkPut id data with
  | error e => exact .refl o
  | ok _ =>
    -- a put that is in order fails only because of an object under its ID
    have hthere : (o.payloads type).contains id = true := by
      by_contra hfree
      have hok : o.put type id data mayReplace
          = .ok (o.change type ((o.payloads type).insert id data)) :=
        put_eq_ok.2 ⟨hcheck, Or.inr (by simpa using hfree), rfl⟩
      rw [hok] at h
      cases h
    exact alike_copy hthere

end Overlay

/-! ## Transactions -/

/-- Transactions of one kind that show the same and, if they write, leave the same. -/
inductive TxnMode.Alike : TxnMode → TxnMode → Prop
  | read (snapshot : Contents) : Alike (.read snapshot) (.read snapshot)
  | write {o o' : Overlay} (h : o.Alike o') : Alike (.write o) (.write o')

namespace TxnMode.Alike

theorem refl (mode : TxnMode) : mode.Alike mode := by
  cases mode with
  | read snapshot => exact .read snapshot
  | write o => exact .write (.refl o)

theorem symm {mode mode' : TxnMode} (h : mode.Alike mode') : mode'.Alike mode := by
  cases h with
  | read snapshot => exact .read snapshot
  | write h => exact .write h.symm

theorem trans {mode mode' mode'' : TxnMode} (h : mode.Alike mode') (h' : mode'.Alike mode'') :
    mode.Alike mode'' := by
  cases h with
  | read snapshot => exact h'
  | write h =>
    cases h' with
    | write h' => exact .write (h.trans h')

theorem payloads_eq {mode mode' : TxnMode} (h : mode.Alike mode') (type : TypeId) :
    mode'.payloads type = mode.payloads type := by
  cases h with
  | read snapshot => rfl
  | write h => exact h.payloads_eq type

end TxnMode.Alike

/-! ## Connections -/

namespace Connection

/-- Connections that differ at most in what nobody can see of their open transactions. -/
structure Alike (conn conn' : Connection) : Prop where
  store : conn'.store = conn.store
  boxes : conn'.boxes = conn.boxes
  cursors : conn'.cursors = conn.cursors
  nextHandle : conn'.nextHandle = conn.nextHandle
  txns : ∀ h, Option.Rel TxnMode.Alike (conn.txns.get? h) (conn'.txns.get? h)

/-- What an open write transaction changes is what is committed. -/
def Based (conn : Connection) : Prop :=
  ∀ h o, conn.txns.get? h = some (.write o) → o.base = conn.store.committed

/-- In every run a write transaction is based on what is committed. -/
theorem based_of_serial {conn : Connection} {hist : History} (hx : Session.Serial ⟨conn, hist⟩) :
    conn.Based := by
  intro h o ho
  have hm := hx.txns h
  simp only [ho] at hm
  cases ht : hist.txns.get? h with
  | none =>
    rw [ht] at hm
    cases hm
  | some t =>
    rw [ht] at hm
    cases hm with
    | write _ hbase _ _ => exact hbase

namespace Alike

variable {conn conn' : Connection}

theorem refl (conn : Connection) : conn.Alike conn where
  store := rfl
  boxes := rfl
  cursors := rfl
  nextHandle := rfl
  txns := by
    intro h
    cases conn.txns.get? h with
    | none => exact .none
    | some mode => exact .some (.refl mode)

theorem symm (h : conn.Alike conn') : conn'.Alike conn where
  store := h.store.symm
  boxes := h.boxes.symm
  cursors := h.cursors.symm
  nextHandle := h.nextHandle.symm
  txns := by
    intro txn
    have hm := h.txns txn
    generalize conn.txns.get? txn = mode at hm ⊢
    generalize conn'.txns.get? txn = mode' at hm ⊢
    cases hm with
    | none => exact .none
    | some hm => exact .some hm.symm

theorem trans {conn'' : Connection} (h : conn.Alike conn') (h' : conn'.Alike conn'') :
    conn.Alike conn'' where
  store := h'.store.trans h.store
  boxes := h'.boxes.trans h.boxes
  cursors := h'.cursors.trans h.cursors
  nextHandle := h'.nextHandle.trans h.nextHandle
  txns := by
    intro txn
    have hm := h.txns txn
    have hm' := h'.txns txn
    generalize conn.txns.get? txn = mode at hm ⊢
    generalize conn'.txns.get? txn = mode' at hm hm'
    generalize conn''.txns.get? txn = mode'' at hm' ⊢
    cases hm with
    | none => exact hm'
    | some hm =>
      cases hm' with
      | some hm' => exact .some (hm.trans hm')

/-- Only the transactions can differ. -/
theorem exists_txns (h : conn.Alike conn') : ∃ txns, conn' = { conn with txns := txns } := by
  obtain ⟨store', boxes', txns', cursors', next'⟩ := conn'
  obtain ⟨rfl, rfl, rfl, rfl, -⟩ := h
  exact ⟨txns', rfl⟩

/-! ### The same change on both sides -/

theorem withStore (h : conn.Alike conn') (store : Store) :
    Alike { conn with store := store } { conn' with store := store } :=
  ⟨rfl, h.boxes, h.cursors, h.nextHandle, h.txns⟩

/-- A transaction begins or has its changes replaced. -/
theorem insertTxn (h : conn.Alike conn') (store : Store) (txn next : Handle) {mode mode' : TxnMode}
    (hmode : mode.Alike mode') :
    Alike { conn with store := store, txns := conn.txns.insert txn mode, nextHandle := next }
      { conn' with store := store, txns := conn'.txns.insert txn mode', nextHandle := next } where
  store := rfl
  boxes := h.boxes
  cursors := h.cursors
  nextHandle := rfl
  txns := by
    intro txn'
    simp only [SortedMap.get?_insert]
    by_cases heq : txn' = txn
    · rw [if_pos heq, if_pos heq]
      exact .some hmode
    · rw [if_neg heq, if_neg heq]
      exact h.txns txn'

theorem setChanges (h : conn.Alike conn') (txn : Handle) {o o' : Overlay} (ho : o.Alike o') :
    (conn.setChanges txn o).Alike (conn'.setChanges txn o') := by
  obtain ⟨txns, rfl⟩ := h.exists_txns
  exact h.insertTxn conn.store txn conn.nextHandle (.write ho)

/-- Changes are replaced by others that show and leave the same. -/
theorem replaceChanges (h : conn.Alike conn') {txn : Handle} {o o' : Overlay}
    (htxn : conn.txns.get? txn = some (.write o)) (ho : o.Alike o') :
    conn.Alike (conn'.setChanges txn o') where
  store := h.store
  boxes := h.boxes
  cursors := h.cursors
  nextHandle := h.nextHandle
  txns := by
    intro txn'
    simp only [Connection.setChanges, SortedMap.get?_insert]
    by_cases heq : txn' = txn
    · rw [if_pos heq, heq, htxn]
      exact .some (.write ho)
    · rw [if_neg heq]
      exact h.txns txn'

theorem endTxn (h : conn.Alike conn') (txn : Handle) (store : Store) :
    Alike { conn.endTxn txn with store := store } { conn'.endTxn txn with store := store } where
  store := rfl
  boxes := h.boxes
  cursors := h.cursors
  nextHandle := h.nextHandle
  txns := by
    intro txn'
    simp only [Connection.endTxn, SortedMap.get?_erase]
    by_cases heq : txn' = txn
    · rw [if_pos heq, if_pos heq]
      exact .none
    · rw [if_neg heq, if_neg heq]
      exact h.txns txn'

/-! ### The same handles -/

theorem txn (h : conn.Alike conn') (txn : Handle) :
    SameOutcome TxnMode.Alike (conn.txn txn) (conn'.txn txn) := by
  have hm := h.txns txn
  unfold Connection.txn
  generalize conn.txns.get? txn = mode at hm ⊢
  generalize conn'.txns.get? txn = mode' at hm ⊢
  cases hm with
  | none => exact .error _
  | some hm => exact .ok hm

theorem cursor (h : conn.Alike conn') (cursor : Handle) :
    SameOutcome (fun r r' => r'.1 = r.1 ∧ r.2.Alike r'.2) (conn.cursor cursor)
      (conn'.cursor cursor) := by
  unfold Connection.cursor
  rw [h.cursors]
  split
  · exact (h.txn _).bind fun mode mode' hm => .ok ⟨rfl, hm⟩
  · exact .error _

theorem writer (h : conn.Alike conn') (cursor : Handle) :
    SameOutcome (fun r r' => r'.1 = r.1 ∧ r.2.Alike r'.2) (conn.writer cursor)
      (conn'.writer cursor) := by
  refine (h.cursor cursor).bind fun r r' hr => ?_
  obtain ⟨c, mode⟩ := r
  obtain ⟨c', mode'⟩ := r'
  obtain ⟨rfl, hm⟩ := hr
  cases hm with
  | read snapshot => exact .error _
  | write ho => exact .ok ⟨rfl, ho⟩

/-! ### The same calls -/

/-- One answer, and connections that are alike. -/
def SameAnswer (r r' : Answer × Connection) : Prop := r'.1 = r.1 ∧ r.2.Alike r'.2

theorem begin (h : conn.Alike conn') (readOnly : Bool) :
    SameOutcome SameAnswer (conn.begin readOnly) (conn'.begin readOnly) := by
  obtain ⟨txns, rfl⟩ := h.exists_txns
  cases readOnly with
  | true => exact .after fun snapshot _ => .ok ⟨rfl, h.insertTxn _ _ _ (.read snapshot)⟩
  | false => exact .after fun r _ => .ok ⟨rfl, h.insertTxn r.2 _ _ (.refl (.write r.1))⟩

/-- A commit installs on both sides what leaves the same, since it is installed on its base. -/
theorem commit (h : conn.Alike conn') (hbase : conn.Based) (txn : Handle) :
    SameOutcome SameAnswer (conn.commit txn) (conn'.commit txn) := by
  have hm := h.txns txn
  obtain ⟨txns, rfl⟩ := h.exists_txns
  unfold Connection.commit Connection.txn
  cases hmode : conn.txns.get? txn with
  | none =>
    rw [hmode] at hm
    generalize txns.get? txn = mode' at hm ⊢
    cases hm
    exact .error _
  | some mode =>
    rw [hmode] at hm
    generalize txns.get? txn = mode' at hm ⊢
    cases hm with
    | some hm =>
      cases hm with
      | read snapshot => exact .ok ⟨rfl, h.endTxn txn conn.store⟩
      | @write o o' ho =>
        have hresult : o'.result conn.store.committed = o.result conn.store.committed := by
          rw [← hbase txn o hmode]
          exact ho.result
        have hinstall : conn.store.install o' = conn.store.install o := by
          rw [Store.install, Store.install, hresult]
        have hcommit : conn.store.commit o' = conn.store.commit o := by
          rw [Store.commit, Store.commit, hinstall]
        show SameOutcome SameAnswer (conn.store.commit o >>= _) (conn.store.commit o' >>= _)
        rw [hcommit]
        exact .after fun store _ => .ok ⟨rfl, h.endTxn txn store⟩

theorem abort (h : conn.Alike conn') (txn : Handle) :
    SameOutcome SameAnswer (conn.abort txn) (conn'.abort txn) := by
  refine (h.txn txn).bind fun mode mode' hm => ?_
  obtain ⟨txns, rfl⟩ := h.exists_txns
  cases hm with
  | read snapshot => exact .ok ⟨rfl, h.endTxn txn conn.store⟩
  | write ho => exact .ok ⟨rfl, h.endTxn txn conn.store.releaseWriter⟩

/-- What is asked through a cursor. -/
theorem look (h : conn.Alike conn') (cursor : Handle)
    {f g : Cursor × TxnMode → Except StoreError (Answer × Connection)}
    (hfg : ∀ c mode mode', mode.Alike mode' → SameOutcome SameAnswer (f (c, mode)) (g (c, mode'))) :
    SameOutcome SameAnswer (conn.cursor cursor >>= f) (conn'.cursor cursor >>= g) := by
  refine (h.cursor cursor).bind fun r r' hr => ?_
  obtain ⟨c, mode⟩ := r
  obtain ⟨c', mode'⟩ := r'
  obtain ⟨rfl, hm⟩ := hr
  exact hfg c' mode mode' hm

/-- A question that only a missing place can refuse. -/
theorem ask (h : conn.Alike conn') (cursor : Handle) (place : Bool) (answer : Payloads → Answer) :
    SameOutcome SameAnswer
      (do let (c, mode) ← conn.cursor cursor
          needPlace place
          return (answer (mode.payloads c.type), conn))
      (do let (c, mode) ← conn'.cursor cursor
          needPlace place
          return (answer (mode.payloads c.type), conn')) := by
  refine h.look cursor fun c mode mode' hm => ?_
  dsimp only
  rw [hm.payloads_eq]
  exact .after fun _ _ => .ok ⟨rfl, h⟩

/-- What is written through a cursor. -/
theorem write (h : conn.Alike conn') (cursor : Handle)
    {f g : Cursor × Overlay → Except StoreError (Answer × Connection)}
    (hfg : ∀ c o o', o.Alike o' → SameOutcome SameAnswer (f (c, o)) (g (c, o'))) :
    SameOutcome SameAnswer (conn.writer cursor >>= f) (conn'.writer cursor >>= g) := by
  refine (h.writer cursor).bind fun r r' hr => ?_
  obtain ⟨c, o⟩ := r
  obtain ⟨c', o'⟩ := r'
  obtain ⟨rfl, ho⟩ := hr
  exact hfg c' o o' ho

/-- **A call has the same outcome on connections that are alike.** -/
theorem call? (h : conn.Alike conn') (hbase : conn.Based) (c : Call) :
    SameOutcome SameAnswer (conn.call? c) (conn'.call? c) := by
  cases c with
  | commit txn => exact h.commit hbase txn
  | abort txn => exact h.abort txn
  | begin readOnly place =>
    obtain ⟨txns, rfl⟩ := h.exists_txns
    exact .after fun _ _ => .after fun _ _ => h.begin readOnly
  | openCursor txn type place =>
    refine .after fun _ _ => (h.txn txn).bind fun _ _ _ => ?_
    obtain ⟨txns, rfl⟩ := h.exists_txns
    exact .after fun _ _ => .ok ⟨rfl, ⟨rfl, rfl, rfl, rfl, h.txns⟩⟩
  | cursorId cursor candidate =>
    refine h.look cursor fun c mode mode' _ => ?_
    obtain ⟨txns, rfl⟩ := h.exists_txns
    exact .after fun r _ => .ok ⟨rfl, h.withStore r.2⟩
  | put cursor id data mayReplace =>
    exact .after fun data _ => h.write cursor fun c o o' ho =>
      (ho.put c.type id data mayReplace).bind fun _ _ ho => .ok ⟨rfl, h.setChanges c.txn ho⟩
  | get cursor id place =>
    refine h.look cursor fun c mode mode' hm => ?_
    dsimp only
    rw [hm.payloads_eq]
    split
    · exact .error _
    · exact .after fun _ _ => .ok ⟨rfl, h⟩
  | getAll cursor place => exact h.ask cursor place (.list ·.values)
  | contains cursor id place => exact h.ask cursor place (.flag <| ·.contains id)
  | count cursor place => exact h.ask cursor place (.count ·.size)
  | remove cursor id =>
    exact h.write cursor fun c o o' ho =>
      (ho.remove c.type id).bind fun _ _ ho => .ok ⟨rfl, h.setChanges c.txn ho⟩
  | removeAll cursor place =>
    refine h.write cursor fun c o o' ho => ?_
    unfold Overlay.removeAll
    dsimp only
    rw [ho.payloads_eq]
    exact .ok ⟨rfl, h.setChanges c.txn (ho.change c.type ∅)⟩
  | register type name =>
    obtain ⟨txns, rfl⟩ := h.exists_txns
    exact .after fun _ _ => .after fun _ _ => .after fun _ _ => .after fun store _ =>
      .ok ⟨rfl, h.withStore store⟩
  | awaitIdle =>
    obtain ⟨txns, rfl⟩ := h.exists_txns
    exact .after fun _ _ => .after fun store _ => .ok ⟨rfl, h.withStore store⟩
  | close =>
    obtain ⟨txns, rfl⟩ := h.exists_txns
    exact .after fun _ _ => .after fun store _ => .ok ⟨rfl, h.withStore store⟩
  | openBox type place =>
    obtain ⟨txns, rfl⟩ := h.exists_txns
    exact .after fun _ _ => .after fun _ _ => .after fun _ _ =>
      .ok ⟨rfl, ⟨rfl, rfl, rfl, rfl, h.txns⟩⟩
  | closeBox box =>
    obtain ⟨txns, rfl⟩ := h.exists_txns
    exact .after fun _ _ => .ok ⟨rfl, ⟨rfl, rfl, rfl, rfl, h.txns⟩⟩
  | boxId box candidate =>
    obtain ⟨txns, rfl⟩ := h.exists_txns
    exact .after fun _ _ => .after fun r _ => .ok ⟨rfl, h.withStore r.2⟩
  | putAsync box id data mayReplace =>
    obtain ⟨txns, rfl⟩ := h.exists_txns
    exact .after fun _ _ => .after fun _ _ => .after fun store _ => .ok ⟨rfl, h.withStore store⟩
  | closeCursor cursor =>
    obtain ⟨txns, rfl⟩ := h.exists_txns
    exact .after fun _ _ => .ok ⟨rfl, ⟨rfl, rfl, rfl, rfl, h.txns⟩⟩

end Alike

/-! ### Calls that fail -/

/-- The commit of a write transaction on a closed store. -/
def RefusedCommit (conn : Connection) : Call → Prop
  | .commit txn => conn.store.closed = true ∧ ∃ o, conn.txns.get? txn = some (.write o)
  | _ => False

variable {conn conn' : Connection} {c : Call} {e : StoreError}

/-- A put that reached the changes of its transaction failed there. -/
theorem put_eq_error {cursor : Handle} {cur : Cursor} {o : Overlay} {id : ObjectId} {data : Bytes}
    {mayReplace : Bool} (hcursor : conn.cursors.get? cursor = some cur)
    (htxn : conn.txns.get? cur.txn = some (.write o))
    (h : conn.call? (.put cursor id (some data) mayReplace) = .error e) :
    o.put cur.type id data mayReplace = .error e := by
  have hw : conn.writer cursor = .ok (cur, o) := writer_eq_ok.2 ⟨hcursor, htxn⟩
  simp only [call?, given, bind, Except.bind, hw] at h
  cases hput : o.put cur.type id data mayReplace with
  | error e' =>
    rw [hput] at h
    cases h
    rfl
  | ok o' =>
    rw [hput] at h
    cases h

/-- **A failing call leaves a connection that is alike**, unless it is a commit that is refused. -/
theorem alike_afterFailure (h : conn.call? c = .error e) (hcommit : ¬ conn.RefusedCommit c) :
    conn.Alike (conn.afterFailure c) := by
  have hleft := conn.leftover_of_failure c
  generalize conn.afterFailure c = conn' at hleft ⊢
  cases hleft with
  | nothing => exact .refl conn
  | refusedCommit htxn =>
    rcases commit_eq_error h with hnone | ⟨o, ho, hclosed⟩
    · rw [hnone] at htxn
      cases htxn
    · exact absurd ⟨hclosed, o, ho⟩ hcommit
  | @refusedPut cursor cur o id data mayReplace hcursor htxn =>
    have hput := put_eq_error hcursor htxn h
    exact (Alike.refl conn).replaceChanges htxn (Overlay.alike_afterRefusedPut hput)

/-- A refused commit ends the transaction and frees the writer. -/
theorem afterFailure_of_refusedCommit (h : conn.RefusedCommit c) :
    ∃ txn o, c = .commit txn ∧ conn.txns.get? txn = some (.write o) ∧ conn.store.closed = true ∧
      conn.call? c = .error .storeClosed ∧
      conn.afterFailure c = { conn.endTxn txn with store := conn.store.releaseWriter } := by
  cases c with
  | commit txn =>
    obtain ⟨hclosed, o, ho⟩ := h
    refine ⟨txn, o, rfl, ho, hclosed, ?_, ?_⟩
    · simp [call?, commit, Connection.txn, ho, Store.commit, Store.requireOpen, hclosed, bind,
        Except.bind]
    · rw [afterFailure, ho]
  | _ => exact absurd h id

namespace Alike

/-- A commit is refused on both sides or on neither. -/
theorem refusedCommit (h : conn.Alike conn') (hc : conn.RefusedCommit c) : conn'.RefusedCommit c := by
  obtain ⟨txn, o, rfl, ho, hclosed, -, -⟩ := afterFailure_of_refusedCommit hc
  have hm := h.txns txn
  rw [ho] at hm
  refine ⟨h.store ▸ hclosed, ?_⟩
  generalize conn'.txns.get? txn = mode' at hm ⊢
  cases hm with
  | some hm =>
    cases hm with
    | @write _ o' _ => exact ⟨o', rfl⟩

/-- A failing call leaves connections that are alike. -/
theorem failure (h : conn.Alike conn') (hfail : conn.call? c = .error e)
    (hfail' : conn'.call? c = .error e) : (conn.afterFailure c).Alike (conn'.afterFailure c) := by
  by_cases hc : conn.RefusedCommit c
  · obtain ⟨txn, -, rfl, -, -, -, hleft⟩ := afterFailure_of_refusedCommit hc
    obtain ⟨txn', -, heq, -, -, -, hleft'⟩ := afterFailure_of_refusedCommit (h.refusedCommit hc)
    cases heq
    rw [hleft, hleft', h.store]
    exact h.endTxn txn conn.store.releaseWriter
  · have hc' : ¬ conn'.RefusedCommit c := fun hc' => hc (h.symm.refusedCommit hc')
    exact ((alike_afterFailure hfail hc).symm.trans h).trans (alike_afterFailure hfail' hc')

/-- **A call has the same answer on connections that are alike**, and leaves connections that are
alike. -/
theorem call (h : conn.Alike conn') (hbase : conn.Based) (c : Call) :
    (conn'.call c).1 = (conn.call c).1 ∧ (conn.call c).2.Alike (conn'.call c).2 := by
  have hsame := h.call? hbase c
  cases hcall : conn.call? c with
  | error e =>
    rw [hcall] at hsame
    cases hcall' : conn'.call? c with
    | error e' =>
      rw [hcall'] at hsame
      cases hsame
      rw [call_of_error hcall, call_of_error hcall']
      exact ⟨rfl, h.failure hcall hcall'⟩
    | ok r' =>
      rw [hcall'] at hsame
      cases hsame
  | ok r =>
    rw [hcall] at hsame
    cases hcall' : conn'.call? c with
    | error e' =>
      rw [hcall'] at hsame
      cases hsame
    | ok r' =>
      rw [hcall'] at hsame
      cases hsame with
      | ok hr =>
        rw [call_of_ok hcall, call_of_ok hcall', hr.1]
        exact ⟨rfl, hr.2⟩

/-- An event keeps connections alike. -/
theorem step (h : conn.Alike conn') (hbase : conn.Based) (event : Event) :
    (conn.step event).Alike (conn'.step event) := by
  cases event with
  | call c => exact (h.call hbase c).2
  | worker =>
    obtain ⟨txns, rfl⟩ := h.exists_txns
    exact h.withStore (conn.store.runWorker 1)
  | closing =>
    obtain ⟨txns, rfl⟩ := h.exists_txns
    exact h.withStore conn.store.stopAccepting

end Alike

end Connection

end ObjectStore
