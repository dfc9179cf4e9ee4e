import Mathlib
import ObjectStore.Proofs.Store.History

/-!
# Serializability

Every run of a store is worth a serial one.  What is committed is at every moment the serial state
of the history (`History.state`): the writes of every committed transaction and of every published
batch, each publication as a whole, in the order of publication.  And every read or write through a
cursor is answered as the serial state at the begin of its transaction answers it, with the
transaction's own earlier writes on top (`History.answer?`).

The invariant behind this is `Session.Serial`.  The part that nobody writes down in the store itself
is in `TxnMatches.write`: an open write transaction is based on what is committed *now*.
-/

namespace ObjectStore

/-! ## One writer -/

/-- At most one transaction writes, and the store knows of it. -/
structure Connection.OneWriter (conn : Connection) : Prop where
  writing : ∀ {h o}, conn.txns.get? h = some (.write o) → conn.store.writing = true
  unique : ∀ {h h' o o'}, conn.txns.get? h = some (.write o) →
    conn.txns.get? h' = some (.write o') → h = h'

namespace Connection.OneWriter

variable {conn : Connection}

/-- Fewer write transactions are no more than one. -/
theorem mono {conn' : Connection} (hc : conn.OneWriter) (hw : conn'.store.writing = true ∨
      ∀ h o, conn'.txns.get? h ≠ some (.write o))
    (ht : ∀ h o, conn'.txns.get? h = some (.write o) →
      ∃ o', conn.txns.get? h = some (.write o')) : conn'.OneWriter where
  writing := by
    intro h o ho
    rcases hw with hw | hw
    · exact hw
    · exact absurd ho (hw h o)
  unique := by
    intro h h' o o' ho ho'
    obtain ⟨p, hp⟩ := ht h o ho
    obtain ⟨p', hp'⟩ := ht h' o' ho'
    exact hc.unique hp hp'

/-- With its write transaction a connection loses its only one. -/
theorem no_writer_after_erase (hc : conn.OneWriter) {h : Handle} {o : Overlay}
    (ho : conn.txns.get? h = some (.write o)) (h' : Handle) (o' : Overlay) :
    (conn.txns.erase h).get? h' ≠ some (.write o') := by
  rw [SortedMap.get?_erase]
  by_cases hh : h' = h
  · simp [hh]
  · rw [if_neg hh]
    intro ho'
    exact hh (hc.unique ho' ho)

end Connection.OneWriter

/-! ## The invariant -/

/-- An open transaction of the history and one of the connection show the same, over contents
`committed`. -/
inductive TxnMatches (committed : Contents) : Option OpenTxn → Option TxnMode → Prop
  | none : TxnMatches committed none none
  | read {t : OpenTxn} {snapshot : Contents} (hread : t.isReadOnly = true) (hwrites : t.writes = [])
      (hstart : snapshot.view = t.start) : TxnMatches committed (some t) (some (.read snapshot))
  | write {t : OpenTxn} {o : Overlay} (hwrite : t.isReadOnly = false) (hbase : o.base = committed)
      (hstart : t.start = committed.view) (hview : o.view = t.view) :
      TxnMatches committed (some t) (some (.write o))

/-- What is committed matters to write transactions only. -/
theorem TxnMatches.of_not_write {committed committed' : Contents} {t : Option OpenTxn}
    {mode : Option TxnMode} (h : TxnMatches committed t mode)
    (hmode : ∀ o, mode ≠ some (.write o)) : TxnMatches committed' t mode := by
  cases h with
  | none => exact .none
  | read hread hwrites hstart => exact .read hread hwrites hstart
  | write hwrite hbase hstart hview => exact absurd rfl (hmode _)

/-- Matching transactions show the same payloads of every type. -/
theorem TxnMatches.payloads_eq {committed : Contents} {t : OpenTxn} {mode : TxnMode}
    (h : TxnMatches committed (some t) (some mode)) (type : TypeId) :
    mode.payloads type = t.view type := by
  cases h with
  | read _ hwrites hstart =>
    rw [OpenTxn.view, hwrites, View.afterAll_nil, ← hstart]
    rfl
  | write _ _ _ hview =>
    rw [← hview]
    rfl

/-- The history of a session tells what its connection holds. -/
structure Session.Serial (x : Session) : Prop where
  committed : x.conn.store.committed.view = x.history.state
  cursors : x.conn.cursors = x.history.cursors
  boxes : x.conn.boxes = x.history.boxes
  txns : ∀ h, TxnMatches x.conn.store.committed (x.history.txns.get? h) (x.conn.txns.get? h)
  oneWriter : x.conn.OneWriter

namespace Session.Serial

variable {conn : Connection} {hist : History}

/-- A new store has an empty history. -/
theorem new (options : Options) : (Session.new options).Serial where
  committed := rfl
  cursors := rfl
  boxes := rfl
  txns := fun _ => .none
  oneWriter := ⟨nofun, nofun⟩

/-- The invariant looks at the committed contents of a store and at whether it has a writer. -/
theorem withStore (hx : Serial ⟨conn, hist⟩) {store : Store}
    (hcommitted : store.committed = conn.store.committed)
    (hwriting : store.writing = conn.store.writing) :
    Serial ⟨{ conn with store := store }, hist⟩ where
  committed := by rw [← hx.committed, hcommitted]
  cursors := hx.cursors
  boxes := hx.boxes
  txns := by rw [hcommitted]; exact hx.txns
  oneWriter := ⟨fun ho => hwriting.trans (hx.oneWriter.writing ho), hx.oneWriter.unique⟩

/-- The same boxes are opened and closed on both sides. -/
theorem withBoxes (hx : Serial ⟨conn, hist⟩) {boxes boxes' : SortedMap Handle TypeId}
    (hboxes : boxes = boxes') (next : Handle) :
    Serial ⟨{ conn with boxes := boxes, nextHandle := next }, { hist with boxes := boxes' }⟩ :=
  ⟨hx.committed, hx.cursors, hboxes, hx.txns, ⟨hx.oneWriter.writing, hx.oneWriter.unique⟩⟩

/-- The same cursors are opened and closed on both sides. -/
theorem withCursors (hx : Serial ⟨conn, hist⟩) {cursors cursors' : SortedMap Handle Cursor}
    (hcursors : cursors = cursors') (next : Handle) :
    Serial ⟨{ conn with cursors := cursors, nextHandle := next },
      { hist with cursors := cursors' }⟩ :=
  ⟨hx.committed, hcursors, hx.boxes, hx.txns, ⟨hx.oneWriter.writing, hx.oneWriter.unique⟩⟩

/-- Which asynchronous puts were accepted plays no part. -/
theorem accept (hx : Serial ⟨conn, hist⟩) (box : Handle) (put : TypeId → QueuedPut) :
    Serial ⟨conn, hist.accept box put⟩ := by
  rw [History.accept]
  split
  · exact ⟨hx.committed, hx.cursors, hx.boxes, hx.txns, hx.oneWriter⟩
  · exact hx

/-! ## Publications -/

/-- A publication after others. -/
theorem state_concat (hist : History) (p : Publication) :
    ({ hist with publications := hist.publications ++ [p] } : History).state
      = hist.state.afterAll p.writes := by
  simp [History.state]

/-- A step of the worker keeps the invariant: it publishes only where nobody writes. -/
theorem workerStep (hx : Serial ⟨conn, hist⟩) {s : Store} (hs : conn.store.workerStep? = some s) :
    Serial ⟨{ conn with store := s }, hist.publish conn.store.publishing⟩ := by
  rcases Store.workerStep?_eq_some hs with
    ⟨hw, -, rfl⟩ | ⟨batch, hw, hfree, rfl⟩ | ⟨batch, hw, rfl⟩ | ⟨hw, -, -, rfl⟩
  · rw [Store.publishing_of_not_carrying (by simp [hw]), History.publish_nil]
    exact hx.withStore rfl rfl
  · -- nobody writes, so no open transaction is based on what the batch replaces
    have hnone : ∀ h o, conn.txns.get? h ≠ some (.write o) := by
      intro h o ho
      have := hx.oneWriter.writing ho
      rw [hfree] at this
      cases this
    have hbatch : hist.publish conn.store.publishing
        = { hist with publications := hist.publications ++ [.batch batch] } := by
      rw [Store.publishing_of_carrying hw]
      rfl
    rw [hbatch]
    refine ⟨?_, hx.cursors, hx.boxes, fun h => (hx.txns h).of_not_write (hnone h),
      ⟨fun ho => absurd ho (hnone _ _), hx.oneWriter.unique⟩⟩
    calc (Store.afterBatch conn.store.committed batch).view
        = conn.store.committed.view.afterAll (batch.map QueuedPut.toWrite) :=
          Store.view_afterBatch conn.store.committed batch
      _ = hist.state.afterAll (batch.map QueuedPut.toWrite) := by rw [hx.committed]
      _ = _ := (state_concat hist (.batch batch)).symm
  · rw [Store.publishing_of_not_carrying (by simp [hw]), History.publish_nil]
    exact hx.withStore rfl rfl
  · rw [Store.publishing_of_not_carrying (by simp [hw]), History.publish_nil]
    exact hx.withStore rfl rfl

/-- Any number of worker steps keeps the invariant. -/
theorem runWorker (hx : Serial ⟨conn, hist⟩) (n : Nat) :
    Serial ⟨{ conn with store := conn.store.runWorker n },
      hist.publish (conn.store.published n)⟩ :=
  Store.runWorker_induction (P := fun s hist => Serial ⟨{ conn with store := s }, hist⟩)
    (fun _ _ _ h hs => h.workerStep hs) n hx

/-- Settling keeps the invariant. -/
theorem settle (hx : Serial ⟨conn, hist⟩) :
    Serial ⟨{ conn with store := conn.store.settle },
      hist.publish conn.store.publishedBySettling⟩ :=
  hx.runWorker (3 * conn.store.queue.waiting.length + 3)

/-! ## Transactions -/

/-- A transaction that is taken out on both sides is closed on both. -/
theorem txns_erase {committed : Contents} (h h' : Handle)
    (hother : h' ≠ h → TxnMatches committed (hist.txns.get? h') (conn.txns.get? h')) :
    TxnMatches committed ((hist.txns.erase h).get? h') ((conn.txns.erase h).get? h') := by
  rw [SortedMap.get?_erase, SortedMap.get?_erase]
  by_cases hh : h' = h
  · rw [if_pos hh, if_pos hh]
    exact .none
  · rw [if_neg hh, if_neg hh]
    exact hother hh

/-- A transaction ends and leaves the store as it is. -/
theorem endTxn (hx : Serial ⟨conn, hist⟩) (h : Handle) :
    Serial ⟨conn.endTxn h, hist.forget h⟩ where
  committed := hx.committed
  cursors := hx.cursors
  boxes := hx.boxes
  txns := fun h' => txns_erase h h' fun _ => hx.txns h'
  oneWriter := by
    have hsub : ∀ {h' o}, (conn.txns.erase h).get? h' = some (.write o) →
        conn.txns.get? h' = some (.write o) := by
      intro h' o ho
      rw [SortedMap.get?_erase] at ho
      split at ho
      · cases ho
      · exact ho
    exact ⟨fun ho => hx.oneWriter.writing (hsub ho),
      fun ho ho' => hx.oneWriter.unique (hsub ho) (hsub ho')⟩

/-- The write transaction ends without effect. -/
theorem endWriter (hx : Serial ⟨conn, hist⟩) {h : Handle} {o : Overlay}
    (ho : conn.txns.get? h = some (.write o)) :
    Serial ⟨{ conn.endTxn h with store := conn.store.releaseWriter }, hist.forget h⟩ where
  committed := hx.committed
  cursors := hx.cursors
  boxes := hx.boxes
  txns := fun h' => txns_erase h h' fun _ => hx.txns h'
  oneWriter :=
    ⟨fun ho' => absurd ho' (hx.oneWriter.no_writer_after_erase ho _ _),
      fun ho' => absurd ho' (hx.oneWriter.no_writer_after_erase ho _ _)⟩

/-- **The write transaction is committed**: what it is based on is what was committed, so installing
it leaves what it showed, and that is the serial state with its writes on top. -/
theorem commitWriter (hx : Serial ⟨conn, hist⟩) {h : Handle} {o : Overlay}
    (ho : conn.txns.get? h = some (.write o)) :
    Serial ⟨{ conn.endTxn h with store := conn.store.install o }, hist.commit h⟩ := by
  have hm := hx.txns h
  simp only [ho] at hm
  cases ht : hist.txns.get? h with
  | none =>
    simp only [ht] at hm
    cases hm
  | some t =>
    simp only [ht] at hm
    cases hm with
    | write hwrite hbase hstart hview =>
      have hhist : hist.commit h
          = { hist.forget h with publications := hist.publications ++ [.commit t.writes] } := by
        rw [History.commit, ht]
        simp [hwrite]
      rw [hhist]
      refine ⟨?_, hx.cursors, hx.boxes, fun h' => txns_erase h h' fun hh => ?_,
        ⟨fun ho' => absurd ho' (hx.oneWriter.no_writer_after_erase ho _ _),
          fun ho' => absurd ho' (hx.oneWriter.no_writer_after_erase ho _ _)⟩⟩
      · -- the overlay is still based on what is committed, so it may be installed as it is
        calc (o.result conn.store.committed).view
            = o.view := Overlay.view_result hbase
          _ = t.start.afterAll t.writes := hview
          _ = hist.state.afterAll t.writes := by rw [hstart, hx.committed]
          _ = _ := (state_concat hist (.commit t.writes)).symm
      · exact (hx.txns h').of_not_write fun o' ho' => hh (hx.oneWriter.unique ho' ho)

/-- A write through a cursor of the write transaction. -/
theorem write (hx : Serial ⟨conn, hist⟩) {h : Handle} {c : Cursor} {o o' : Overlay}
    {w : TypeId → Write} (hcursor : conn.cursors.get? h = some c)
    (ho : conn.txns.get? c.txn = some (.write o)) (hw : o.write (w c.type) = .ok o') :
    Serial ⟨conn.setChanges c.txn o', hist.write h w⟩ := by
  have hc : hist.cursors.get? h = some c := by
    rw [← hcursor]
    exact congrArg (·.get? h) hx.cursors.symm
  have hm := hx.txns c.txn
  simp only [ho] at hm
  cases ht : hist.txns.get? c.txn with
  | none =>
    simp only [ht] at hm
    cases hm
  | some t =>
    simp only [ht] at hm
    cases hm with
    | write hwrite hbase hstart hview =>
      have hhist : hist.write h w = { hist with
          txns := hist.txns.insert c.txn { t with writes := t.writes ++ [w c.type] } } := by
        simp only [History.write, hc, ht]
      rw [hhist]
      refine ⟨hx.committed, hx.cursors, hx.boxes, fun h' => ?_, hx.oneWriter.mono
        (Or.inl (hx.oneWriter.writing ho)) fun h' p hp => ?_⟩
      · simp only [Connection.setChanges, SortedMap.get?_insert]
        -- the write is seen through every cursor of this transaction, and in no other one
        by_cases hh : h' = c.txn
        · rw [if_pos hh, if_pos hh]
          refine .write hwrite ((Overlay.base_of_write hw).trans hbase) hstart ?_
          rw [Overlay.view_of_write hw, hview]
          exact (View.afterAll_concat t.start t.writes (w c.type)).symm
        · rw [if_neg hh, if_neg hh]
          exact hx.txns h'
      · simp only [Connection.setChanges, SortedMap.get?_insert] at hp
        by_cases hh : h' = c.txn
        · exact ⟨o, hh ▸ ho⟩
        · rw [if_neg hh] at hp
          exact ⟨p, hp⟩

/-- Changes that show the same on the same base are the same to the history. -/
theorem withChanges (hx : Serial ⟨conn, hist⟩) {h : Handle} {o o' : Overlay}
    (ho : conn.txns.get? h = some (.write o)) (hbase : o'.base = o.base) (hview : o'.view = o.view) :
    Serial ⟨conn.setChanges h o', hist⟩ where
  committed := hx.committed
  cursors := hx.cursors
  boxes := hx.boxes
  txns := by
    intro h'
    have hm := hx.txns h'
    simp only [Connection.setChanges, SortedMap.get?_insert]
    by_cases hh : h' = h
    · subst hh
      rw [if_pos rfl]
      rw [ho] at hm
      cases ht : hist.txns.get? h' with
      | none =>
        rw [ht] at hm
        cases hm
      | some t =>
        rw [ht] at hm
        cases hm with
        | write hwrite hbase' hstart hview' =>
          exact .write hwrite (hbase.trans hbase') hstart (hview.trans hview')
    · rw [if_neg hh]
      exact hm
  oneWriter := by
    refine hx.oneWriter.mono (Or.inl (hx.oneWriter.writing ho)) fun h' p hp => ?_
    simp only [Connection.setChanges, SortedMap.get?_insert] at hp
    by_cases hh : h' = h
    · exact ⟨o, hh ▸ ho⟩
    · rw [if_neg hh] at hp
      exact ⟨p, hp⟩

/-- A transaction begins. -/
theorem beginTxn (hx : Serial ⟨conn, hist⟩) {h : Handle} {mode : TxnMode} {readOnly : Bool}
    {store : Store} {next : Handle} (hcommitted : store.committed = conn.store.committed)
    (hmode : TxnMatches store.committed (some ⟨readOnly, hist.state, []⟩) (some mode))
    (hwriting : store.writing = true ∨
      ∀ h' o, (conn.txns.insert h mode).get? h' ≠ some (.write o))
    (hunique : ∀ o, mode = .write o → ∀ h' o', conn.txns.get? h' ≠ some (.write o')) :
    Serial ⟨{ conn with store := store, txns := conn.txns.insert h mode, nextHandle := next },
      { hist with txns := hist.txns.insert h ⟨readOnly, hist.state, []⟩ }⟩ where
  committed := (congrArg Contents.view hcommitted).trans hx.committed
  cursors := hx.cursors
  boxes := hx.boxes
  txns := by
    intro h'
    simp only [SortedMap.get?_insert]
    by_cases hh : h' = h
    · rw [if_pos hh, if_pos hh]
      exact hmode
    · rw [if_neg hh, if_neg hh, hcommitted]
      exact hx.txns h'
  oneWriter := by
    refine ⟨fun {h' o} ho => ?_, fun {h₁ h₂ o₁ o₂} ho₁ ho₂ => ?_⟩
    · rcases hwriting with hw | hw
      · exact hw
      · exact absurd ho (hw h' o)
    · simp only [SortedMap.get?_insert] at ho₁ ho₂
      -- which of the two is the transaction that begins
      split at ho₁ <;> split at ho₂
      · simp [*]
      · exact absurd ho₂ (hunique o₁ (Option.some.inj ho₁) _ _)
      · exact absurd ho₁ (hunique o₂ (Option.some.inj ho₂) _ _)
      · exact hx.oneWriter.unique ho₁ ho₂

/-! ## Every event -/

/-- Issuing an ID leaves the contents and the writer alone. -/
theorem issueId (hx : Serial ⟨conn, hist⟩) {type : TypeId} {candidate id : ObjectId} {store : Store}
    (h : conn.store.issueId type candidate = .ok (id, store)) :
    Serial ⟨{ conn with store := store }, hist⟩ := by
  obtain ⟨-, t, t', -, -, rfl⟩ := Store.issueId_eq_ok.1 h
  exact hx.withStore rfl rfl

/-- Registering a type leaves the contents and the writer alone. -/
theorem register (hx : Serial ⟨conn, hist⟩) {type : TypeId} {name : String} {store : Store}
    (h : conn.store.register type name = .ok store) :
    Serial ⟨{ conn with store := store }, hist⟩ := by
  obtain ⟨types, rfl⟩ := Store.register_eq_ok h
  exact hx.withStore rfl rfl

/-- A successful call keeps the invariant. -/
theorem success (hx : Serial ⟨conn, hist⟩) {c : Call} {answer : Answer} {conn' : Connection}
    (h : Connection.Effect conn c answer conn') :
    Serial ⟨conn', hist.noteSuccess conn c answer⟩ := by
  cases h with
  | register _ _ hstore => exact hx.register hstore
  | awaitIdle => exact hx.settle
  | close =>
    have hstop : Serial ⟨{ conn with store := conn.store.stopAccepting }, hist⟩ :=
      hx.withStore rfl rfl
    exact hstop.settle.withStore rfl rfl
  | @openBox type _ _ _ =>
    have hb : conn.boxes = hist.boxes := hx.boxes
    exact hx.withBoxes (congrArg (fun m => m.insert conn.nextHandle type) hb) _
  | @closeBox h _ _ =>
    have hb : conn.boxes = hist.boxes := hx.boxes
    exact hx.withBoxes (congrArg (fun m => m.erase h) hb) _
  | boxId _ hissue => exact hx.issueId hissue
  | @putAsync h _ _ _ _ queue _ _ _ _ =>
    have hq : Serial ⟨{ conn with store := { conn.store with queue := queue } }, hist⟩ :=
      hx.withStore rfl rfl
    exact hq.accept h _
  -- a reader keeps what is committed now, whoever is writing
  | beginRead =>
    refine hx.beginTxn rfl (.read rfl rfl hx.committed) ?_ nofun
    by_cases hw : conn.store.writing = true
    · exact Or.inl hw
    · refine Or.inr fun h' o ho => ?_
      rw [SortedMap.get?_insert] at ho
      split at ho
      · cases ho
      · exact hw (hx.oneWriter.writing ho)
  -- another open writer would count as writing, but the writer was free
  | beginWrite _ hfree =>
    refine hx.beginTxn rfl (.write rfl rfl hx.committed.symm hx.committed) (Or.inl rfl) ?_
    intro _ _ h' o' ho
    have := hx.oneWriter.writing ho
    rw [hfree] at this
    cases this
  | @commitRead h snapshot htxn =>
    have hm := hx.txns h
    simp only [htxn] at hm
    cases ht : hist.txns.get? h with
    | none =>
      simp only [ht] at hm
      cases hm
    | some t =>
      simp only [ht] at hm
      cases hm with
      | read hread hwrites hstart =>
        have hhist : hist.commit h = hist.forget h := by
          rw [History.commit, ht]
          simp [hread]
        rw [History.noteSuccess, hhist]
        exact hx.endTxn h
  | commitWrite htxn => exact hx.commitWriter htxn
  | abortRead => exact hx.endTxn _
  | abortWrite htxn => exact hx.endWriter htxn
  | @openCursor txn _ type _ _ _ _ =>
    have hc : conn.cursors = hist.cursors := hx.cursors
    exact hx.withCursors (congrArg (fun m => m.insert conn.nextHandle ⟨txn, type⟩) hc) _
  | @closeCursor h _ _ =>
    have hc : conn.cursors = hist.cursors := hx.cursors
    exact hx.withCursors (congrArg (fun m => m.erase h) hc) _
  | cursorId _ _ hissue => exact hx.issueId hissue
  | put hcursor htxn hput => exact hx.write (w := (.put · _ _ _)) hcursor htxn hput
  | get => exact hx
  | getAll => exact hx
  | contains => exact hx
  | count => exact hx
  | remove hcursor htxn hremove => exact hx.write (w := (.remove · _)) hcursor htxn hremove
  | removeAll hcursor htxn => exact hx.write (w := .removeAll) hcursor htxn rfl

/-- A failing call keeps the invariant: only a refused commit does anything that shows. -/
theorem failure (hx : Serial ⟨conn, hist⟩) {c : Call} {e : StoreError}
    (h : conn.call? c = .error e) : Serial ⟨conn.afterFailure c, hist.noteFailure c⟩ := by
  cases c with
  | commit txn =>
    rcases Connection.commit_eq_error h with hnone | ⟨o, ho, -⟩
    · -- there was nothing to commit, so nothing is forgotten either
      have hconn : conn.afterFailure (.commit txn) = conn := by
        rw [Connection.afterFailure, hnone]
      rw [hconn]
      refine ⟨hx.committed, hx.cursors, hx.boxes, fun h' => ?_, hx.oneWriter⟩
      have hm := hx.txns h'
      simp only [History.noteFailure, History.forget, SortedMap.get?_erase]
      by_cases hh : h' = txn
      · rw [if_pos hh, hh, hnone]
        exact .none
      · rw [if_neg hh]
        exact hm
    · have hconn : conn.afterFailure (.commit txn)
          = { conn.endTxn txn with store := conn.store.releaseWriter } := by
        rw [Connection.afterFailure, ho]
      rw [hconn]
      exact hx.endWriter ho
  | put b id data mayReplace =>
    have hleft := conn.leftover_of_failure (.put b id data mayReplace)
    generalize conn.afterFailure (.put b id data mayReplace) = conn' at hleft
    cases hleft with
    | nothing => exact hx
    | @refusedPut _ c o _ data _ hcursor htxn =>
      exact hx.withChanges htxn (o.base_afterRefusedPut c.type id data)
        (o.view_afterRefusedPut c.type id data)
  | _ => exact hx

/-- **Every event keeps the invariant.** -/
theorem step {x : Session} (hx : x.Serial) (e : Event) : (x.step e).Serial := by
  obtain ⟨conn, hist⟩ := x
  cases e with
  | call c =>
    rcases conn.call_cases c with ⟨answer, conn', heffect, hcall⟩ | ⟨e, hfail, hcall⟩
    · rw [Session.step_of_ok hcall]
      exact hx.success heffect
    · rw [Session.step_of_error hcall]
      exact hx.failure hfail
  | worker => exact hx.runWorker 1
  | closing => exact hx.withStore rfl rfl

/-- The invariant holds at every moment of every run. -/
theorem run (options : Options) (events : List Event) : (Session.run options events).Serial :=
  Session.run_induction (new options) (fun _ e hx => hx.step e) events

/-! ## Answers -/

/-- A cursor can be used on both sides or on neither, and where it can, the transactions show the
same. -/
theorem cursor_cases (hx : Serial ⟨conn, hist⟩) (h : Handle) :
    (conn.cursor h = .error .nullPointer ∧ hist.look h = .error .nullPointer) ∨
      ∃ c mode t, conn.cursor h = .ok (c, mode) ∧ hist.look h = .ok (c.type, t) ∧
        TxnMatches conn.store.committed (some t) (some mode) := by
  have hc : hist.cursors = conn.cursors := hx.cursors.symm
  rw [Connection.cursor, History.look, hc]
  cases conn.cursors.get? h with
  | none => exact Or.inl ⟨rfl, rfl⟩
  | some c =>
    have hm := hx.txns c.txn
    simp only at hm
    cases hmode : conn.txns.get? c.txn with
    | none =>
      rw [hmode] at hm
      cases ht : hist.txns.get? c.txn with
      | none => exact Or.inl ⟨by simp [Connection.txn, hmode, bind, Except.bind], by simp [ht]⟩
      | some t =>
        rw [ht] at hm
        cases hm
    | some mode =>
      rw [hmode] at hm
      cases ht : hist.txns.get? c.txn with
      | none =>
        rw [ht] at hm
        cases hm
      | some t =>
        rw [ht] at hm
        exact Or.inr ⟨c, mode, t,
          by simp [Connection.txn, hmode, bind, Except.bind, pure, Except.pure], by simp [ht], hm⟩

/-- A question through a cursor is answered from what the transaction shows. -/
theorem answerRead_eq (hx : Serial ⟨conn, hist⟩) (h : Handle) (place : Bool)
    (answer : Payloads → Answer) :
    hist.answerRead h place answer = (do
      let (c, mode) ← conn.cursor h
      Connection.needPlace place
      return answer (mode.payloads c.type)) := by
  rcases hx.cursor_cases h with ⟨hcursor, hlook⟩ | ⟨c, mode, t, hcursor, hlook, hm⟩
  · rw [History.answerRead, hcursor, hlook]
    rfl
  · rw [History.answerRead, hcursor, hlook]
    cases place with
    | false => rfl
    | true =>
      exact congrArg (fun payloads => Except.ok (answer payloads)) (hm.payloads_eq c.type).symm

/-- A write through a cursor has the outcome that it has on what the transaction shows. -/
theorem answerWrite_eq (hx : Serial ⟨conn, hist⟩) (h : Handle) (w : TypeId → Write)
    (answer : Payloads → Answer) :
    hist.answerWrite h w answer = (do
      let (c, o) ← conn.writer h
      let _ ← o.write (w c.type)
      return answer (o.payloads c.type)) := by
  rcases hx.cursor_cases h with ⟨hcursor, hlook⟩ | ⟨c, mode, t, hcursor, hlook, hm⟩
  · rw [History.answerWrite, Connection.writer, hcursor, hlook]
    rfl
  · rw [History.answerWrite, Connection.writer, hcursor, hlook]
    cases hm with
    | read hread =>
      simp only [bind, Except.bind, hread, if_true]
      rfl
    | @write _ o hwrite _ _ hview =>
      simp only [bind, Except.bind, hwrite, Bool.false_eq_true, if_false, pure, Except.pure]
      rw [← hview]
      rcases o.write_cases (w c.type) with ⟨e, ho, hv⟩ | ⟨o', ho, hv⟩
      · rw [ho, hv]
      · rw [ho, hv]
        rfl

/-- **Every read and write through a cursor is answered as a serial execution answers it.** -/
theorem answer (hx : Serial ⟨conn, hist⟩) {c : Call} {r : Except StoreError Answer}
    (h : hist.answer? c = some r) : (conn.call c).1 = r := by
  rw [Connection.call_fst]
  cases c with
  | get b id place =>
    cases h
    rw [Connection.call?]
    rcases hx.cursor_cases b with ⟨hcursor, hlook⟩ | ⟨c, mode, t, hcursor, hlook, hm⟩
    · rw [hcursor, hlook]
      rfl
    · rw [hcursor, hlook]
      simp only [bind, Except.bind, hm.payloads_eq]
      cases (t.view c.type).get? id with
      | none => rfl
      | some payload => cases place <;> rfl
  | getAll b place =>
    cases h
    rw [Connection.call?, hx.answerRead_eq]
    cases conn.cursor b with
    | error e => rfl
    | ok r => cases place <;> rfl
  | contains b id place =>
    cases h
    rw [Connection.call?, hx.answerRead_eq]
    cases conn.cursor b with
    | error e => rfl
    | ok r => cases place <;> rfl
  | count b place =>
    cases h
    rw [Connection.call?, hx.answerRead_eq]
    cases conn.cursor b with
    | error e => rfl
    | ok r => cases place <;> rfl
  | put b id data mayReplace =>
    cases data with
    | none =>
      cases h
      rfl
    | some data =>
      cases h
      rw [Connection.call?, hx.answerWrite_eq]
      cases conn.writer b with
      | error e => rfl
      | ok r =>
        simp only [Connection.given, bind, Except.bind, Overlay.write]
        cases r.2.put r.1.type id data mayReplace <;> rfl
  | remove b id =>
    cases h
    rw [Connection.call?, hx.answerWrite_eq]
    cases conn.writer b with
    | error e => rfl
    | ok r =>
      simp only [bind, Except.bind, Overlay.write]
      cases r.2.remove r.1.type id <;> rfl
  | removeAll b place =>
    cases h
    rw [Connection.call?, hx.answerWrite_eq]
    cases conn.writer b <;> rfl
  -- a serial execution says nothing of the other calls
  | _ => cases h

end Session.Serial

/-! ## The main theorem -/

/-- **Serializability.**  After every run of a store, whatever the order of its events,

* what is committed is the serial state: the successful writes of the committed transactions and of
  the published batches, applied to the empty store publication by publication;
* every read and write through a cursor is answered as the serial state at the begin of its
  transaction answers it, with the transaction's own earlier writes on top;
* no publication is ever lost, changed or moved by what comes later. -/
theorem run_serializable (options : Options) (events : List Event) :
    let x := Session.run options events
    (∀ type, x.conn.store.committed.payloads type = x.history.state type) ∧
      (∀ c r, x.history.answer? c = some r → (x.conn.call c).1 = r) ∧
      ∀ later, x.history.publications <+:
        (Session.run options (events ++ later)).history.publications := by
  intro x
  have hx : x.Serial := Session.Serial.run options events
  refine ⟨fun type => congrFun hx.committed type, fun c r h => hx.answer h, fun later => ?_⟩
  rw [Session.run, Session.after_append]
  exact Session.publications_after x later

/-- A batch of one put and then a write transaction on two types that has yet to be committed. -/
def openWriterRun : List Event :=
  [.call (.register 1 (some [65])), .call (.register 2 (some [66])), .call (.openBox 2 true),
    .call (.putAsync 0 5 (some [9]) true), .worker, .worker, .call (.begin false true),
    .call (.openCursor 1 1 true), .call (.openCursor 1 2 true),
    .call (.put 2 7 (some [1, 2]) true), .call (.remove 3 5)]

/-- Inside the transaction the own put is seen and the removed object of the batch is not. -/
theorem run_serializable_openWriterRun :
    let x := Session.run {} openWriterRun
    (x.conn.call (.get 2 7 true)).1 = .ok (.data [1, 2]) ∧
      (x.conn.call (.get 3 5 true)).1 = .error (.notFound 5) ∧
      x.conn.store.committed.payloads 2 = x.history.state 2 := by
  intro x
  have hput : x.history.answer? (.get 2 7 true) = some (.ok (.data [1, 2])) := by decide +kernel
  have hremoved : x.history.answer? (.get 3 5 true) = some (.error (.notFound 5)) := by
    decide +kernel
  obtain ⟨hcommitted, hanswer, -⟩ := run_serializable {} openWriterRun
  exact ⟨hanswer _ _ hput, hanswer _ _ hremoved, hcommitted 2⟩

end ObjectStore
