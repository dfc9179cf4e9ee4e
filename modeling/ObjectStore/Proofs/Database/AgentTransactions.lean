import Mathlib
import ObjectStore.Proofs.Database.LoneAgent

/-!
# Transactions of an agent

The transactions of a box, as an agent makes them and as a database does.  The database has the
changes of a write in hand; the agent has a transaction and a cursor, and the connection has the
changes (`Scene.works`).  Work that is followed through a cursor is followed in a transaction of its
own, whether it succeeds, fails, or cannot be committed (`Errand.follows_withCursor_write`,
`Errand.follows_withCursor_read`).
-/

namespace ObjectStore

namespace Scene

/-- A transaction is open. -/
def holds (txn : Handle) (mode : TxnMode) : Scene := fun conn _ => conn.txns.get? txn = some mode

/-- A cursor works on a type in an open transaction. -/
def works (cursor txn : Handle) (type : TypeId) (mode : TxnMode) : Scene := fun conn _ =>
  conn.cursors.get? cursor = some ⟨txn, type⟩ ∧ conn.txns.get? txn = some mode

/-- A cursor works on a type in a write transaction, which has some changes. -/
def writes (cursor txn : Handle) (type : TypeId) : Scene := fun conn db =>
  ∃ mode, (∃ o, mode = .write o) ∧ works cursor txn type mode conn db

end Scene

namespace Errand

variable {σ τ α β γ : Type} {thread : Thread}

/-! ## Beginning and ending -/

theorem call?_begin {conn : Connection} (hopen : conn.store.closed = false) (readOnly : Bool) :
    conn.call? (.begin readOnly true) = conn.begin readOnly := by
  have hhandle : conn.ensureHandle = .ok () := Connection.ensureHandle_eq_ok.2 hopen
  rw [Connection.call?, hhandle]
  rfl

/-- A write transaction is begun without changes. -/
theorem follows_begin_write :
    Follows .any (begin false : Errand τ thread Handle)
      (TypedBox.beginWrite : Operation σ Overlay) (fun txn o => .holds txn (.write o)) .any := by
  refine follows_requireOpen.bind fun _ _ => ?_
  refine follows_mere_call (performs_opened "transaction" (.begin false true)) rfl (fun _ => rfl) ?_
  intro conn ctx hstore hopen
  rw [call?_begin hopen]
  unfold Connection.begin
  cases hwriter : conn.store.openWriter with
  | error e => exact ⟨Operation.store_of_error (hstore ▸ hwriter), trivial⟩
  | ok begun =>
    obtain ⟨o, store⟩ := begun
    exact ⟨conn.nextHandle, o, rfl, Operation.store_of_ok (hstore ▸ hwriter),
      SortedMap.get?_insert_self _ _ _⟩

/-- A read transaction is begun with what is committed. -/
theorem follows_begin_read :
    Follows .any (begin true : Errand τ thread Handle)
      (do
        Operation.query Database.requireOpen
        Operation.query fun db => db.store.snapshot.mapError .ofStore : Operation σ Contents)
      (fun txn snapshot => .holds txn (.read snapshot)) .any := by
  refine follows_requireOpen.bind fun _ _ => ?_
  refine follows_mere_call (performs_opened "transaction" (.begin true true)) rfl (fun _ => rfl) ?_
  intro conn ctx hstore hopen
  have hrequired : conn.store.requireOpen = .ok () := Store.requireOpen_eq_ok.2 hopen
  have hsnapshot : conn.store.snapshot = .ok conn.store.committed := by
    rw [Store.snapshot, hrequired]
    rfl
  rw [call?_begin hopen]
  unfold Connection.begin
  rw [hsnapshot, Operation.query_eq, ← hstore, hsnapshot]
  exact ⟨conn.nextHandle, conn.store.committed, rfl, congrArg _ (withStore_of_eq hstore).symm,
    SortedMap.get?_insert_self _ _ _⟩

/-- A cursor is opened if the type is known. -/
theorem follows_openCursor (txn : Handle) (type : TypeId) (mode : TxnMode) :
    Follows (.holds txn mode)
      (do opened "cursor" (← demand (.openCursor txn type true)) : Errand τ thread Handle)
      (Operation.query fun db => (db.store.requireType type).mapError .ofStore : Operation σ Unit)
      (fun cursor _ => .works cursor txn type mode) (.holds txn mode) := by
  refine follows_mere_call (performs_opened "cursor" (.openCursor txn type true)) rfl
    (fun _ => rfl) ?_
  intro conn ctx hstore htxn
  have hcall : conn.call? (.openCursor txn type true) = (do
      conn.store.requireType type
      return (.opened conn.nextHandle, { conn with
        cursors := conn.cursors.insert conn.nextHandle ⟨txn, type⟩
        nextHandle := conn.nextHandle + 1 })) := by
    rw [Connection.call?, Connection.txn_eq_ok.2 htxn]
    rfl
  rw [hcall, Operation.query_eq, ← hstore]
  cases conn.store.requireType type with
  | error e => exact ⟨rfl, htxn⟩
  | ok _ =>
    exact ⟨conn.nextHandle, (), rfl, congrArg _ (withStore_of_eq hstore).symm,
      SortedMap.get?_insert_self _ _ _, htxn⟩

/-- Closing a cursor leaves its transaction open. -/
theorem cleans_closeCursor (cursor txn : Handle) (type : TypeId) (mode : TxnMode) :
    Cleans (.works cursor txn type mode) (passOver (.closeCursor cursor) : Errand τ thread Unit)
      (.holds txn mode) := by
  refine cleans_passOver rfl fun conn db hworks => ?_
  have hcall : conn.call (.closeCursor cursor)
      = (.ok .done, { conn with cursors := conn.cursors.erase cursor }) := by
    apply Connection.call_of_ok
    rw [Connection.call?, hworks.1]
    rfl
  rw [hcall]
  exact ⟨rfl, hworks.2⟩

/-- Ending a read leaves nothing behind. -/
theorem cleans_abort_read (txn : Handle) (snapshot : Contents) :
    Cleans (.holds txn (.read snapshot)) (passOver (.abort txn) : Errand τ thread Unit) .any := by
  refine cleans_passOver rfl fun conn db htxn => ?_
  have hcall : conn.call (.abort txn) = (.ok .done, conn.endTxn txn) := by
    apply Connection.call_of_ok
    rw [Connection.call?, Connection.abort, Connection.txn_eq_ok.2 htxn]
    rfl
  rw [hcall]
  exact ⟨rfl, trivial⟩

/-- A write that is aborted makes room for the next one. -/
theorem abort_write {a : Agent τ thread} {conn : Connection} {ctx : Context σ} {txn : Handle}
    {o : Overlay} (hshows : a.Shows conn ctx.db) (htxn : conn.txns.get? txn = some (.write o)) :
    ∃ a' conn', passOver (.abort txn) a = .ok () a' ∧
      a'.Shows conn' (ctx.withStore ctx.db.store.releaseWriter).db := by
  have hcall : conn.call (.abort txn)
      = (.ok .done, { conn.endTxn txn with store := conn.store.releaseWriter }) := by
    apply Connection.call_of_ok
    rw [Connection.call?, Connection.abort, Connection.txn_eq_ok.2 htxn]
    rfl
  obtain ⟨a', hrun, halone, hkeeps⟩ := passOver_of_alone hshows.toAloneWith (.abort txn)
  have hplain := hshows.plain rfl halone hkeeps
  rw [hcall] at hplain
  rw [← hshows.store]
  exact ⟨a', _, hrun, hplain⟩

/-- The end of a transaction whose work has succeeded. -/
theorem performs_commit (txn : Handle) (result : β) :
    (do
      let _ ← demand (.commit txn)
      return result : Errand τ thread β).Performs (.commit txn) fun _ r => r = result :=
  (performs_demand _).andThen fun answer r hr => ⟨some answer, rfl, by rw [hr]⟩

/-- Committing a read just ends it. -/
theorem follows_commit_read (txn : Handle) (snapshot : Contents) (result : β) :
    Follows (.holds txn (.read snapshot))
      (do
        let _ ← demand (.commit txn)
        return result : Errand τ thread β)
      (pure result : Operation σ β) (fun r s _ _ => r = s) .any := by
  refine follows_call (performs_commit txn result) rfl fun conn ctx hstore htxn => ?_
  have hcall : conn.call? (.commit txn) = .ok (.done, conn.endTxn txn) := by
    rw [Connection.call?, Connection.commit, Connection.txn_eq_ok.2 htxn]
    rfl
  rw [hcall]
  exact ⟨result, result, rfl, congrArg _ (withStore_of_eq hstore).symm, rfl⟩

/-- **Committing a write** ends it, also where that fails. -/
theorem follows_commit_write (txn : Handle) (o : Overlay) (result : β) :
    Follows (.holds txn (.write o))
      (do
        let _ ← demand (.commit txn)
        return result : Errand τ thread β)
      (do
        TypedBox.commit o
        return result : Operation σ β) (fun r s _ _ => r = s) .any := by
  refine follows_call (performs_commit txn result) rfl fun conn ctx hstore htxn => ?_
  have htxn' : conn.txns.get? txn = some (.write o) := htxn
  have hcall : conn.call? (.commit txn) = (do
      let store ← conn.store.commit o
      return (.done, { conn.endTxn txn with store := store })) := by
    rw [Connection.call?, Connection.commit, Connection.txn_eq_ok.2 htxn]
    rfl
  have hleft : conn.afterFailure (.commit txn)
      = { conn.endTxn txn with store := conn.store.releaseWriter } := by
    simp only [Connection.afterFailure, htxn']
  rw [hcall, hleft]
  cases hcommit : conn.store.commit o with
  | ok store =>
    have hdone : Operation.store (fun s => (s.commit o).map ((), ·)) ctx
        = .ok () (ctx.withStore store) := by
      refine Operation.store_of_ok ?_
      rw [← hstore, hcommit]
      rfl
    have hwhole : TypedBox.commit o ctx = .ok () (ctx.withStore store) := by
      unfold TypedBox.commit
      rw [Operation.bind_of_ok (Operation.attempt_of_ok hdone)]
      rfl
    exact ⟨result, result, rfl, Operation.bind_of_ok hwhole, rfl⟩
  | error e =>
    have hfailed : Operation.store (fun s => (s.commit o).map ((), ·)) ctx
        = .error (.ofStore e) ctx := by
      refine Operation.store_of_error ?_
      rw [← hstore, hcommit]
      rfl
    have hrelease : Operation.store (fun s => .ok ((), s.releaseWriter)) ctx
        = .ok () (ctx.withStore conn.store.releaseWriter) := by
      refine Operation.store_of_ok ?_
      rw [hstore]
    have hwhole : TypedBox.commit o ctx
        = .error (.ofStore e) (ctx.withStore conn.store.releaseWriter) := by
      unfold TypedBox.commit
      rw [Operation.bind_of_ok (Operation.attempt_of_error hfailed)]
      exact Operation.bind_of_ok hrelease
    exact ⟨Operation.bind_of_error hwhole, trivial⟩

/-! ## Work in a transaction -/

/-- Work through a cursor, which is closed however the work ends.  `after` is the mode of the
transaction when it succeeds, and `K` holds of the mode when it fails. -/
theorem follows_cursor (after : β → TxnMode) (K : TxnMode → Prop) {txn : Handle} {type : TypeId}
    {mode : TxnMode} {R : α → β → Prop} {work : Handle → Errand τ thread α} {y : Operation σ β}
    (hK : K mode)
    (hwork : ∀ cursor, Follows (.works cursor txn type mode) (work cursor) y
      (fun r s conn db => R r s ∧ Scene.works cursor txn type (after s) conn db)
      (fun conn db => ∃ m, K m ∧ Scene.works cursor txn type m conn db)) :
    Follows (.holds txn mode)
      (do
        let cursor ← opened "cursor" (← demand (.openCursor txn type true))
        andAlways (work cursor) (passOver (.closeCursor cursor)))
      (do
        Operation.query fun db => (db.store.requireType type).mapError .ofStore
        y)
      (fun r s conn db => R r s ∧ Scene.holds txn (after s) conn db)
      (fun conn db => ∃ m, K m ∧ Scene.holds txn m conn db) := by
  have hopen : Follows (.holds txn mode)
      (do opened "cursor" (← demand (.openCursor txn type true)) : Errand τ thread Handle)
      (Operation.query fun db => (db.store.requireType type).mapError .ofStore : Operation σ Unit)
      (fun cursor _ => .works cursor txn type mode)
      (fun conn db => ∃ m, K m ∧ Scene.holds txn m conn db) :=
    (follows_openCursor txn type mode).widen fun _ _ hholds => ⟨mode, hK, hholds⟩
  have hclose : ∀ cursor m, Cleans (.works cursor txn type m)
      (passOver (.closeCursor cursor) : Errand τ thread Unit) (.holds txn m) :=
    fun cursor m => cleans_closeCursor cursor txn type m
  rw [← bind_assoc]
  refine hopen.bind fun cursor _ => ?_
  refine (hwork cursor).andAlways ?_ ?_
  · rintro r s a conn db hshows ⟨hR, hworks⟩
    obtain ⟨a', conn', hrun, hshows', hholds⟩ := hclose cursor (after s) a conn db hshows hworks
    exact ⟨a', conn', hrun, hshows', hR, hholds⟩
  · rintro a conn db hshows ⟨m, hm, hworks⟩
    obtain ⟨a', conn', hrun, hshows', hholds⟩ := hclose cursor m a conn db hshows hworks
    exact ⟨a', conn', hrun, hshows', m, hm, hholds⟩

/-- Of two questions the second may depend on the first. -/
theorem query_bind (f : Database → Except BoxError α) (g : Database → α → Except BoxError β) :
    Operation.query (fun db => f db >>= g db)
      = (Operation.query f >>= fun r => Operation.query fun db => g db r : Operation σ β) := by
  funext ctx
  rw [Operation.query_eq]
  cases hf : f ctx.db with
  | error e =>
    rw [Operation.bind_of_error (Operation.query_of_error hf)]
    rfl
  | ok r =>
    rw [Operation.bind_of_ok (Operation.query_of_ok hf)]
    rfl

/-- The box has to be open, and the agent has a handle of it. -/
theorem follows_require {ab : AgentBinding τ thread α} {b : Binding σ γ} (htype : ab.type = b.type)
    (n : BoxNumber) {P : Scene} :
    Follows P (AgentBox.require ⟨ab, n⟩ : Errand τ thread Handle)
      (TypedBox.require ⟨b, n⟩ : Operation σ BoxState)
      (fun h box conn db => P conn db ∧ db.boxes[n]? = some box ∧ box.isOpen = true ∧
        conn.boxes.get? h = some box.type) P := by
  intro a conn ctx hshows hscene
  unfold AgentBox.require TypedBox.require
  rw [Operation.query_eq, Database.requireBox, ← hshows.boxes, List.getElem?_map, htype]
  cases hcore : a.cores[n]? with
  | none => exact .error _ hshows hscene
  | some core =>
    obtain ⟨type, handle, lender⟩ := core
    cases handle with
    | none => exact .error _ hshows hscene
    | some h =>
      refine .ok hshows ⟨hscene, ?_, rfl, hshows.handles hcore rfl⟩
      rw [← hshows.boxes, List.getElem?_map, hcore]
      rfl

/-- **A write of a box.**  Where its work fails, the transaction is aborted. -/
theorem follows_run_write {ab : AgentBinding τ thread α} {b : Binding σ γ}
    (htype : ab.type = b.type) (n : BoxNumber) {work : Handle → Errand τ thread β}
    {work' : Overlay → Operation σ (β × Overlay)}
    (hwork : ∀ cursor txn o, Follows (.works cursor txn b.type (.write o)) (work cursor) (work' o)
      (fun r s conn db => r = s.1 ∧ Scene.works cursor txn b.type (.write s.2) conn db)
      (.writes cursor txn b.type)) :
    (AgentBox.run ⟨ab, n⟩ false work).EndsAs (TypedBox.write ⟨b, n⟩ work') := by
  unfold AgentBox.run withCursor TypedBox.write
  refine (follows_require htype n).bind fun _ _ => ?_
  refine (follows_begin_write.strengthen fun _ _ _ => trivial).bind fun txn o => ?_
  intro a conn ctx hshows hholds
  have hinner := follows_cursor (fun s : β × Overlay => .write s.2) (fun m => ∃ o, m = .write o)
    ⟨o, rfl⟩ (fun cursor => hwork cursor txn o) a conn ctx hshows hholds
  dsimp only
  rw [htype]
  generalize (do
      let cursor ← opened "cursor" (← demand (.openCursor txn b.type true))
      andAlways (work cursor) (passOver (.closeCursor cursor)) : Errand τ thread β) = x at hinner ⊢
  generalize (do
      Operation.query fun db => (db.store.requireType b.type).mapError .ofStore
      work' o : Operation σ (β × Overlay)) = y at hinner ⊢
  -- both sides have ended in the same way, each with its own cleanup still to come
  cases hxa : x a with
  | ok r a₁ =>
    rw [hxa] at hinner
    cases hyc : y ctx with
    | error e ctx₁ =>
      rw [hyc] at hinner
      cases hinner
    | ok s ctx₁ =>
      rw [hyc] at hinner
      obtain ⟨s, o'⟩ := s
      cases hinner with
      | ok hshows₁ hQ =>
        obtain ⟨rfl, hholds₁⟩ := hQ
        rw [bind_of_ok (onFailure_of_ok hxa _), Operation.bind_of_ok (Operation.attempt_of_ok hyc)]
        exact follows_commit_write txn o' r a₁ _ ctx₁ hshows₁ hholds₁
  | error e a₁ =>
    rw [hxa] at hinner
    cases hyc : y ctx with
    | ok s ctx₁ =>
      rw [hyc] at hinner
      cases hinner
    | error e' ctx₁ =>
      rw [hyc] at hinner
      cases hinner with
      | error _ hshows₁ hE =>
        obtain ⟨_, ⟨o', rfl⟩, hholds₁⟩ := hE
        obtain ⟨a₂, conn₂, habort, hshows₂⟩ := abort_write hshows₁ hholds₁
        have hrelease : Operation.store (fun s => .ok ((), s.releaseWriter)) ctx₁
            = .ok () (ctx₁.withStore ctx₁.db.store.releaseWriter) := Operation.store_of_ok rfl
        rw [bind_of_error (onFailure_of_error hxa habort),
          Operation.bind_of_ok (Operation.attempt_of_error hyc)]
        refine Eq.mpr (congrArg _ (Operation.bind_of_ok hrelease)) ?_
        exact .error e hshows₂ trivial

/-- A read looks at the database three times: whether it is open, for what is committed, and for the
type. -/
theorem read_eq_steps (b : TypedBox σ γ) (answer : Payloads → Except BoxError β) :
    b.read answer = (do
      let _ ← b.require
      let snapshot ← (do
        Operation.query Database.requireOpen
        Operation.query fun db => db.store.snapshot.mapError .ofStore)
      Operation.query fun db => (db.store.requireType b.binding.type).mapError .ofStore
      Operation.lift (answer (snapshot.payloads b.binding.type)) : Operation σ β) := by
  have hpure : ∀ snapshot : Contents,
      (Operation.query fun _ => pure snapshot) = (pure snapshot : Operation σ Contents) :=
    fun _ => rfl
  unfold TypedBox.read
  simp only [query_bind, hpure, bind_assoc, pure_bind]

/-- **A read of a box.** -/
theorem follows_run_read {ab : AgentBinding τ thread α} {b : Binding σ γ}
    (htype : ab.type = b.type) (n : BoxNumber) {work : Handle → Errand τ thread β}
    {answer : Payloads → Except BoxError β}
    (hwork : ∀ cursor txn snapshot, Follows (.works cursor txn b.type (.read snapshot)) (work cursor)
      (Operation.lift (answer (snapshot.payloads b.type)) : Operation σ β)
      (fun r s conn db => r = s ∧ Scene.works cursor txn b.type (.read snapshot) conn db)
      (.works cursor txn b.type (.read snapshot))) :
    (AgentBox.run ⟨ab, n⟩ true work).EndsAs (TypedBox.read ⟨b, n⟩ answer : Operation σ β) := by
  rw [read_eq_steps]
  unfold AgentBox.run withCursor
  refine (follows_require htype n).bind fun _ _ => ?_
  refine (follows_begin_read.strengthen fun _ _ _ => trivial).bind fun txn snapshot => ?_
  intro a conn ctx hshows hholds
  have hwork' : ∀ cursor, Follows (.works cursor txn b.type (.read snapshot)) (work cursor)
      (Operation.lift (answer (snapshot.payloads b.type)) : Operation σ β)
      (fun r s conn db => r = s ∧ Scene.works cursor txn b.type (.read snapshot) conn db)
      (fun conn db => ∃ m, m = .read snapshot ∧ Scene.works cursor txn b.type m conn db) :=
    fun cursor => (hwork cursor txn snapshot).widen fun _ _ hworks => ⟨_, rfl, hworks⟩
  have hinner := follows_cursor (fun _ => .read snapshot) (fun m => m = .read snapshot) rfl hwork'
    a conn ctx hshows hholds
  dsimp only
  rw [htype]
  generalize (do
      let cursor ← opened "cursor" (← demand (.openCursor txn b.type true))
      andAlways (work cursor) (passOver (.closeCursor cursor)) : Errand τ thread β) = x at hinner ⊢
  generalize (do
      Operation.query fun db => (db.store.requireType b.type).mapError .ofStore
      Operation.lift (answer (snapshot.payloads b.type)) : Operation σ β) = y at hinner ⊢
  cases hxa : x a with
  | ok r a₁ =>
    rw [hxa] at hinner
    generalize y ctx = s at hinner ⊢
    cases hinner with
    | @ok _ s _ _ ctx₁ hshows₁ hQ =>
      obtain ⟨rfl, hholds₁⟩ := hQ
      rw [bind_of_ok (onFailure_of_ok hxa _)]
      exact follows_commit_read txn snapshot r a₁ _ ctx₁ hshows₁ hholds₁
  | error e a₁ =>
    rw [hxa] at hinner
    generalize y ctx = s at hinner ⊢
    cases hinner with
    | error _ hshows₁ hE =>
      -- aborting a read is nothing to the database
      obtain ⟨_, rfl, hholds₁⟩ := hE
      obtain ⟨a₂, conn₂, habort, hshows₂, -⟩ :=
        cleans_abort_read txn snapshot a₁ _ _ hshows₁ hholds₁
      rw [bind_of_error (onFailure_of_error hxa habort)]
      exact .error e hshows₂ trivial

end Errand

end ObjectStore
