import Mathlib
import ObjectStore.Proofs.Database.AgentTransactions
import ObjectStore.Proofs.Database.Flatten

/-!
# Agents do what databases do

The operations on a box of an agent that is alone end as those of the database that it shows: putting
(`Errand.endsAs_put`, `Errand.endsAs_putAll`, and later, through the queue, `Errand.follows_putAsync`),
reading (`Errand.endsAs_get`, `Errand.endsAs_getAll`, `Errand.endsAs_contains`, `Errand.endsAs_count`)
and removing (`Errand.endsAs_remove`, `Errand.endsAs_removeAll`).

A binding may use the database while it puts an object together, and then it has to do the same on
both sides without ending the transaction that it is called in (`AgentBinding.Mirrors`).
-/

namespace ObjectStore

/-! ## Bindings -/

/-- Whatever is open on the first connection is open on the second, under the same handle. -/
structure Connection.LeavesOpen (conn conn' : Connection) : Prop where
  boxes : ∀ {h type}, conn.boxes.get? h = some type → conn'.boxes.get? h = some type
  txns : ∀ {h mode}, conn.txns.get? h = some mode → conn'.txns.get? h = some mode
  cursors : ∀ {h c}, conn.cursors.get? h = some c → conn'.cursors.get? h = some c

/-- What a binding does for an agent is what it does for a database.  While it puts an object
together it may do the same with both, but it does not end what it is called in. -/
structure AgentBinding.Mirrors {σ τ α : Type} {thread : Thread} (ab : AgentBinding τ thread α)
    (b : Binding σ α) : Prop where
  type : ab.type = b.type
  idOf : ab.idOf = b.idOf
  withId : ab.withId = b.withId
  restore : ab.restore = b.restore
  flatten : ∀ (object : α) (id : ObjectId) (bench : Workbench) (a : Agent τ thread)
    (conn : Connection) (ctx : Context σ), a.Shows conn ctx.db →
    ∃ a' conn', ab.flatten object id bench a
        = (((b.assemble object id).run bench ctx).1, ((b.assemble object id).run bench ctx).2.1, a') ∧
      a'.Shows conn' ((b.assemble object id).run bench ctx).2.2.db ∧ conn.LeavesOpen conn'

namespace Binding

variable {σ τ α : Type} {thread : Thread}

/-- The binding for agents that leaves everything but the builder alone. -/
def alone (b : Binding σ α) : AgentBinding τ thread α where
  type := b.type
  name := b.name
  idOf := b.idOf
  withId := b.withId
  flatten object id bench a :=
    (((b.assemble object id).build bench).1, ((b.assemble object id).build bench).2, a)
  isRun _ _ _ _ := ⟨[], rfl⟩
  restore := b.restore

/-- A binding that leaves the database alone is mirrored by it. -/
theorem mirrors_alone {b : Binding σ α} (hquiet : ∀ object id, (b.assemble object id).Quiet) :
    (b.alone : AgentBinding τ thread α).Mirrors b where
  type := rfl
  idOf := rfl
  withId := rfl
  restore := rfl
  flatten := by
    intro object id bench a conn ctx hshows
    obtain ⟨user, hrun⟩ := Assembly.run_of_quiet (hquiet object id) bench ctx
    rw [hrun]
    exact ⟨a, conn, rfl, hshows, fun h => h, fun h => h, fun h => h⟩

end Binding

/-- The scene depends on nothing that a binding could end. -/
def Scene.Lasts (P : Scene) : Prop :=
  ∀ conn conn' db db', Connection.LeavesOpen conn conn' → P conn db → P conn' db'

theorem Scene.works_lasts (cursor txn : Handle) (type : TypeId) (mode : TxnMode) :
    (Scene.works cursor txn type mode).Lasts := fun _ _ _ _ h hworks =>
  ⟨h.cursors hworks.1, h.txns hworks.2⟩

namespace Errand

variable {σ τ α β : Type} {thread : Thread} {ab : AgentBinding τ thread α} {b : Binding σ α}

/-- **An object is put together** in the same way. -/
theorem follows_serialize (hb : ab.Mirrors b) (n : BoxNumber) {P : Scene} (hP : P.Lasts)
    (object : α) (id : ObjectId) (builder : Builder) :
    Follows P (AgentBox.serialize ⟨ab, n⟩ object id builder)
      (TypedBox.serialize ⟨b, n⟩ object id builder) (fun r s conn db => r = s ∧ P conn db) P := by
  intro a conn ctx hshows hscene
  obtain ⟨a', conn', hflat, hshows', hleaves⟩ :=
    hb.flatten object id (.ofBuilder builder) a conn ctx hshows
  have hflat' : (AgentBox.mk ab n).binding.flatten object id (.ofBuilder builder) a = _ := hflat
  unfold AgentBox.serialize TypedBox.serialize
  rw [hflat']
  generalize (b.assemble object id).run (.ofBuilder builder) ctx = out at hshows' ⊢
  obtain ⟨outcome, bench, ctx'⟩ := out
  -- which calls were made is not shown
  have hshown : Agent.Shows { a' with made := a.made } conn' ctx'.db :=
    { hshows' with regular := hshows'.regular.of_client rfl }
  have hlasts : P conn' ctx'.db := hP _ _ _ _ hleaves hscene
  cases outcome with
  | error e => exact .ok hshown ⟨rfl, hlasts⟩
  | ok _ =>
    dsimp only
    cases bench.builder.deliver with
    | error e => exact .ok hshown ⟨rfl, hlasts⟩
    | ok delivered => exact .ok hshown ⟨rfl, hlasts⟩

/-! ## Putting -/

/-- Asking for an ID through a cursor. -/
theorem follows_cursorId (n : BoxNumber) (cursor txn : Handle) (mode : TxnMode)
    (candidate : ObjectId) :
    Follows (.works cursor txn b.type mode)
      (demandId (.cursorId cursor candidate) : Errand τ thread ObjectId)
      (TypedBox.issueId ⟨b, n⟩ candidate)
      (fun r s conn db => r = s ∧ Scene.works cursor txn b.type mode conn db)
      (.works cursor txn b.type mode) := by
  refine follows_mere_call (performs_demandId _) rfl (fun _ => rfl) fun conn ctx hstore hworks => ?_
  have hcall : conn.call? (.cursorId cursor candidate)
      = (conn.store.issueId b.type candidate).map fun issued =>
        (.id issued.1, { conn with store := issued.2 }) := by
    rw [Connection.call?, Connection.cursor_eq_ok.2 hworks]
    show (conn.store.issueId b.type candidate).bind _ = _
    cases conn.store.issueId b.type candidate <;> rfl
  rw [hcall]
  unfold TypedBox.issueId
  cases hissue : conn.store.issueId b.type candidate with
  | error e => exact ⟨Operation.store_of_error (hstore ▸ hissue), hworks⟩
  | ok issued =>
    obtain ⟨id, store⟩ := issued
    exact ⟨id, id, rfl, Operation.store_of_ok (hstore ▸ hissue), rfl, hworks⟩

/-- A put changes the changes of the transaction, where it is refused as well. -/
theorem follows_demand_put (cursor txn : Handle) (type : TypeId) (o : Overlay) (id : ObjectId)
    (bytes : Bytes) (mayReplace : Bool) :
    Follows (.works cursor txn type (.write o))
      (demand (.put cursor id (some bytes) mayReplace) : Errand τ thread (Option Answer))
      (Operation.liftStore (o.put type id bytes mayReplace) : Operation σ Overlay)
      (fun _ o' => .works cursor txn type (.write o')) (.writes cursor txn type) := by
  refine follows_call (performs_demand _) rfl fun conn ctx hstore hworks => ?_
  have hwriter : conn.writer cursor = .ok (⟨txn, type⟩, o) := Connection.writer_eq_ok.2 hworks
  have hcall : conn.call? (.put cursor id (some bytes) mayReplace) = (do
      let changes ← o.put type id bytes mayReplace
      return (.done, conn.setChanges txn changes)) := by
    rw [Connection.call?, hwriter]
    rfl
  have hleft : conn.afterFailure (.put cursor id (some bytes) mayReplace)
      = conn.setChanges txn (o.afterRefusedPut type id bytes) := by
    simp only [Connection.afterFailure, hwriter]
  have hset : ∀ o' db, Scene.works cursor txn type (.write o') (conn.setChanges txn o') db :=
    fun o' db => ⟨hworks.1, SortedMap.get?_insert_self _ _ _⟩
  rw [hcall, hleft]
  unfold Operation.liftStore
  cases o.put type id bytes mayReplace with
  | error e => exact ⟨congrArg _ (withStore_of_eq hstore).symm, _, ⟨_, rfl⟩, hset _ _⟩
  | ok o' => exact ⟨_, o', rfl, congrArg _ (withStore_of_eq hstore).symm, hset _ _⟩

theorem Scene.writes_of_works {cursor txn : Handle} {type : TypeId} {o : Overlay}
    {conn : Connection} {db : Database} (h : Scene.works cursor txn type (.write o) conn db) :
    Scene.writes cursor txn type conn db := ⟨_, ⟨o, rfl⟩, h⟩

/-- **A put through a cursor.** -/
theorem follows_putWithin (hb : ab.Mirrors b) (n : BoxNumber) (object : α) (cursor txn : Handle)
    (o : Overlay) (builder : Builder) :
    Follows (.works cursor txn b.type (.write o))
      (AgentBox.putWithin ⟨ab, n⟩ object cursor builder)
      (TypedBox.putWithin ⟨b, n⟩ object o builder)
      (fun r s conn db => r = (s.1, s.2.2) ∧ Scene.works cursor txn b.type (.write s.2.1) conn db)
      (.writes cursor txn b.type) := by
  have hany : ∀ conn db, Scene.works cursor txn b.type (.write o) conn db →
      Scene.writes cursor txn b.type conn db := fun _ _ => Scene.writes_of_works
  unfold AgentBox.putWithin TypedBox.putWithin
  dsimp only
  rw [hb.idOf]
  refine (Follows.lift _ hany).bind_same fun candidate => ?_
  refine ((follows_cursorId n cursor txn _ candidate).widen hany).bind_same fun id => ?_
  have hserialize := follows_serialize hb n (Scene.works_lasts cursor txn b.type (.write o)) object
    id builder
  refine (hserialize.widen hany).bind_same fun serialized => ?_
  refine (Follows.lift _ hany).bind_same fun bytes => ?_
  exact (follows_demand_put cursor txn b.type o id bytes _).bind fun _ o' =>
    .of_pure fun _ _ hworks => ⟨rfl, hworks⟩

/-- Several puts, one after the other. -/
theorem follows_putEachWithin (hb : ab.Mirrors b) (n : BoxNumber) (objects : List α)
    (cursor txn : Handle) (o : Overlay) (builder : Builder) :
    Follows (.works cursor txn b.type (.write o))
      (AgentBox.putEachWithin ⟨ab, n⟩ objects cursor builder)
      (TypedBox.putEachWithin ⟨b, n⟩ objects o builder)
      (fun r s conn db => r = s.1 ∧ Scene.works cursor txn b.type (.write s.2) conn db)
      (.writes cursor txn b.type) := by
  induction objects generalizing o builder with
  | nil => exact .of_pure fun _ _ hworks => ⟨rfl, hworks⟩
  | cons object objects ih =>
    refine (follows_putWithin hb n object cursor txn o builder).bind fun r s => .of_and ?_
    rintro rfl
    refine (ih s.2.1 s.2.2).bind fun r' s' => .of_and ?_
    rintro rfl
    exact .of_pure fun _ _ hworks => ⟨rfl, hworks⟩

theorem endsAs_put (hb : ab.Mirrors b) (n : BoxNumber) (object : α) :
    (AgentBox.put ⟨ab, n⟩ object).EndsAs (TypedBox.put ⟨b, n⟩ object) := by
  unfold AgentBox.put TypedBox.put
  dsimp only
  rw [hb.withId]
  refine (follows_run_write hb.type n fun cursor txn o => ?_).bind fun id => .of_pure _
  refine (follows_putWithin hb n object cursor txn o .new).bind fun r s => .of_and ?_
  rintro rfl
  exact .of_pure fun _ _ hworks => ⟨rfl, hworks⟩

theorem endsAs_putAll (hb : ab.Mirrors b) (n : BoxNumber) (objects : List α) :
    (AgentBox.putAll ⟨ab, n⟩ objects).EndsAs (TypedBox.putAll ⟨b, n⟩ objects) := by
  unfold AgentBox.putAll TypedBox.putAll
  dsimp only
  rw [hb.withId]
  split
  · exact .of_pure _
  · exact (follows_run_write hb.type n fun cursor txn o =>
      follows_putEachWithin hb n objects cursor txn o .new).bind fun ids => .of_pure _

/-! ## Reading and removing -/

/-- A call through a cursor of a read that only looks at the objects. -/
theorem follows_look (cursor txn : Handle) (type : TypeId) (snapshot : Contents) (c : Call)
    (answer : Answer) (hc : c.isPlain = true)
    (hcall : ∀ conn : Connection, conn.cursor cursor = .ok (⟨txn, type⟩, .read snapshot) →
      conn.call? c = .ok (answer, conn)) :
    Follows (.works cursor txn type (.read snapshot))
      (demand c : Errand τ thread (Option Answer)) (pure () : Operation σ Unit)
      (fun r _ conn db => r = some answer ∧ Scene.works cursor txn type (.read snapshot) conn db)
      (.works cursor txn type (.read snapshot)) := by
  refine follows_call (performs_demand c) hc fun conn ctx hstore hworks => ?_
  rw [hcall conn (Connection.cursor_eq_ok.2 hworks)]
  exact ⟨_, (), rfl, congrArg _ (withStore_of_eq hstore).symm, rfl, hworks⟩

theorem endsAs_getAll (hb : ab.Mirrors b) (n : BoxNumber) :
    (AgentBox.getAll ⟨ab, n⟩ : Errand τ thread (List α)).EndsAs
      (TypedBox.getAll ⟨b, n⟩ : Operation σ (List α)) := by
  refine follows_run_read hb.type n fun cursor txn snapshot => ?_
  refine (follows_look cursor txn b.type snapshot (.getAll cursor true)
    (.list (snapshot.payloads b.type).values) rfl fun conn hcursor => ?_).bind_left
      fun r => .of_and ?_
  · rw [Connection.call?, hcursor]
    rfl
  · rintro rfl
    dsimp only
    rw [hb.restore]
    exact .lift _ fun _ _ => id

theorem endsAs_contains (hb : ab.Mirrors b) (n : BoxNumber) (id : ObjectId) :
    (AgentBox.contains ⟨ab, n⟩ id : Errand τ thread Bool).EndsAs
      (TypedBox.contains ⟨b, n⟩ id : Operation σ Bool) := by
  refine follows_run_read hb.type n fun cursor txn snapshot => ?_
  refine (follows_look cursor txn b.type snapshot (.contains cursor id true)
    (.flag ((snapshot.payloads b.type).contains id)) rfl fun conn hcursor => ?_).bind_left
      fun r => .of_and ?_
  · rw [Connection.call?, hcursor]
    rfl
  · rintro rfl
    exact .of_pure fun _ _ hworks => ⟨rfl, hworks⟩

theorem endsAs_count (hb : ab.Mirrors b) (n : BoxNumber) :
    (AgentBox.count ⟨ab, n⟩ : Errand τ thread Nat).EndsAs
      (TypedBox.count ⟨b, n⟩ : Operation σ Nat) := by
  refine follows_run_read hb.type n fun cursor txn snapshot => ?_
  refine (follows_look cursor txn b.type snapshot (.count cursor true)
    (.count (snapshot.payloads b.type).size) rfl fun conn hcursor => ?_).bind_left
      fun r => .of_and ?_
  · rw [Connection.call?, hcursor]
    rfl
  · rintro rfl
    exact .of_pure fun _ _ hworks => ⟨rfl, hworks⟩

theorem call_get_of_none {conn : Connection} {cursor : Handle} {c : Cursor} {snapshot : Contents}
    {id : ObjectId} (hcursor : conn.cursor cursor = .ok (c, .read snapshot))
    (hnone : (snapshot.payloads c.type).get? id = none) :
    conn.call (.get cursor id true) = (.error (.notFound id), conn) := by
  have hcall : conn.call? (.get cursor id true) = .error (.notFound id) := by
    rw [Connection.call?, hcursor]
    simp only [bind, Except.bind, TxnMode.payloads, hnone]
    rfl
  rw [Connection.call_of_error hcall]
  rfl

theorem call_get_of_some {conn : Connection} {cursor : Handle} {c : Cursor} {snapshot : Contents}
    {id : ObjectId} {payload : Bytes} (hcursor : conn.cursor cursor = .ok (c, .read snapshot))
    (hsome : (snapshot.payloads c.type).get? id = some payload) :
    conn.call (.get cursor id true) = (.ok (.data payload), conn) := by
  apply Connection.call_of_ok
  rw [Connection.call?, hcursor]
  simp only [bind, Except.bind, TxnMode.payloads, hsome]
  rfl

/-- That nothing is found is no failure. -/
theorem endsAs_get (hb : ab.Mirrors b) (n : BoxNumber) (id : ObjectId) :
    (AgentBox.get ⟨ab, n⟩ id).EndsAs (TypedBox.get ⟨b, n⟩ id : Operation σ (Option α)) := by
  refine follows_run_read hb.type n fun cursor txn snapshot a conn ctx hshows hworks => ?_
  obtain ⟨a', hinvoke, halone, hkeeps, -⟩ :=
    invoke_of_alone hshows.toAloneWith true (.get cursor id true)
  have hcursor : conn.cursor cursor = .ok (⟨txn, b.type⟩, .read snapshot) :=
    Connection.cursor_eq_ok.2 hworks
  dsimp only
  rw [bind_of_ok (own_eq _ a), bind_of_ok hinvoke, hb.restore]
  cases hget : (snapshot.payloads b.type).get? id with
  | none =>
    have hcall := call_get_of_none hcursor hget
    rw [hcall] at halone ⊢
    exact .ok (hshows.stay halone hkeeps) ⟨rfl, hworks⟩
  | some payload =>
    have hcall := call_get_of_some hcursor hget
    rw [hcall] at halone ⊢
    exact Follows.lift _ (fun _ _ => fun h => h) a' conn ctx (hshows.stay halone hkeeps) hworks

theorem endsAs_remove (hb : ab.Mirrors b) (n : BoxNumber) (id : ObjectId) :
    (AgentBox.remove ⟨ab, n⟩ id : Errand τ thread Unit).EndsAs
      (TypedBox.remove ⟨b, n⟩ id : Operation σ Unit) := by
  refine follows_run_write hb.type n fun cursor txn o => ?_
  have hremove : Follows (.works cursor txn b.type (.write o))
      (demand (.remove cursor id) : Errand τ thread (Option Answer))
      (Operation.liftStore (o.remove b.type id) : Operation σ Overlay)
      (fun _ o' => .works cursor txn b.type (.write o')) (.writes cursor txn b.type) := by
    refine follows_mere_call (performs_demand _) rfl (fun _ => rfl) fun conn ctx hstore hworks => ?_
    have hcall : conn.call? (.remove cursor id) = (do
        let changes ← o.remove b.type id
        return (.done, conn.setChanges txn changes)) := by
      rw [Connection.call?, Connection.writer_eq_ok.2 hworks]
      rfl
    rw [hcall]
    unfold Operation.liftStore
    cases o.remove b.type id with
    | error e => exact ⟨rfl, _, ⟨o, rfl⟩, hworks⟩
    | ok o' =>
      exact ⟨_, o', rfl, congrArg _ (withStore_of_eq hstore).symm, hworks.1,
        SortedMap.get?_insert_self _ _ _⟩
  exact hremove.bind fun _ o' => .of_pure fun _ _ hworks => ⟨rfl, hworks⟩

theorem endsAs_removeAll (hb : ab.Mirrors b) (n : BoxNumber) :
    (AgentBox.removeAll ⟨ab, n⟩ : Errand τ thread Unit).EndsAs
      (TypedBox.removeAll ⟨b, n⟩ : Operation σ Unit) := by
  refine follows_run_write hb.type n fun cursor txn o => ?_
  have hremoveAll : Follows (.works cursor txn b.type (.write o))
      (demand (.removeAll cursor true) : Errand τ thread (Option Answer))
      (pure (o.removeAll b.type).2 : Operation σ Overlay)
      (fun _ o' => .works cursor txn b.type (.write o')) (.writes cursor txn b.type) := by
    refine follows_mere_call (performs_demand _) rfl (fun _ => rfl) fun conn ctx hstore hworks => ?_
    have hcall : conn.call? (.removeAll cursor true)
        = .ok (.count (o.removeAll b.type).1, conn.setChanges txn (o.removeAll b.type).2) := by
      rw [Connection.call?, Connection.writer_eq_ok.2 hworks]
      rfl
    rw [hcall]
    exact ⟨_, _, rfl, congrArg _ (withStore_of_eq hstore).symm, hworks.1,
      SortedMap.get?_insert_self _ _ _⟩
  exact hremoveAll.bind fun _ o' => .of_pure fun _ _ hworks => ⟨rfl, hworks⟩

/-! ## Putting later -/

end Errand

/-- A lender may change. -/
theorem Agent.Shows.setLender {τ : Type} {thread : Thread} {a : Agent τ thread} {conn : Connection}
    {db : Database} (h : a.Shows conn db) {n : BoxNumber} {core : BoxCore}
    (hcore : a.cores[n]? = some core) (f : Lender → Lender) :
    Agent.Shows
      { a with cores := a.cores.modify n fun core => { core with lender := f core.lender } } conn
      (db.setLender n (f core.lender)) := by
  refine h.modify n (fun other hother => ?_) (fun _ => rfl) fun _ _ => id
  obtain rfl := Option.some.inj (hcore.symm.trans hother)
  rfl

namespace Scene

/-- A handle stands for a box of a type. -/
def hasBox (h : Handle) (type : TypeId) : Scene := fun conn _ => conn.boxes.get? h = some type

/-- And the box is this one. -/
def hasOpenBox (h : Handle) (type : TypeId) (n : BoxNumber) : Scene := fun conn db =>
  conn.boxes.get? h = some type ∧ db.isOpen n = true

theorem hasBox_lasts (h : Handle) (type : TypeId) : (hasBox h type).Lasts :=
  fun _ _ _ _ hleaves hbox => hleaves.boxes hbox

end Scene

namespace Errand

variable {σ τ α β : Type} {thread : Thread} {ab : AgentBinding τ thread α} {b : Binding σ α}

/-- Asking for an ID through a box. -/
theorem follows_boxId (n : BoxNumber) (h : Handle) (candidate : ObjectId) :
    Follows (.hasOpenBox h b.type n) (demandId (.boxId h candidate) : Errand τ thread ObjectId)
      (TypedBox.issueId ⟨b, n⟩ candidate)
      (fun r s conn db => r = s ∧ Scene.hasOpenBox h b.type n conn db) .any := by
  refine follows_mere_call (performs_demandId _) rfl (fun _ => rfl) fun conn ctx hstore hbox => ?_
  have hcall : conn.call? (.boxId h candidate)
      = (conn.store.issueId b.type candidate).map fun issued =>
        (.id issued.1, { conn with store := issued.2 }) := by
    rw [Connection.call?, Connection.box_eq_ok.2 hbox.1]
    show (conn.store.issueId b.type candidate).bind _ = _
    cases conn.store.issueId b.type candidate <;> rfl
  rw [hcall]
  unfold TypedBox.issueId
  cases hissue : conn.store.issueId b.type candidate with
  | error e => exact ⟨Operation.store_of_error (hstore ▸ hissue), trivial⟩
  | ok issued =>
    obtain ⟨id, store⟩ := issued
    exact ⟨id, id, rfl, Operation.store_of_ok (hstore ▸ hissue), rfl, hbox⟩

theorem follows_borrow (n : BoxNumber) (h : Handle) :
    Follows (.hasOpenBox h b.type n) (AgentBox.borrow ⟨ab, n⟩) (TypedBox.borrow ⟨b, n⟩)
      (fun r s conn db => r = s ∧ Scene.hasBox h b.type conn db) .any := by
  rintro a conn ctx hshows ⟨hbox, hopen⟩
  rw [hshows.isOpen_box] at hopen
  cases hcore : a.cores[n]? with
  | none =>
    rw [hcore] at hopen
    cases hopen
  | some core =>
    have hstate : ctx.db.boxes[n]? = some core.state := by
      rw [← hshows.boxes, List.getElem?_map, hcore]
      rfl
    have hisOpen : core.state.isOpen = true := by
      rw [hcore] at hopen
      exact hopen
    have hborrow : TypedBox.borrow ⟨b, n⟩ ctx = .ok core.lender.lend.1
        { ctx with db := ctx.db.setLender n core.lender.lend.2 } := by
      have hrequired : ctx.db.requireBox b.type n = .ok core.state := by
        rw [Database.requireBox, hstate]
        simp only [hisOpen, if_true]
      refine Operation.update_of_ok ?_
      dsimp only
      rw [hrequired]
      rfl
    have hlend : AgentBox.borrow ⟨ab, n⟩ a = .ok core.lender.lend.1
        { a with cores := a.cores.modify n fun core => { core with lender := core.lender.lend.2 } } := by
      unfold AgentBox.borrow
      simp only [hcore]
    rw [hborrow, hlend]
    exact .ok (hshows.setLender hcore fun l => l.lend.2) ⟨rfl, hbox⟩

/-- The builder is given back on both sides. -/
theorem giveBack_of_shows {a : Agent τ thread} {conn : Connection} {ctx : Context σ}
    (hshows : a.Shows conn ctx.db) (n : BoxNumber) (loan : Loan) :
    ∃ a' ctx', AgentBox.giveBack ⟨ab, n⟩ loan a = .ok () a' ∧
      TypedBox.giveBack ⟨b, n⟩ loan ctx = .ok () ctx' ∧ a'.Shows conn ctx'.db := by
  refine ⟨_, _, rfl, rfl, ?_⟩
  dsimp only
  rw [← hshows.boxes, List.getElem?_map]
  cases hcore : a.cores[n]? with
  | some core => exact hshows.setLender hcore fun l => l.takeBack loan
  | none =>
    have hsame := hshows.modify n (f := fun core => { core with lender := core.lender.takeBack loan })
      (g := id) (fun core hsome => by rw [hcore] at hsome; cases hsome) (fun _ => rfl) fun _ _ => id
    rw [List.modify_id] at hsame
    exact hsame

/-- A put is queued. -/
theorem follows_queue (h : Handle) (type : TypeId) (id : ObjectId) (outcome : Except BoxError Bytes)
    (mayReplace : Bool) :
    Follows (.hasBox h type)
      (do
        let bytes ← lift outcome
        let _ ← demand (.putAsync h id (some bytes) mayReplace) : Errand τ thread Unit)
      (do
        let bytes ← Operation.lift outcome
        Operation.store fun s => (s.enqueue ⟨type, id, bytes, mayReplace⟩).map ((), ·) :
          Operation σ Unit)
      (fun _ _ => .any) .any := by
  refine (Follows.lift outcome fun _ _ _ => trivial).bind_same fun bytes => ?_
  refine Follows.map_left (Q := fun _ _ => .any) ?_ (fun _ => ()) fun _ _ _ _ _ => trivial
  refine follows_mere_call (performs_demand _) rfl (fun _ => rfl) fun conn ctx hstore hbox => ?_
  have hcall : conn.call? (.putAsync h id (some bytes) mayReplace) = (do
      let store ← conn.store.enqueue ⟨type, id, bytes, mayReplace⟩
      return (.done, { conn with store := store })) := by
    rw [Connection.call?, Connection.box_eq_ok.2 hbox]
    rfl
  rw [hcall]
  cases hqueue : conn.store.enqueue ⟨type, id, bytes, mayReplace⟩ with
  | error e =>
    refine ⟨Operation.store_of_error ?_, trivial⟩
    rw [← hstore, hqueue]
    rfl
  | ok store =>
    refine ⟨_, (), rfl, Operation.store_of_ok ?_, trivial⟩
    rw [← hstore, hqueue]
    rfl

/-- Where the errand cleans up, the operation goes on after a failure to do the same. -/
theorem follows_attempt {P : Scene} {x : Errand τ thread Unit} {y : Operation σ Unit}
    (h : Follows P x y (fun _ _ => .any) .any) {cleanup : Errand τ thread Unit}
    {cleanup' : Operation σ Unit}
    (hclean : ∀ a conn ctx, a.Shows conn ctx.db → ∃ a' ctx', cleanup a = .ok () a' ∧
      cleanup' ctx = .ok () ctx' ∧ a'.Shows conn ctx'.db) (result : β) :
    Follows P
      (do
        andAlways x cleanup
        return result)
      (do
        let done ← Operation.attempt y
        cleanup'
        Operation.lift done
        return result)
      (fun r s _ _ => r = s) .any := by
  intro a conn ctx hshows hP
  have hend := h a conn ctx hshows hP
  -- both go on to clean up, and only then does the error come out
  cases hx : x a with
  | ok _ a₁ =>
    rw [hx] at hend
    cases hy : y ctx with
    | error e ctx₁ =>
      rw [hy] at hend
      cases hend
    | ok _ ctx₁ =>
      rw [hy] at hend
      cases hend with
      | ok hshows₁ _ =>
        obtain ⟨a₂, ctx₂, hclean₂, hclean₂', hshows₂⟩ := hclean _ _ _ hshows₁
        rw [bind_of_ok (andAlways_of_ok hx hclean₂),
          Operation.bind_of_ok (Operation.attempt_of_ok hy), Operation.bind_of_ok hclean₂']
        exact .ok hshows₂ rfl
  | error e a₁ =>
    rw [hx] at hend
    cases hy : y ctx with
    | ok _ ctx₁ =>
      rw [hy] at hend
      cases hend
    | error e' ctx₁ =>
      rw [hy] at hend
      cases hend with
      | error _ hshows₁ _ =>
        obtain ⟨a₂, ctx₂, hclean₂, hclean₂', hshows₂⟩ := hclean _ _ _ hshows₁
        rw [bind_of_error (andAlways_of_error hx hclean₂),
          Operation.bind_of_ok (Operation.attempt_of_error hy), Operation.bind_of_ok hclean₂']
        exact .error e hshows₂ trivial

/-- **A put that is queued** goes through the handle of the box, which stands for its type. -/
theorem follows_putAsync (hb : ab.Mirrors b) (n : BoxNumber) (object : α) :
    Follows (fun _ db => db.Serves n b.type) (AgentBox.putAsync ⟨ab, n⟩ object)
      (TypedBox.putAsync ⟨b, n⟩ object) (fun r s _ _ => r = s) .any := by
  unfold AgentBox.putAsync TypedBox.putAsync
  dsimp only
  rw [hb.idOf, hb.withId]
  refine ((follows_require hb.type n).widen fun _ _ _ => trivial).bind fun h box => ?_
  have hbox : ∀ (conn : Connection) (db : Database), (db.Serves n b.type ∧
      db.boxes[n]? = some box ∧ box.isOpen = true ∧ conn.boxes.get? h = some box.type) →
      Scene.hasOpenBox h b.type n conn db := by
    rintro conn db ⟨⟨_, hfound, htype⟩, hn, hopen, hhandle⟩
    obtain rfl := Option.some.inj (hn.symm.trans hfound)
    refine ⟨htype ▸ hhandle, Database.isOpen_iff.2 ⟨box, hn, hopen⟩⟩
  refine Follows.strengthen ?_ hbox
  refine (Follows.lift _ fun _ _ _ => trivial).bind_same fun candidate => ?_
  refine (follows_boxId n h candidate).bind_same fun id => ?_
  refine (follows_borrow n h).bind_same fun loan => ?_
  have hserialize := follows_serialize hb n (Scene.hasBox_lasts h b.type) object id loan.builder
  refine (hserialize.widen fun _ _ _ => trivial).bind_same fun serialized => ?_
  exact follows_attempt (follows_queue h b.type id serialized.1 _)
    (fun a conn ctx hshows => giveBack_of_shows hshows n _) _

end Errand

end ObjectStore
