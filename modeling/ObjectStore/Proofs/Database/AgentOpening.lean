import Mathlib
import ObjectStore.Proofs.Database.LoneAgent
import ObjectStore.Proofs.Text.Utf8

/-!
# Opening and closing over a connection

An agent that opens a box gets a handle for it, and one that closes a box gives the handle up.  The
handles of open boxes stay apart, as a new one was never given out before, and so the agent goes on
showing a database whatever it opens and closes: a single box, all of them with the database, and
the database itself.
-/

namespace ObjectStore

variable {σ τ α : Type} {thread : Thread}

/-- An open store is closed, or waits for ever. -/
theorem Store.exists_close {s : Store} (hopen : s.closed = false)
    (hready : s.close ≠ .error .wouldWait) : ∃ s', s.close = .ok s' ∧ s'.closed = true := by
  by_cases hstopped : s.stopAccepting.settle.queue.worker = .stopped
  · exact ⟨_, Store.close_eq_ok.2 ⟨hopen, hstopped, rfl⟩, rfl⟩
  · refine absurd ?_ hready
    have hrequired : s.requireOpen = .ok () := Store.requireOpen_eq_ok.2 hopen
    have hstopped' : ¬ (Store.settle { s with queue := s.queue.stopAccepting }).queue.worker
        = .stopped := hstopped
    rw [Store.close, hrequired]
    simp only [bind, Except.bind, if_neg hstopped']
    rfl

/-! ## Boxes -/

namespace Errand

variable {a : Agent τ thread} {conn : Connection} {db : Database} {n : BoxNumber}

/-- A box that is not open cannot be closed. -/
theorem closeCore_of_closed (hshows : a.Shows conn db) (hclosed : db.isOpen n = false)
    (matters : Bool) (type : TypeId) :
    closeCore matters type n a = .error (.boxAlreadyClosed type) a := by
  rw [hshows.isOpen_box] at hclosed
  have htake : takeHandle type n a = .error (.boxAlreadyClosed type) a := by
    unfold takeHandle
    cases hcore : (a.cores[n]?).bind BoxCore.handle with
    | none => rfl
    | some h =>
      rw [hcore] at hclosed
      cases hclosed
  unfold closeCore
  rw [bind_of_error htake]

/-- A handle that no box has any more is given up. -/
theorem closeBox_of_shows (hshows : a.Shows conn db) {h : Handle} {type : TypeId}
    (hbox : conn.boxes.get? h = some type)
    (hgone : ∀ {m : BoxNumber} {core : BoxCore}, a.cores[m]? = some core → core.handle ≠ some h)
    (matters : Bool) :
    ∃ a' conn', (do
        let reply ← invoke matters (← own (.closeBox h))
        check reply.status : Errand τ thread Unit) a = .ok () a' ∧ a'.Shows conn' db := by
  obtain ⟨a', hinvoke, halone, hkeeps, -⟩ :=
    invoke_of_alone hshows.toAloneWith matters (.closeBox h)
  have hcall : conn.call (.closeBox h) = (.ok .done, { conn with boxes := conn.boxes.erase h }) := by
    apply Connection.call_of_ok
    rw [Connection.call?, Connection.box_eq_ok.2 hbox]
    rfl
  rw [hcall] at hinvoke halone
  refine ⟨a', { conn with boxes := conn.boxes.erase h }, ?_, ?_⟩
  · rw [bind_of_ok (own_eq _ a), bind_of_ok hinvoke]
    rfl
  constructor
  · exact halone
  · exact hshows.store
  · exact hkeeps.isOpen.trans hshows.isOpen
  · exact hkeeps.current.trans hshows.current
  · rw [hkeeps.cores]
    exact hshows.boxes
  · intro m core h' hm hh'
    rw [hkeeps.cores] at hm
    have hother : h' ≠ h := by
      rintro rfl
      exact hgone hm hh'
    show (conn.boxes.erase h).get? h' = _
    rw [SortedMap.get?_erase, if_neg hother]
    exact hshows.handles hm hh'
  · rw [hkeeps.cores]
    exact hshows.apart

/-- **A box is closed** on both sides. -/
theorem closeCore_of_open (hshows : a.Shows conn db) (hopen : db.isOpen n = true)
    (matters : Bool) (type : TypeId) :
    ∃ a' conn', closeCore matters type n a = .ok () a' ∧
      a'.Shows conn' { db with boxes := Database.markClosed db.boxes n } := by
  rw [hshows.isOpen_box] at hopen
  obtain ⟨h, hh⟩ := Option.isSome_iff_exists.1 hopen
  obtain ⟨core, hcore, hhandle⟩ := Option.bind_eq_some_iff.1 hh
  -- the agent first gives the handle up, and then calls
  have htake : takeHandle type n a = .ok h
      { a with cores := a.cores.modify n fun core => { core with handle := none } } := by
    unfold takeHandle
    simp only [hh]
  have htaken := hshows.modify n (f := fun core => { core with handle := none })
    (g := fun box => { box with isOpen := false }) (fun _ _ => rfl) (fun _ => rfl) fun _ _ => nofun
  have hgone : ∀ {m : BoxNumber} {other : BoxCore},
      (a.cores.modify n fun core => { core with handle := none })[m]? = some other →
      other.handle ≠ some h := by
    intro m other hm hother
    rw [List.getElem?_modify] at hm
    obtain ⟨old, hold, rfl⟩ := Option.map_eq_some_iff.1 hm
    by_cases hnm : n = m
    · rw [if_pos hnm] at hother
      cases hother
    · rw [if_neg hnm] at hother
      exact hnm (hshows.apart hcore hold hhandle hother)
  obtain ⟨a', conn', hrun, hshows'⟩ :=
    closeBox_of_shows htaken (hshows.handles hcore hhandle) hgone matters
  exact ⟨a', conn', (bind_of_ok htake).trans hrun, hshows'⟩

/-- **Closing a box** ends as on the database. -/
theorem endsAs_close (b : Binding σ α) (n : BoxNumber) :
    (closeCore true b.type n : Errand τ thread Unit).EndsAs (TypedBox.close ⟨b, n⟩) := by
  intro a conn ctx hshows _
  unfold TypedBox.close
  cases hopen : ctx.db.isOpen n with
  | false =>
    have hclose : (ctx.db.closeBox b.type n).map ((), ·) = .error (.boxAlreadyClosed b.type) := by
      rw [Database.closeBox, hopen]
      rfl
    rw [closeCore_of_closed hshows hopen, Operation.update_of_error hclose]
    exact .error _ hshows trivial
  | true =>
    obtain ⟨a', conn', hrun, hshows'⟩ := closeCore_of_open hshows hopen true b.type
    have hclose : (ctx.db.closeBox b.type n).map ((), ·)
        = .ok ((), { ctx.db with boxes := Database.markClosed ctx.db.boxes n }) := by
      rw [Database.closeBox, hopen]
      rfl
    rw [hrun, Operation.update_of_ok hclose]
    exact .ok hshows' rfl

/-- A box that cannot be closed is closed already. -/
theorem markClosed_of_closed (hclosed : db.isOpen n = false) :
    Database.markClosed db.boxes n = db.boxes := by
  apply List.ext_getElem?
  intro m
  rw [Database.markClosed, List.getElem?_modify]
  cases hm : db.boxes[m]? with
  | none => rfl
  | some box =>
    show some (if n = m then { box with isOpen := false } else box) = some box
    by_cases hnm : n = m
    · obtain rfl := hnm
      rw [Database.isOpen, hm] at hclosed
      have hstate : box.isOpen = false := hclosed
      rw [if_pos rfl, ← hstate]
    · rw [if_neg hnm]

/-- **Boxes are closed** one after the other. -/
theorem closeCores_of_shows (hshows : a.Shows conn db) (boxes : List (TypeId × BoxNumber)) :
    ∃ a' conn', closeCores boxes a = .ok () a' ∧
      a'.Shows conn'
        { db with boxes := (boxes.map Prod.snd).foldl Database.markClosed db.boxes } := by
  induction boxes generalizing a conn db with
  | nil => exact ⟨a, conn, rfl, hshows⟩
  | cons box boxes ih =>
    obtain ⟨type, n⟩ := box
    have hone : ∃ a' conn', regardless (closeCore false type n) a = .ok () a' ∧
        a'.Shows conn' { db with boxes := Database.markClosed db.boxes n } := by
      unfold regardless
      cases hopen : db.isOpen n with
      | false =>
        rw [closeCore_of_closed hshows hopen, markClosed_of_closed hopen]
        exact ⟨a, conn, rfl, hshows⟩
      | true =>
        obtain ⟨a', conn', hrun, hshows'⟩ := closeCore_of_open hshows hopen false type
        rw [hrun]
        exact ⟨a', conn', rfl, hshows'⟩
    obtain ⟨a₁, conn₁, hrun, hshows₁⟩ := hone
    obtain ⟨a₂, conn₂, hrest, hshows₂⟩ := ih hshows₁
    exact ⟨a₂, conn₂, (bind_of_ok hrun).trans hrest, hshows₂⟩

theorem requireOpen_of_shows (hshows : a.Shows conn db) :
    requireOpen a = if db.store.closed then .error .databaseClosed a else .ok () a := by
  unfold requireOpen
  rw [hshows.isOpen]
  cases db.store.closed <;> rfl

/-- A new box gets a handle that no other box has. -/
theorem keepBox_of_shows {a' : Agent τ thread} (hshows : a.Shows conn db) (type : TypeId)
    (halone : a'.AloneWith { conn with
      boxes := conn.boxes.insert conn.nextHandle type
      nextHandle := conn.nextHandle + 1 }) (hkeeps : a.Keeps a') :
    ∃ a'', keepBox type conn.nextHandle a' = .ok db.boxes.length a'' ∧ a''.Shows
      { conn with
        boxes := conn.boxes.insert conn.nextHandle type
        nextHandle := conn.nextHandle + 1 }
      { db with
        boxes := db.boxes ++ [⟨type, true, .new⟩]
        current := db.current.insert type db.boxes.length } := by
  have hlength : a'.cores.length = db.boxes.length := by
    rw [hkeeps.cores, ← hshows.boxes, List.length_map]
  -- a box with a handle is an earlier one or the new one
  have hcases : ∀ {m : BoxNumber} {core : BoxCore} {h : Handle},
      (a'.cores ++ [(⟨type, some conn.nextHandle, .new⟩ : BoxCore)])[m]? = some core →
      core.handle = some h →
      (a.cores[m]? = some core ∧ h ≠ conn.nextHandle) ∨
        (m = a.cores.length ∧ h = conn.nextHandle ∧ core.type = type) := by
    intro m core h hm hh
    rw [hkeeps.cores] at hm
    rcases Nat.lt_trichotomy m a.cores.length with hlt | rfl | hlt
    · rw [List.getElem?_append_left hlt] at hm
      exact Or.inl ⟨hm, Nat.ne_of_lt (hshows.dealt.boxes (hshows.handles hm hh))⟩
    · rw [List.getElem?_concat_length] at hm
      cases hm
      cases hh
      exact Or.inr ⟨rfl, rfl, rfl⟩
    · rw [List.getElem?_eq_none (by rw [List.length_append, List.length_singleton]; omega)] at hm
      cases hm
  refine ⟨_, congrArg (EStateM.Result.ok · _) hlength, ?_⟩
  constructor
  · exact ⟨halone.regular.of_client rfl, halone.quiet, halone.connection⟩
  · exact hshows.store
  · exact hkeeps.isOpen.trans hshows.isOpen
  · show a'.current.insert type a'.cores.length = _
    rw [hkeeps.current, hshows.current, hlength]
  · show (a'.cores ++ [(⟨type, some conn.nextHandle, .new⟩ : BoxCore)]).map BoxCore.state = _
    rw [List.map_append, hkeeps.cores, hshows.boxes]
    rfl
  · intro m core h hm hh
    show (conn.boxes.insert conn.nextHandle type).get? h = _
    rw [SortedMap.get?_insert]
    rcases hcases hm hh with ⟨hold, hne⟩ | ⟨-, rfl, htype⟩
    · rw [if_neg hne]
      exact hshows.handles hold hh
    · rw [if_pos rfl, htype]
  · intro m m' core core' h hm hm' hh hh'
    rcases hcases hm hh with ⟨hold, hne⟩ | ⟨hlast, heq, -⟩
    · rcases hcases hm' hh' with ⟨hold', -⟩ | ⟨-, heq', -⟩
      · exact hshows.apart hold hold' hh hh'
      · exact absurd heq' hne
    · rcases hcases hm' hh' with ⟨-, hne'⟩ | ⟨hlast', -, -⟩
      · exact absurd heq hne'
      · exact hlast.trans hlast'.symm

/-- **A box is opened** on both sides, under the same number. -/
theorem endsAs_openCore (type : TypeId) :
    (openCore type : Errand τ thread BoxNumber).EndsAs
      (Operation.update fun db => db.openBox type : Operation σ BoxNumber) := by
  intro a conn ctx hshows _
  have hopen := requireOpen_of_shows hshows
  unfold openCore
  cases hclosed : ctx.db.store.closed with
  | true =>
    have hrefused : ctx.db.openBox type = .error .databaseClosed := by
      rw [Database.openBox, Database.requireOpen, Database.isClosed, hclosed]
      rfl
    rw [hclosed] at hopen
    rw [bind_of_error hopen, Operation.update_of_error hrefused]
    exact .error _ hshows trivial
  | false =>
    rw [hclosed] at hopen
    rw [bind_of_ok hopen]
    have hrequired : ctx.db.requireOpen = .ok () := by
      rw [Database.requireOpen, Database.isClosed, hclosed]
      rfl
    have hhandle : conn.ensureHandle = .ok () :=
      Connection.ensureHandle_eq_ok.2 (by rw [hshows.store, hclosed])
    have hperformed := performs_opened "box" (.openBox type true) a conn hshows.toAloneWith
    -- the call and what is made of its answer are taken together
    rw [← bind_assoc]
    cases htype : ctx.db.store.requireType type with
    | error e =>
      have hcall : conn.call? (.openBox type true) = .error e := by
        rw [Connection.call?, hhandle, hshows.store, htype]
        rfl
      have hrefused : ctx.db.openBox type = .error (.ofStore e) := by
        rw [Database.openBox, hrequired, htype]
        rfl
      simp only [hcall] at hperformed
      obtain ⟨a', hrun, halone, hkeeps⟩ := hperformed
      rw [bind_of_error hrun, Operation.update_of_error hrefused]
      exact .error _ (hshows.stay halone hkeeps) trivial
    | ok _ =>
      have hcall : conn.call? (.openBox type true) = .ok (.opened conn.nextHandle, { conn with
          boxes := conn.boxes.insert conn.nextHandle type
          nextHandle := conn.nextHandle + 1 }) := by
        rw [Connection.call?, hhandle, hshows.store, htype]
        rfl
      have hopened : ctx.db.openBox type = .ok (ctx.db.boxes.length, { ctx.db with
          boxes := ctx.db.boxes ++ [⟨type, true, .new⟩]
          current := ctx.db.current.insert type ctx.db.boxes.length }) := by
        rw [Database.openBox, hrequired, htype]
        rfl
      simp only [hcall] at hperformed
      obtain ⟨a', hrun, halone, hkeeps⟩ := hperformed conn.nextHandle rfl
      obtain ⟨a'', hkept, hshown⟩ := keepBox_of_shows hshows type halone hkeeps
      rw [bind_of_ok hrun, hkept, Operation.update_of_ok hopened]
      exact .ok hshown rfl

/-- **The box of a type** is the same one on both sides. -/
theorem follows_boxOf {ab : AgentBinding τ thread α} {b : Binding σ α} (htype : ab.type = b.type) :
    Follows .any (boxOf ab) (Database.boxOf b)
      (fun r s _ _ => r = ⟨ab, s.number⟩ ∧ s.binding = b) .any := by
  intro a conn ctx hshows _
  have hopened : Follows .any
      (do return ⟨ab, ← openCore b.type⟩ : Errand τ thread (AgentBox τ thread α))
      (do return ⟨b, ← Operation.update fun db => db.openBox b.type⟩ : Operation σ (TypedBox σ α))
      (fun r s _ _ => r = ⟨ab, s.number⟩ ∧ s.binding = b) .any :=
    Follows.bind (endsAs_openCore b.type) fun n m =>
      .of_pure fun _ _ hsame => ⟨congrArg (AgentBox.mk ab) hsame, rfl⟩
  -- where there is no open box, a new one is opened
  have hnew : ctx.db.findOrOpen b.type = ctx.db.openBox b.type → Database.boxOf b ctx
      = (do return ⟨b, ← Operation.update fun db => db.openBox b.type⟩ : Operation σ _) ctx := by
    intro hfind
    unfold Database.boxOf
    cases hopen : ctx.db.openBox b.type with
    | error e =>
      rw [Operation.bind_of_error (Operation.update_of_error hopen)]
      refine Operation.update_of_error ?_
      rw [hfind, hopen]
      rfl
    | ok opened =>
      obtain ⟨n, db⟩ := opened
      rw [Operation.bind_of_ok (Operation.update_of_ok hopen)]
      refine Operation.update_of_ok ?_
      rw [hfind, hopen]
      rfl
  have hget : (get : Errand τ thread (Agent τ thread)) a = .ok a a := rfl
  unfold boxOf
  rw [bind_of_ok hget, htype, hshows.current]
  cases hcurrent : ctx.db.current.get? b.type with
  | none =>
    rw [hnew (by rw [Database.findOrOpen, hcurrent])]
    exact hopened a conn ctx hshows trivial
  | some n =>
    dsimp only
    rw [← hshows.isOpen_box]
    cases hopen : ctx.db.isOpen n with
    | false =>
      rw [hnew (by simp only [Database.findOrOpen, hcurrent, hopen, Bool.false_eq_true, if_false])]
      exact hopened a conn ctx hshows trivial
    | true =>
      have hfound : Database.boxOf b ctx = .ok ⟨b, n⟩ ctx := by
        refine Operation.update_of_ok ?_
        simp only [Database.findOrOpen, hcurrent, hopen, if_true]
        rfl
      rw [hfound]
      exact .ok hshows ⟨rfl, rfl⟩

/-- **Waiting** is one call, once the database was found open. -/
theorem endsAs_awaitPuts :
    (awaitPuts : Errand τ thread Unit).EndsAs (Database.awaitPuts : Operation σ Unit) := by
  have hsteps : (Database.awaitPuts : Operation σ Unit) = (do
      Operation.query Database.requireOpen
      Operation.store fun s => s.drain.map ((), ·)) := by
    funext ctx
    unfold Database.awaitPuts
    cases hopen : ctx.db.requireOpen with
    | error e =>
      rw [Operation.bind_of_error (Operation.query_of_error hopen)]
      refine Operation.update_of_error ?_
      rw [Database.drain, hopen]
      rfl
    | ok _ =>
      rw [Operation.bind_of_ok (Operation.query_of_ok hopen)]
      cases hdrain : ctx.db.store.drain with
      | error e =>
        rw [Operation.store_of_error (by rw [hdrain]; rfl)]
        refine Operation.update_of_error ?_
        rw [Database.drain, hopen, hdrain]
        rfl
      | ok s =>
        rw [Operation.store_of_ok (by rw [hdrain]; rfl)]
        refine Operation.update_of_ok ?_
        rw [Database.drain, hopen, hdrain]
        rfl
  rw [hsteps]
  refine follows_requireOpen.bind fun _ _ => ?_
  refine Follows.map_left (Q := fun _ _ => .any) ?_ (fun _ => ()) fun _ _ _ _ _ => rfl
  refine follows_mere_call (performs_demand _) rfl (fun _ => rfl) fun conn ctx hstore hopen => ?_
  have hcall : conn.call? .awaitIdle = (do
      let store ← conn.store.drain
      return (.done, { conn with store := store })) := by
    have hhandle : conn.ensureHandle = .ok () := Connection.ensureHandle_eq_ok.2 hopen
    rw [Connection.call?, hhandle]
    rfl
  rw [hcall]
  cases hdrain : conn.store.drain with
  | error e =>
    refine ⟨Operation.store_of_error ?_, trivial⟩
    rw [← hstore, hdrain]
    rfl
  | ok s =>
    refine ⟨_, (), rfl, Operation.store_of_ok ?_, trivial⟩
    rw [← hstore, hdrain]
    rfl

/-! ## Databases -/

/-- The store is closed, and with it the database. -/
theorem closeStore_of_shows (hshows : a.Shows conn db) (hopen : db.store.closed = false) {s : Store}
    (hclose : db.store.close = .ok s) (hclosed : s.closed = true) :
    ∃ a' conn', (do
        shut
        let _ ← demand .close : Errand τ thread Unit) a = .ok () a' ∧
      a'.Shows conn' { db with store := s } := by
  have hshut : (shut : Errand τ thread Unit) a = .ok () { a with isOpen := false } := rfl
  have halone : Agent.AloneWith { a with isOpen := false } conn :=
    ⟨hshows.regular.of_client rfl, hshows.quiet, hshows.connection⟩
  have hcall : conn.call? .close = .ok (.done, { conn with store := s }) := by
    have hhandle : conn.ensureHandle = .ok () :=
      Connection.ensureHandle_eq_ok.2 (by rw [hshows.store, hopen])
    rw [Connection.call?, hhandle, hshows.store, hclose]
    rfl
  have hperformed := performs_demand .close _ conn halone
  simp only [hcall] at hperformed
  obtain ⟨a', hrun, halone', hkeeps⟩ := hperformed _ rfl
  refine ⟨a', { conn with store := s }, ?_, halone', rfl, ?_, ?_, ?_, ?_, ?_⟩
  · rw [bind_of_ok hshut, bind_of_ok hrun]
    rfl
  · rw [hkeeps.isOpen, hclosed]
    rfl
  · exact hkeeps.current.trans hshows.current
  · rw [hkeeps.cores]
    exact hshows.boxes
  · rw [hkeeps.cores]
    exact hshows.handles
  · rw [hkeeps.cores]
    exact hshows.apart

/-- **Closing the database** ends as on the database, where it does not wait for ever. -/
theorem follows_closeAll :
    Follows (fun _ db => db.store.close ≠ .error .wouldWait) (closeAll : Errand τ thread Unit)
      (Database.closeAll : Operation σ Unit) (fun r s _ _ => r = s) .any := by
  intro a conn ctx hshows hready
  have hget : (get : Errand τ thread (Agent τ thread)) a = .ok a a := rfl
  unfold closeAll Database.closeAll
  rw [bind_of_ok hget, hshows.isOpen]
  cases hclosed : ctx.db.store.closed with
  | true =>
    have hrefused : ctx.db.close.map ((), ·) = .error .databaseAlreadyClosed := by
      rw [Database.close, Database.isClosed, hclosed]
      rfl
    rw [Operation.update_of_error hrefused]
    exact .error _ hshows trivial
  | false =>
    obtain ⟨s, hclose, hsclosed⟩ := Store.exists_close hclosed hready
    have hdone : ctx.db.close.map ((), ·) = .ok ((), { ctx.db with
        store := s
        boxes := ctx.db.current.values.foldl Database.markClosed ctx.db.boxes
        current := ∅ }) := by
      rw [Database.close, Database.isClosed, hclosed, hclose]
      rfl
    rw [Operation.update_of_ok hdone]
    -- the errand forgets the boxes first, then closes them one by one, and the store last
    have htaken : Agent.Shows { a with current := ∅ } conn { ctx.db with current := ∅ } :=
      { hshows with
        regular := hshows.regular.of_client rfl
        current := rfl }
    have htake : (takeCurrent : Errand τ thread _) a
        = .ok ctx.db.current.entries { a with current := ∅ } := by
      unfold takeCurrent
      rw [hshows.current]
    obtain ⟨a₂, conn₂, hboxes, hshows₂⟩ := closeCores_of_shows htaken ctx.db.current.entries
    obtain ⟨a₃, conn₃, hstore, hshows₃⟩ := closeStore_of_shows hshows₂ hclosed hclose hsclosed
    have hwhole : (do
        closeCores (← takeCurrent)
        shut
        let _ ← demand .close : Errand τ thread Unit) a = .ok () a₃ := by
      rw [bind_of_ok htake, bind_of_ok hboxes, hstore]
    refine Eq.mpr (congrArg (EndsAlike _ _ · _) hwhole) ?_
    exact .ok hshows₃ rfl

/-- The name of an entity type is passed on as its bytes. -/
theorem entityName_encode {name : String} (h : name.toList.contains '\x00' = false) :
    Connection.entityName (Utf8.encode name.toList) = .ok name := by
  have hwhole : (Utf8.encode name.toList).takeWhile (· != 0) = Utf8.encode name.toList := by
    rw [List.takeWhile_eq_self_iff]
    intro byte hbyte
    rw [bne_iff_ne]
    rintro rfl
    obtain ⟨c, hc, hzero⟩ := List.mem_flatMap.1 hbyte
    obtain rfl := Utf8.eq_zero_of_mem_utf8EncodeChar hzero
    rw [List.contains_iff_mem.2 hc] at h
    cases h
  rw [Connection.entityName, hwhole, Utf8.decode?_encode]
  exact congrArg Except.ok String.ofList_toList

/-- An entity type is registered in the same way. -/
theorem register_of_shows (hshows : a.Shows conn db) (entity : EntityInfo) :
    match Database.register db.store entity with
    | .ok s => ∃ a' conn', register entity a = .ok () a' ∧ a'.Shows conn' { db with store := s }
    | .error e => ∃ a' conn', register entity a = .error e a' ∧ a'.Shows conn' db := by
  unfold Database.register register
  cases hnul : entity.name.toList.contains '\x00' with
  | true => exact ⟨a, conn, rfl, hshows⟩
  | false =>
    have hopen := requireOpen_of_shows hshows
    simp only [Bool.false_eq_true, if_false]
    cases hclosed : db.store.closed with
    | true =>
      have hrefused : db.store.register entity.type entity.name = .error .storeClosed := by
        rw [Store.register, Store.requireOpen, hclosed]
        rfl
      rw [hclosed] at hopen
      rw [hrefused]
      exact ⟨a, conn, bind_of_error hopen, hshows⟩
    | false =>
      rw [hclosed] at hopen
      have hcall : conn.call? (.register entity.type (some (Utf8.encode entity.name.toList)))
          = (do
            let store ← conn.store.register entity.type entity.name
            return (.done, { conn with store := store })) := by
        have hhandle : conn.ensureHandle = .ok () :=
          Connection.ensureHandle_eq_ok.2 (by rw [hshows.store, hclosed])
        rw [Connection.call?, hhandle]
        show (do
          let name ← Connection.entityName (Utf8.encode entity.name.toList)
          let store ← conn.store.register entity.type name
          return (Answer.done, { conn with store := store })) = _
        rw [entityName_encode hnul]
        rfl
      have hperformed := performs_demand
        (.register entity.type (some (Utf8.encode entity.name.toList))) a conn hshows.toAloneWith
      rw [hcall, hshows.store] at hperformed
      rw [bind_of_ok hopen]
      cases hstore : db.store.register entity.type entity.name with
      | error e =>
        rw [hstore] at hperformed
        obtain ⟨a', hrun, halone, hkeeps⟩ := hperformed
        exact ⟨a', conn, bind_of_error hrun, hshows.stay halone hkeeps⟩
      | ok s =>
        rw [hstore] at hperformed
        obtain ⟨a', hrun, halone, hkeeps⟩ := hperformed _ rfl
        obtain ⟨types, rfl⟩ := Store.register_eq_ok hstore
        refine ⟨a', _, bind_of_ok hrun, hshows.goOn halone hkeeps rfl ?_⟩
        rw [hshows.store]

/-- Entity types are registered in order, up to the first one that is refused. -/
theorem registerEach_of_shows (hshows : a.Shows conn db) (entities : List EntityInfo) :
    match entities.foldlM Database.register db.store with
    | .ok s =>
      ∃ a' conn', registerEach entities a = .ok () a' ∧ a'.Shows conn' { db with store := s }
    | .error e => ∃ a' conn', registerEach entities a = .error e a' ∧ a'.AloneWith conn' := by
  induction entities generalizing a conn db with
  | nil => exact ⟨a, conn, rfl, hshows⟩
  | cons entity entities ih =>
    have hfirst := register_of_shows hshows entity
    rw [List.foldlM_cons]
    cases hstore : Database.register db.store entity with
    | error e =>
      rw [hstore] at hfirst
      obtain ⟨a', conn', hrun, hshows'⟩ := hfirst
      exact ⟨a', conn', bind_of_error hrun, hshows'.toAloneWith⟩
    | ok s =>
      rw [hstore] at hfirst
      obtain ⟨a₁, conn₁, hrun, hshows₁⟩ := hfirst
      have hrest := ih hshows₁
      show match entities.foldlM Database.register s with
        | .ok s => _
        | .error e => _
      dsimp only at hrest
      cases hfold : entities.foldlM Database.register s with
      | error e =>
        rw [hfold] at hrest
        obtain ⟨a', conn', hrun', halone⟩ := hrest
        exact ⟨a', conn', (bind_of_ok hrun).trans hrun', halone⟩
      | ok s' =>
        rw [hfold] at hrest
        obtain ⟨a', conn', hrun', hshows'⟩ := hrest
        exact ⟨a', conn', (bind_of_ok hrun).trans hrun', hshows'⟩

/-- **A database is opened**, or fails to with the same error, in any run of an agent that is alone. -/
theorem build_of_quiet (hregular : a.Regular) (hquiet : a.elsewhere = []) (plan : DatabasePlan) :
    match Database.ofPlan plan with
    | .ok db => ∃ a' conn, build plan a = .ok () a' ∧ a'.Shows conn db
    | .error e => ∃ a', build plan a = .error e a' := by
  have hopen : ∃ a₁, demandCall (.openStore (some plan.config.options) true) a
      = .ok (some (.opened a.client.nextConnection)) a₁ ∧ a₁.Regular ∧ a₁.elsewhere = [] ∧
        a₁.client.connections.get? a.client.nextConnection = some (.new plan.config.options) := by
    obtain ⟨events, hevents⟩ := hregular
    let c : ClientCall := .openStore (some plan.config.options) true
    refine ⟨a.note (a.client.call thread c).2 ⟨c, .ok (.opened a.client.nextConnection), true⟩,
      ?_, ⟨events ++ [.call thread c], ?_⟩, hquiet, SortedMap.get?_insert_self _ _ _⟩
    · have hinvoke : invoke true c a = .ok (.of (.ok (.opened a.client.nextConnection)))
          (a.note (a.client.call thread c).2
            ⟨c, .ok (.opened a.client.nextConnection), true⟩) := by
        unfold invoke
        rw [Agent.letHappen_of_quiet hquiet]
        rfl
      unfold demandCall
      rw [bind_of_ok hinvoke]
      rfl
    · rw [Client.after_append, ← hevents]
      rfl
  obtain ⟨a₁, hopened, hregular₁, hquiet₁, hconnection⟩ := hopen
  -- the agent shows the new store
  have hadopted : ∃ a₂, (adopt a.client.nextConnection : Errand τ thread Unit) a₁ = .ok () a₂ ∧
      a₂.Shows (.new plan.config.options)
        { store := .new plan.config.options, boxes := [], current := ∅ } :=
    ⟨_, rfl, ⟨hregular₁.of_client rfl, hquiet₁, hconnection⟩, rfl, rfl, rfl, rfl, nofun, nofun⟩
  obtain ⟨a₂, hadopt, hshows₂⟩ := hadopted
  have hrun : build plan a = onFailure (registerEach plan.entities) (do
      shut
      passOver .close) a₂ := by
    unfold build
    rw [bind_of_ok hopened, bind_of_ok (rfl : opened "store" _ a₁ = .ok _ a₁), bind_of_ok hadopt]
  have hentities := registerEach_of_shows hshows₂ plan.entities
  unfold Database.ofPlan
  rw [hrun]
  dsimp only at hentities
  cases hfold : plan.entities.foldlM Database.register (.new plan.config.options) with
  | ok s =>
    rw [hfold] at hentities
    obtain ⟨a₃, conn, hregistered, hshows₃⟩ := hentities
    exact ⟨a₃, conn, onFailure_of_ok hregistered _, hshows₃⟩
  | error e =>
    rw [hfold] at hentities
    obtain ⟨a₃, conn, hregistered, halone⟩ := hentities
    have hshut : Agent.AloneWith { a₃ with isOpen := false } conn :=
      ⟨halone.regular.of_client rfl, halone.quiet, halone.connection⟩
    obtain ⟨a₄, hclose, -⟩ := passOver_of_alone hshut .close
    exact ⟨a₄, onFailure_of_error hregistered hclose⟩

end Errand

end ObjectStore
