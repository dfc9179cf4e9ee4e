import Mathlib
import ObjectStore.Proofs.Database.Boxes
import ObjectStore.Proofs.Database.ErrorTranslation
import ObjectStore.Proofs.Database.Transactions
import ObjectStore.Proofs.Store.AfterClose

/-!
# Agents with nobody beside them

An agent keeps its boxes by their handles, and works on the store by calls over a connection; a
database is the store and its boxes at once.  An agent that is alone shows a database
(`Agent.Shows`), and an errand follows an operation (`Errand.Follows`) if from there both end in the
same way, with the same error if they fail, and the agent again shows the database.

As in a product of two programs, the pieces are put side by side, one bind after the other
(`Errand.Follows.bind`).  What stands between an errand and an operation are the calls: a call that
comes to the same as a piece of an operation is followed by it (`Errand.follows_call`).
-/

namespace ObjectStore

/-! ## Plain calls -/

/-- The call neither opens nor closes a box, and does not close the store. -/
def Call.isPlain : Call → Bool
  | .close => false
  | .openBox _ _ => false
  | .closeBox _ => false
  | _ => true

/-- The worker does not close the store. -/
theorem Store.closed_runWorker (n : Nat) (s : Store) : (s.runWorker n).closed = s.closed := by
  have hstep : ∀ (s₁ s₂ : Store) (hist : History), s₁.closed = s.closed →
      s₁.workerStep? = some s₂ → s₂.closed = s.closed := by
    intro s₁ s₂ _ hclosed hs
    rcases Store.workerStep?_eq_some hs with
      ⟨-, -, rfl⟩ | ⟨batch, -, -, rfl⟩ | ⟨batch, -, rfl⟩ | ⟨-, -, -, rfl⟩
    all_goals exact hclosed
  exact @Store.runWorker_induction (fun s' _ => s'.closed = s.closed) hstep n s .empty rfl

namespace Connection

/-- A plain call leaves the boxes alone, and an open store open. -/
theorem call_of_isPlain (conn : Connection) {c : Call} (hc : c.isPlain = true) :
    (conn.call c).2.boxes = conn.boxes ∧ (conn.call c).2.store.closed = conn.store.closed := by
  rcases conn.call_cases c with ⟨answer, conn', heffect, hcall⟩ | ⟨e, -, hcall⟩
  · rw [hcall]
    cases heffect with
    | close => cases hc
    | openBox => cases hc
    | closeBox => cases hc
    | register _ _ hstore =>
      obtain ⟨types, rfl⟩ := Store.register_eq_ok hstore
      exact ⟨rfl, rfl⟩
    | awaitIdle => exact ⟨rfl, Store.closed_runWorker _ _⟩
    | boxId _ hissue =>
      obtain ⟨-, t, t', -, -, rfl⟩ := Store.issueId_eq_ok.1 hissue
      exact ⟨rfl, rfl⟩
    | cursorId _ _ hissue =>
      obtain ⟨-, t, t', -, -, rfl⟩ := Store.issueId_eq_ok.1 hissue
      exact ⟨rfl, rfl⟩
    | _ => exact ⟨rfl, rfl⟩
  · rw [hcall]
    have hleft := conn.leftover_of_failure c
    generalize conn.afterFailure c = conn' at hleft ⊢
    cases hleft with
    | _ => exact ⟨rfl, rfl⟩

end Connection

/-! ## Calls of an agent that is alone -/

namespace Agent

variable {τ : Type} {thread : Thread} {a a' a'' : Agent τ thread} {conn conn' : Connection}

/-- The agent is in the middle of a run over the connection, and nothing happens but what it does. -/
structure AloneWith (a : Agent τ thread) (conn : Connection) : Prop where
  regular : a.Regular
  quiet : a.elsewhere = []
  connection : a.client.connections.get? a.connection = some conn

/-- What an agent keeps itself is as it was. -/
structure Keeps (a a' : Agent τ thread) : Prop where
  isOpen : a'.isOpen = a.isOpen
  cores : a'.cores = a.cores
  current : a'.current = a.current

theorem letHappen_of_quiet (h : a.elsewhere = []) : a.letHappen = a := by
  unfold letHappen
  rw [h]

/-- The handles on the connection were given out. -/
theorem AloneWith.dealt (h : a.AloneWith conn) : conn.Dealt := by
  obtain ⟨events, hevents⟩ := h.regular
  have hget := h.connection
  rw [hevents] at hget
  exact Client.connections_after .new (fun _ event hconn => hconn.step event) events hget

end Agent

namespace Errand

variable {τ α β : Type} {thread : Thread} {a : Agent τ thread} {conn conn' : Connection}

/-- **A call of an agent that is alone** ends as it does on the connection. -/
theorem invoke_of_alone (h : a.AloneWith conn) (matters : Bool) (c : Call) :
    ∃ a', invoke matters (.on (some a.connection) c) a = .ok (.of (conn.call c).1) a' ∧
      a'.AloneWith (conn.call c).2 ∧ a.Keeps a' ∧
      a'.client.lastError thread = causeOf (conn.call c).1 := by
  have hcall : a.client.call thread (.on (some a.connection) c) = ((conn.call c).1,
      Client.record
        { a.client with
          connections := a.client.connections.insert a.connection (conn.call c).2 }
        thread (conn.call c).1) := by
    unfold Client.call Client.perform
    simp only [h.connection]
  have hresult : (a.client.call thread (.on (some a.connection) c)).1 = (conn.call c).1 := by
    rw [hcall]
  have hlast := a.client.lastError_call_self thread (.on (some a.connection) c)
  obtain ⟨events, hevents⟩ := h.regular
  refine ⟨a.note (a.client.call thread (.on (some a.connection) c)).2
    ⟨.on (some a.connection) c, (conn.call c).1, matters⟩, ?_, ⟨?_, h.quiet, ?_⟩, ⟨rfl, rfl, rfl⟩, ?_⟩
  · unfold invoke
    rw [Agent.letHappen_of_quiet h.quiet, ← hresult]
  · exact ⟨events ++ [.call thread (.on (some a.connection) c)], by
      rw [Client.after_append, ← hevents]
      rfl⟩
  · show (a.client.call thread (.on (some a.connection) c)).2.connections.get? a.connection = _
    have hconnections : (a.client.call thread (.on (some a.connection) c)).2.connections
        = a.client.connections.insert a.connection (conn.call c).2 := by
      rw [hcall]
      cases (conn.call c).1 <;> rfl
    rw [hconnections, SortedMap.get?_insert_self]
  · exact hlast.trans (congrArg causeOf hresult)

/-- The errand makes this call.  If the call fails, the error is that of its failure, and otherwise
the errand has a result that `gives` relates to the answer. -/
def Performs (x : Errand τ thread α) (c : Call) (gives : Answer → α → Prop) : Prop :=
  ∀ (a : Agent τ thread) (conn : Connection), a.AloneWith conn →
    match conn.call? c with
    | .ok (answer, conn') =>
      ∀ r, gives answer r → ∃ a', x a = .ok r a' ∧ a'.AloneWith conn' ∧ a.Keeps a'
    | .error e =>
      ∃ a', x a = .error (.ofStore e) a' ∧ a'.AloneWith (conn.afterFailure c) ∧ a.Keeps a'

/-- What is done with the result, if that cannot fail, is part of the call. -/
theorem Performs.andThen {x : Errand τ thread α} {c : Call} {gives : Answer → α → Prop}
    (h : x.Performs c gives) {f : α → Errand τ thread β} {gives' : Answer → β → Prop}
    (hf : ∀ answer s, gives' answer s → ∃ r, gives answer r ∧ f r = pure s) :
    (x >>= f).Performs c gives' := by
  intro a conn ha
  have hx := h a conn ha
  cases hcall : conn.call? c with
  | error e =>
    simp only [hcall] at hx ⊢
    obtain ⟨a', hrun, halone, hkeeps⟩ := hx
    exact ⟨a', bind_of_error hrun, halone, hkeeps⟩
  | ok done =>
    obtain ⟨answer, conn'⟩ := done
    simp only [hcall] at hx ⊢
    intro s hs
    obtain ⟨r, hr, hpure⟩ := hf answer s hs
    obtain ⟨a', hrun, halone, hkeeps⟩ := hx r hr
    refine ⟨a', ?_, halone, hkeeps⟩
    rw [bind_of_ok hrun, hpure]
    rfl

theorem performs_demand (c : Call) :
    (demand c : Errand τ thread (Option Answer)).Performs c fun answer r => r = some answer := by
  intro a conn ha
  obtain ⟨a', hinvoke, halone, hkeeps, hlast⟩ := invoke_of_alone ha true c
  have hrun : demand c a = (do
      check (CallReply.of (conn.call c).1).status
      return (CallReply.of (conn.call c).1).answer) a' := by
    unfold demand demandCall
    rw [bind_of_ok (own_eq c a), bind_of_ok hinvoke]
  cases hcall : conn.call? c with
  | ok done =>
    obtain ⟨answer, conn'⟩ := done
    rw [Connection.call_of_ok hcall] at hrun halone
    rintro r rfl
    exact ⟨a', hrun, halone, hkeeps⟩
  | error e =>
    rw [Connection.call_of_error hcall] at hrun halone hlast
    refine ⟨a', ?_, halone, hkeeps⟩
    have hcheck := check_of_error (conn.fails_call? c e hcall) hlast
    rw [Agent.letHappen_of_quiet halone.quiet, Agent.letHappen_of_quiet halone.quiet] at hcheck
    exact hrun.trans (bind_of_error hcheck)

theorem performs_demandId (c : Call) :
    (demandId c : Errand τ thread ObjectId).Performs c fun answer id => answer = .id id := by
  intro a conn ha
  obtain ⟨a', hinvoke, halone, hkeeps, hlast⟩ := invoke_of_alone ha true c
  have hrun : demandId c a = (if (CallReply.of (conn.call c).1).id = 0
      then (do throw (← lastError .error)) else return (CallReply.of (conn.call c).1).id) a' := by
    unfold demandId
    rw [bind_of_ok (own_eq c a), bind_of_ok hinvoke]
  cases hcall : conn.call? c with
  | ok done =>
    obtain ⟨answer, conn'⟩ := done
    rw [Connection.call_of_ok hcall] at hrun halone
    rintro id rfl
    -- an ID that is given out is not zero, and so is not taken for a failure
    obtain ⟨events, hevents⟩ := ha.regular
    have hget := ha.connection
    rw [hevents] at hget
    obtain ⟨log, hnumbered⟩ := Client.numbered_after events hget
    have hid : ¬ (CallReply.of (.ok (.id id))).id = 0 := hnumbered.id_ne_zero hcall
    rw [if_neg hid] at hrun
    exact ⟨a', hrun, halone, hkeeps⟩
  | error e =>
    rw [Connection.call_of_error hcall] at hrun halone hlast
    refine ⟨a', ?_, halone, hkeeps⟩
    have hasked := lastError_eq (conn.fails_call? c e hcall) hlast .error
    rw [Agent.letHappen_of_quiet halone.quiet, Agent.letHappen_of_quiet halone.quiet] at hasked
    have hzero : (CallReply.of (.error e)).id = 0 := rfl
    rw [if_pos hzero] at hrun
    exact hrun.trans (bind_of_ok hasked)

/-- A call that opens something. -/
theorem performs_opened (what : String) (c : Call) :
    (do opened what (← demand c) : Errand τ thread Handle).Performs c
      fun answer h => answer = .opened h :=
  (performs_demand c).andThen fun answer h hanswer => ⟨some answer, rfl, by rw [hanswer]; rfl⟩

/-- A call whose end does not matter. -/
theorem passOver_of_alone (h : a.AloneWith conn) (c : Call) :
    ∃ a', passOver c a = .ok () a' ∧ a'.AloneWith (conn.call c).2 ∧ a.Keeps a' := by
  obtain ⟨a', hinvoke, halone, hkeeps, -⟩ := invoke_of_alone h false c
  refine ⟨a', ?_, halone, hkeeps⟩
  unfold passOver
  rw [bind_of_ok (own_eq c a), bind_of_ok hinvoke]
  rfl

end Errand

/-! ## Agents and databases -/

/-- What a database has of a box that an agent keeps. -/
def BoxCore.state (core : BoxCore) : BoxState := ⟨core.type, core.handle.isSome, core.lender⟩

namespace Agent

variable {τ : Type} {thread : Thread} {a a' : Agent τ thread} {conn conn' : Connection}
  {db : Database}

/-- An agent that is alone keeps a database: its connection has the store, and it has a handle of
its own for each open box. -/
structure Shows (a : Agent τ thread) (conn : Connection) (db : Database) : Prop
    extends a.AloneWith conn where
  store : conn.store = db.store
  isOpen : a.isOpen = !db.store.closed
  current : a.current = db.current
  boxes : a.cores.map BoxCore.state = db.boxes
  handles : ∀ {n : BoxNumber} {core : BoxCore} {h : Handle}, a.cores[n]? = some core →
    core.handle = some h → conn.boxes.get? h = some core.type
  apart : ∀ {n m : BoxNumber} {core core' : BoxCore} {h : Handle}, a.cores[n]? = some core →
    a.cores[m]? = some core' → core.handle = some h → core'.handle = some h → n = m

namespace Shows

/-- The boxes are open as long as the agent has handles for them. -/
theorem isOpen_box (h : a.Shows conn db) (n : BoxNumber) :
    db.isOpen n = ((a.cores[n]?).bind BoxCore.handle).isSome := by
  unfold Database.isOpen
  rw [← h.boxes, List.getElem?_map]
  cases a.cores[n]? <;> rfl

/-- What happens on the connection alone, with the boxes left as they are and the store still
open if it was. -/
theorem goOn (h : a.Shows conn db) (halone : a'.AloneWith conn') (hkeeps : a.Keeps a')
    (hboxes : conn'.boxes = conn.boxes) (hclosed : conn'.store.closed = conn.store.closed) :
    a'.Shows conn' { db with store := conn'.store } where
  toAloneWith := halone
  store := rfl
  isOpen := by rw [hkeeps.isOpen, h.isOpen, hclosed, h.store]
  current := hkeeps.current.trans h.current
  boxes := by rw [hkeeps.cores, h.boxes]
  handles := by
    rw [hkeeps.cores, hboxes]
    exact h.handles
  apart := by
    rw [hkeeps.cores]
    exact h.apart

/-- A call that has left the connection as it was. -/
theorem stay (h : a.Shows conn db) (halone : a'.AloneWith conn) (hkeeps : a.Keeps a') :
    a'.Shows conn db := by
  have hshown := h.goOn halone hkeeps rfl rfl
  rw [h.store] at hshown
  exact hshown

/-- One box changes on both sides.  It may lose its handle, but gets no other one. -/
theorem modify (h : a.Shows conn db) (n : BoxNumber) {f : BoxCore → BoxCore}
    {g : BoxState → BoxState}
    (hstate : ∀ core, a.cores[n]? = some core → (f core).state = g core.state)
    (htype : ∀ core, (f core).type = core.type)
    (hhandle : ∀ core handle, (f core).handle = some handle → core.handle = some handle) :
    Agent.Shows { a with cores := a.cores.modify n f } conn
      { db with boxes := db.boxes.modify n g } := by
  -- a box that has a handle had it before
  have hmodified : ∀ {m : BoxNumber} {changed : BoxCore} {handle : Handle},
      (a.cores.modify n f)[m]? = some changed → changed.handle = some handle →
      ∃ old, a.cores[m]? = some old ∧ changed.type = old.type ∧ old.handle = some handle := by
    intro m changed handle hm hchanged
    rw [List.getElem?_modify] at hm
    obtain ⟨old, hold, rfl⟩ := Option.map_eq_some_iff.1 hm
    refine ⟨old, hold, ?_⟩
    by_cases hnm : n = m
    · rw [if_pos hnm] at hchanged ⊢
      exact ⟨htype old, hhandle old handle hchanged⟩
    · rw [if_neg hnm] at hchanged ⊢
      exact ⟨rfl, hchanged⟩
  constructor
  · exact ⟨h.regular.of_client rfl, h.quiet, h.connection⟩
  · exact h.store
  · exact h.isOpen
  · exact h.current
  · show _ = db.boxes.modify n g
    rw [← h.boxes]
    apply List.ext_getElem?
    intro m
    rw [List.getElem?_map, List.getElem?_modify, List.getElem?_modify, List.getElem?_map]
    by_cases hm : n = m
    · obtain rfl := hm
      cases hcore : a.cores[n]? with
      | none => rfl
      | some core => simpa using hstate core hcore
    · simp only [if_neg hm]
      cases a.cores[m]? <;> rfl
  · intro m changed handle hm hchanged
    obtain ⟨old, hold, htype, hsame⟩ := hmodified hm hchanged
    rw [htype]
    exact h.handles hold hsame
  · intro m m' changed changed' handle hm hm' hchanged hchanged'
    obtain ⟨old, hold, -, hsame⟩ := hmodified hm hchanged
    obtain ⟨old', hold', -, hsame'⟩ := hmodified hm' hchanged'
    exact h.apart hold hold' hsame hsame'

theorem plain (h : a.Shows conn db) {c : Call} (hc : c.isPlain = true)
    (halone : a'.AloneWith (conn.call c).2) (hkeeps : a.Keeps a') :
    a'.Shows (conn.call c).2 { db with store := (conn.call c).2.store } :=
  h.goOn halone hkeeps (conn.call_of_isPlain hc).1 (conn.call_of_isPlain hc).2

end Shows

end Agent

/-! ## Side by side -/

/-- Something about a connection and the database that is shown over it. -/
abbrev Scene := Connection → Database → Prop

/-- Nothing is known. -/
def Scene.any : Scene := fun _ _ => True

namespace Errand

variable {σ τ α β γ δ : Type} {thread : Thread}

/-- An errand and an operation ended in the same way: both succeeded, or both failed with one error,
and the agent shows the database. -/
inductive EndsAlike (Q : α → β → Scene) (E : Scene) :
    EStateM.Result BoxError (Agent τ thread) α → EStateM.Result BoxError (Context σ) β → Prop
  | ok {r : α} {s : β} {a : Agent τ thread} {conn : Connection} {ctx : Context σ}
      (hshows : a.Shows conn ctx.db) (h : Q r s conn ctx.db) : EndsAlike Q E (.ok r a) (.ok s ctx)
  | error (e : BoxError) {a : Agent τ thread} {conn : Connection} {ctx : Context σ}
      (hshows : a.Shows conn ctx.db) (h : E conn ctx.db) :
      EndsAlike Q E (.error e a) (.error e ctx)

/-- In a scene, an errand ends as an operation does. -/
def Follows (P : Scene) (x : Errand τ thread α) (y : Operation σ β) (Q : α → β → Scene)
    (E : Scene) : Prop :=
  ∀ (a : Agent τ thread) (conn : Connection) (ctx : Context σ), a.Shows conn ctx.db →
    P conn ctx.db → EndsAlike Q E (x a) (y ctx)

/-- A cleanup always succeeds, and the agent goes on showing the same database. -/
def Cleans (P : Scene) (cleanup : Errand τ thread Unit) (Q : Scene) : Prop :=
  ∀ (a : Agent τ thread) (conn : Connection) (db : Database), a.Shows conn db → P conn db →
    ∃ a' conn', cleanup a = .ok () a' ∧ a'.Shows conn' db ∧ Q conn' db

namespace Follows

variable {P P' E E' : Scene} {Q : α → β → Scene} {Q' : γ → δ → Scene} {x : Errand τ thread α}
  {y : Operation σ β}

theorem of_pure {r : α} {s : β} (h : ∀ conn db, P conn db → Q r s conn db) :
    Follows P (pure r : Errand τ thread α) (pure s : Operation σ β) Q E :=
  fun _ conn ctx hshows hP => .ok hshows (h conn ctx.db hP)

theorem of_throw {e : BoxError} (h : ∀ conn db, P conn db → E conn db) :
    Follows P (throw e : Errand τ thread α) (throw e : Operation σ β) Q E :=
  fun _ conn ctx hshows hP => .error e hshows (h conn ctx.db hP)

/-- The same outcome on both sides. -/
theorem lift (outcome : Except BoxError α) (herror : ∀ conn db, P conn db → E conn db) :
    Follows P (Errand.lift outcome : Errand τ thread α) (Operation.lift outcome : Operation σ α)
      (fun r s conn db => r = s ∧ P conn db) E := by
  cases outcome with
  | ok r => exact of_pure fun conn db hP => ⟨rfl, hP⟩
  | error e => exact of_throw herror

/-- One piece after the other. -/
theorem bind {f : α → Errand τ thread γ} {g : β → Operation σ δ} (h : Follows P x y Q E)
    (hrest : ∀ r s, Follows (Q r s) (f r) (g s) Q' E) : Follows P (x >>= f) (y >>= g) Q' E := by
  intro a conn ctx hshows hP
  have hfirst := h a conn ctx hshows hP
  show EndsAlike Q' E (EStateM.bind x f a) (EStateM.bind y g ctx)
  rw [EStateM.bind, EStateM.bind]
  generalize x a = r, y ctx = s at hfirst
  cases hfirst with
  | ok hshows' hQ => exact hrest _ _ _ _ _ hshows' hQ
  | error e hshows' hE => exact .error e hshows' hE

/-- What does not depend on the scene may be supposed. -/
theorem of_and {p : Prop} (h : p → Follows P x y Q E) :
    Follows (fun conn db => p ∧ P conn db) x y Q E :=
  fun a conn ctx hshows hP => h hP.1 a conn ctx hshows hP.2

/-- One piece after the other, with the same result on both sides. -/
theorem bind_same {x : Errand τ thread α} {y : Operation σ α} {f : α → Errand τ thread γ}
    {g : α → Operation σ δ}
    (h : Follows P x y (fun r s conn db => r = s ∧ P' conn db) E)
    (hrest : ∀ r, Follows P' (f r) (g r) Q' E) : Follows P (x >>= f) (y >>= g) Q' E := by
  refine h.bind fun r s => of_and ?_
  rintro rfl
  exact hrest r

/-- The errand does something more, beside which the operation does nothing. -/
theorem bind_left {Q : α → Unit → Scene} {f : α → Errand τ thread γ} {y : Operation σ δ}
    (h : Follows P x (pure () : Operation σ Unit) Q E)
    (hrest : ∀ r, Follows (Q r ()) (f r) y Q' E) : Follows P (x >>= f) y Q' E :=
  h.bind (g := fun _ => y) fun r _ => hrest r

/-- The result is changed on the side of the errand. -/
theorem map_left (h : Follows P x y Q E) (f : α → γ) {R : γ → β → Scene}
    (hR : ∀ r s conn db, Q r s conn db → R (f r) s conn db) :
    Follows P (x >>= fun r => pure (f r)) y R E := by
  intro a conn ctx hshows hP
  have hfirst := h a conn ctx hshows hP
  show EndsAlike R E (EStateM.bind x _ a) (y ctx)
  rw [EStateM.bind]
  generalize x a = r, y ctx = s at hfirst
  cases hfirst with
  | ok hshows' hQ => exact .ok hshows' (hR _ _ _ _ hQ)
  | error e hshows' hE => exact .error e hshows' hE

/-- Less may be asked in the end. -/
theorem weaken {R : α → β → Scene} (h : Follows P x y Q E)
    (hok : ∀ r s conn db, Q r s conn db → R r s conn db)
    (herror : ∀ conn db, E conn db → E' conn db) : Follows P x y R E' := by
  intro a conn ctx hshows hP
  have hend := h a conn ctx hshows hP
  generalize x a = r, y ctx = s at hend
  cases hend with
  | ok hshows' hQ => exact .ok hshows' (hok _ _ _ _ hQ)
  | error e hshows' hE => exact .error e hshows' (herror _ _ hE)

theorem widen (h : Follows P x y Q E) (herror : ∀ conn db, E conn db → E' conn db) :
    Follows P x y Q E' := h.weaken (fun _ _ _ _ hQ => hQ) herror

/-- More may be known at the beginning. -/
theorem strengthen (h : Follows P x y Q E) (hP : ∀ conn db, P' conn db → P conn db) :
    Follows P' x y Q E := fun a conn ctx hshows hP' => h a conn ctx hshows (hP _ _ hP')

/-- **A cleanup on the side of the errand.** -/
theorem andAlways {R : α → β → Scene} {cleanup : Errand τ thread Unit} (h : Follows P x y Q E)
    (hok : ∀ r s, Cleans (Q r s) cleanup (R r s)) (herror : Cleans E cleanup E') :
    Follows P (Errand.andAlways x cleanup) y R E' := by
  intro a conn ctx hshows hP
  have hend := h a conn ctx hshows hP
  cases hx : x a with
  | ok r a₁ =>
    rw [hx] at hend
    generalize y ctx = s at hend ⊢
    cases hend with
    | ok hshows₁ hQ =>
      obtain ⟨a₂, conn₂, hclean, hshows₂, hR⟩ := hok _ _ _ _ _ hshows₁ hQ
      rw [andAlways_of_ok hx hclean]
      exact .ok hshows₂ hR
  | error e a₁ =>
    rw [hx] at hend
    generalize y ctx = s at hend ⊢
    cases hend with
    | error e hshows₁ hE =>
      obtain ⟨a₂, conn₂, hclean, hshows₂, hE'⟩ := herror _ _ _ hshows₁ hE
      rw [andAlways_of_error hx hclean]
      exact .error e hshows₂ hE'

end Follows

/-- Whatever is known, an errand ends as an operation does, with the same result or error. -/
def EndsAs (x : Errand τ thread α) (y : Operation σ α) : Prop :=
  Follows .any x y (fun r s _ _ => r = s) .any

namespace EndsAs

variable {x : Errand τ thread α} {y : Operation σ α}

theorem of_pure (r : α) : (pure r : Errand τ thread α).EndsAs (pure r : Operation σ α) :=
  Follows.of_pure fun _ _ _ => rfl

/-- One piece after the other. -/
theorem bind {f : α → Errand τ thread γ} {g : α → Operation σ γ} (h : x.EndsAs y)
    (hrest : ∀ r, (f r).EndsAs (g r)) : (x >>= f).EndsAs (y >>= g) := by
  refine Follows.bind h fun r s a conn ctx hshows hsame => ?_
  obtain rfl : r = s := hsame
  exact hrest r a conn ctx hshows trivial

end EndsAs

/-! ### Calls -/

/-- **A call is followed** by what does the same to the store and fails with the same error. -/
theorem follows_call {P E : Scene} {Q : α → β → Scene} {x : Errand τ thread α}
    {y : Operation σ β} {c : Call} {gives : Answer → α → Prop} (hx : x.Performs c gives)
    (hc : c.isPlain = true)
    (h : ∀ (conn : Connection) (ctx : Context σ), conn.store = ctx.db.store → P conn ctx.db →
      match conn.call? c with
      | .ok (answer, conn') =>
        ∃ r s, gives answer r ∧ y ctx = .ok s (ctx.withStore conn'.store) ∧
          Q r s conn' { ctx.db with store := conn'.store }
      | .error e =>
        y ctx = .error (.ofStore e) (ctx.withStore (conn.afterFailure c).store) ∧
          E (conn.afterFailure c) { ctx.db with store := (conn.afterFailure c).store }) :
    Follows P x y Q E := by
  intro a conn ctx hshows hP
  have hrun := hx a conn hshows.toAloneWith
  have hend := h conn ctx hshows.store hP
  cases hcall : conn.call? c with
  | ok done =>
    obtain ⟨answer, conn'⟩ := done
    simp only [hcall] at hrun hend
    obtain ⟨r, s, hgives, hy, hQ⟩ := hend
    obtain ⟨a', hxa, halone, hkeeps⟩ := hrun r hgives
    have hplain : a'.Shows conn' { ctx.db with store := conn'.store } := by
      have hdone := conn.call_of_isPlain hc
      rw [Connection.call_of_ok hcall] at hdone
      exact hshows.goOn halone hkeeps hdone.1 hdone.2
    rw [hxa, hy]
    exact .ok hplain hQ
  | error e =>
    simp only [hcall] at hrun hend
    obtain ⟨hy, hE⟩ := hend
    obtain ⟨a', hxa, halone, hkeeps⟩ := hrun
    have hplain : a'.Shows (conn.afterFailure c)
        { ctx.db with store := (conn.afterFailure c).store } := by
      have hfailed := conn.call_of_isPlain hc
      rw [Connection.call_of_error hcall] at hfailed
      exact hshows.goOn halone hkeeps hfailed.1 hfailed.2
    rw [hxa, hy]
    exact .error _ hplain hE

/-- A call that leaves nothing behind where it fails, as all do but a commit and a put. -/
theorem follows_mere_call {P E : Scene} {Q : α → β → Scene} {x : Errand τ thread α}
    {y : Operation σ β} {c : Call} {gives : Answer → α → Prop} (hx : x.Performs c gives)
    (hc : c.isPlain = true) (hleft : ∀ conn : Connection, conn.afterFailure c = conn)
    (h : ∀ (conn : Connection) (ctx : Context σ), conn.store = ctx.db.store → P conn ctx.db →
      match conn.call? c with
      | .ok (answer, conn') =>
        ∃ r s, gives answer r ∧ y ctx = .ok s (ctx.withStore conn'.store) ∧
          Q r s conn' { ctx.db with store := conn'.store }
      | .error e => y ctx = .error (.ofStore e) ctx ∧ E conn ctx.db) :
    Follows P x y Q E := by
  refine follows_call hx hc fun conn ctx hstore hP => ?_
  have hend := h conn ctx hstore hP
  cases hcall : conn.call? c with
  | ok done =>
    simp only [hcall] at hend ⊢
    exact hend
  | error e =>
    simp only [hcall] at hend ⊢
    rw [hleft, hstore]
    exact hend

/-- A call whose end does not matter cleans up if it leaves the store alone. -/
theorem cleans_passOver {P Q : Scene} {c : Call} (hc : c.isPlain = true)
    (h : ∀ conn db, P conn db → (conn.call c).2.store = conn.store ∧ Q (conn.call c).2 db) :
    Cleans P (passOver c : Errand τ thread Unit) Q := by
  intro a conn db hshows hP
  obtain ⟨hstore, hQ⟩ := h conn db hP
  obtain ⟨a', hrun, halone, hkeeps⟩ := passOver_of_alone hshows.toAloneWith c
  have hplain := hshows.plain hc halone hkeeps
  rw [hstore, hshows.store] at hplain
  exact ⟨a', _, hrun, hplain, hQ⟩

theorem withStore_of_eq {s : Store} {ctx : Context σ} (h : s = ctx.db.store) :
    ctx.withStore s = ctx := by
  rw [h]
  rfl

/-- Whether the database is open. -/
theorem follows_requireOpen :
    Follows .any (requireOpen : Errand τ thread Unit)
      (Operation.query Database.requireOpen : Operation σ Unit)
      (fun _ _ conn _ => conn.store.closed = false) .any := by
  intro a conn ctx hshows _
  have hopen := hshows.isOpen
  rw [Operation.query_eq]
  unfold requireOpen Database.requireOpen Database.isClosed
  rw [hopen]
  cases hclosed : ctx.db.store.closed with
  | true => exact .error _ hshows trivial
  | false => exact .ok hshows (hshows.store ▸ hclosed)

end Errand

end ObjectStore
