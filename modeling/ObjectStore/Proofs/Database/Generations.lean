import Mathlib
import ObjectStore.Proofs.Database.Boxes
import ObjectStore.Proofs.Database.Calls
import ObjectStore.Proofs.Database.Flatten

/-!
# Generations cannot be seen

A box keeps a builder, and every use of the builder starts a new generation of it.  Two databases
are alike if they differ in nothing but these generations (`Database.Alike`).  No program that is
run on a database finds out a generation, however it goes about it: on alike databases it ends in
the same way and leaves alike databases (`Operation.Program.blind`).

As in a product of two programs, the pieces of an operation are followed side by side
(`Operation.Together`), one bind after the other.
-/

namespace ObjectStore

/-! ## Plain databases -/

/-- The builder of generation zero in the same state. -/
def Builder.plain (b : Builder) : Builder := { b with generation := 0 }

def Lender.plain (l : Lender) : Lender := { l with builder := l.builder.plain }

/-- A box without the generation of its builder: its type, whether it is open, and whether its
builder is lent and how far that is. -/
def BoxState.plain (box : BoxState) : BoxState := { box with lender := box.lender.plain }

def Database.plain (db : Database) : Database := { db with boxes := db.boxes.map BoxState.plain }

/-- Two databases differ at most in the generations of the builders of their boxes. -/
def Database.Alike (db db' : Database) : Prop := db.plain = db'.plain

namespace Database.Alike

variable {db db' : Database}

theorem store (h : db.Alike db') : db.store = db'.store := (Database.mk.inj h).1

theorem current (h : db.Alike db') : db.current = db'.current := (Database.mk.inj h).2.2

end Database.Alike

/-- Builders in the same state are shifts of one another. -/
theorem Builder.eq_shift {b b' : Builder} (h : b.plain = b'.plain) : ∃ k, b' = b.shift k := by
  obtain ⟨state, generation⟩ := b
  obtain ⟨state', generation'⟩ := b'
  obtain rfl : state = state' := congrArg Builder.state h
  refine ⟨generation' - generation, ?_⟩
  have hsum : generation + (generation' - generation) = generation' := by
    rw [UInt64.add_comm, UInt64.sub_add_cancel]
  rw [shift, hsum]

namespace Loan

/-- The loan of a builder that was reset `k` times more. -/
def shift (k : UInt64) (loan : Loan) : Loan := loan.withBuilder (loan.builder.shift k)

theorem builder_shift (k : UInt64) (loan : Loan) :
    (loan.shift k).builder = loan.builder.shift k := by
  cases loan <;> rfl

theorem withBuilder_shift (k k' : UInt64) (loan : Loan) (b : Builder) :
    (loan.shift k).withBuilder (b.shift k') = (loan.withBuilder b).shift k' := by
  cases loan <;> rfl

end Loan

namespace Lender

variable {l l' : Lender}

/-- Builders in the same state are lent, or new ones. -/
theorem lend_plain (h : l.plain = l'.plain) :
    (∃ k, l'.lend.1 = l.lend.1.shift k) ∧ l.lend.2.plain = l'.lend.2.plain := by
  have hlent : l.isLent = l'.isLent := (Lender.mk.inj h).2
  have hbuilder : l.builder.plain = l'.builder.plain := (Lender.mk.inj h).1
  unfold lend
  rw [← hlent]
  cases l.isLent with
  | true => exact ⟨⟨0, rfl⟩, h⟩
  | false =>
    obtain ⟨k, hk⟩ := Builder.eq_shift hbuilder
    refine ⟨⟨k, ?_⟩, ?_⟩
    · show Loan.shared l'.builder = Loan.shared (l.builder.shift k)
      rw [hk]
    · show (⟨l.builder.plain, true⟩ : Lender) = ⟨l'.builder.plain, true⟩
      rw [hbuilder]

/-- A builder that is taken back was reset, so its generation is all that is left of it. -/
theorem takeBack_plain (h : l.plain = l'.plain) (k : UInt64) (loan : Loan) :
    (l.takeBack loan).plain = (l'.takeBack (loan.shift k)).plain := by
  cases loan with
  | shared builder => rfl
  | spare builder => exact h

end Lender

namespace Database

variable (db : Database)

theorem getElem?_plain (n : BoxNumber) : db.plain.boxes[n]? = db.boxes[n]?.map BoxState.plain :=
  List.getElem?_map

theorem isOpen_plain : db.plain.isOpen = db.isOpen := by
  funext n
  rw [isOpen, isOpen, getElem?_plain]
  cases db.boxes[n]? <;> rfl

theorem requireBox_plain (type : TypeId) (n : BoxNumber) :
    db.plain.requireBox type n = (db.requireBox type n).map BoxState.plain := by
  rw [requireBox, requireBox, getElem?_plain]
  cases db.boxes[n]? with
  | none => rfl
  | some box =>
    show (if box.isOpen then Except.ok box.plain else _) = _
    dsimp only
    split <;> rfl

/-- A change of one box that does not depend on what is left out. -/
theorem modify_map_plain (boxes : List BoxState) (n : BoxNumber) {f g : BoxState → BoxState}
    (h : ∀ box, g box.plain = (f box).plain) :
    (boxes.map BoxState.plain).modify n g = (boxes.modify n f).map BoxState.plain := by
  apply List.ext_getElem?
  intro m
  rw [List.getElem?_modify, List.getElem?_map, List.getElem?_map, List.getElem?_modify]
  cases boxes[m]? with
  | none => rfl
  | some box =>
    show some (if n = m then g box.plain else box.plain) = some (if n = m then f box else box).plain
    split
    · rw [h]
    · rfl

theorem setLender_plain (n : BoxNumber) (l : Lender) :
    db.plain.setLender n l.plain = (db.setLender n l).plain :=
  congrArg (fun boxes => (⟨db.store, boxes, db.current⟩ : Database))
    (modify_map_plain db.boxes n fun _ => rfl)

theorem markClosed_map_plain (boxes : List BoxState) (n : BoxNumber) :
    markClosed (boxes.map BoxState.plain) n = (markClosed boxes n).map BoxState.plain :=
  modify_map_plain boxes n fun _ => rfl

theorem closeBox_plain (type : TypeId) (n : BoxNumber) :
    db.plain.closeBox type n = (db.closeBox type n).map plain := by
  rw [closeBox, closeBox, isOpen_plain]
  split
  · exact congrArg (fun boxes => Except.ok (⟨db.store, boxes, db.current⟩ : Database))
      (markClosed_map_plain db.boxes n)
  · rfl

theorem openBox_plain (type : TypeId) :
    db.plain.openBox type = (db.openBox type).map (Prod.map id plain) := by
  have hlength : db.plain.boxes.length = db.boxes.length := List.length_map _
  have hboxes : db.plain.boxes ++ [(⟨type, true, .new⟩ : BoxState)]
      = (db.boxes ++ [(⟨type, true, .new⟩ : BoxState)]).map BoxState.plain := by
    rw [List.map_append]
    rfl
  have hopen : db.plain.requireOpen = db.requireOpen := rfl
  have hstore : db.plain.store = db.store := rfl
  unfold openBox
  rw [hlength, hboxes, hopen, hstore]
  cases db.requireOpen with
  | error e => rfl
  | ok _ => cases (db.store.requireType type).mapError BoxError.ofStore <;> rfl

theorem findOrOpen_plain (type : TypeId) :
    db.plain.findOrOpen type = (db.findOrOpen type).map (Prod.map id plain) := by
  have hcurrent : db.plain.current = db.current := rfl
  unfold findOrOpen
  rw [hcurrent, isOpen_plain, openBox_plain]
  cases db.current.get? type with
  | none => rfl
  | some n =>
    dsimp only
    split <;> rfl

theorem drain_plain : db.plain.drain = db.drain.map plain := by
  have hopen : db.plain.requireOpen = db.requireOpen := rfl
  have hstore : db.plain.store = db.store := rfl
  unfold drain
  rw [hopen, hstore]
  cases db.requireOpen with
  | error e => rfl
  | ok _ => cases db.store.drain.mapError BoxError.ofStore <;> rfl

theorem close_plain : db.plain.close = db.close.map plain := by
  have hboxes : ∀ (numbers : List BoxNumber) (boxes : List BoxState),
      numbers.foldl markClosed (boxes.map BoxState.plain)
        = (numbers.foldl markClosed boxes).map BoxState.plain := by
    intro numbers
    induction numbers with
    | nil => intro boxes; rfl
    | cons n numbers ih =>
      intro boxes
      rw [List.foldl_cons, markClosed_map_plain, ih, List.foldl_cons]
  have hclosed : db.plain.isClosed = db.isClosed := rfl
  have hstore : db.plain.store = db.store := rfl
  have hmarked := hboxes db.current.values db.boxes
  unfold close
  rw [hclosed, hstore]
  split
  · rfl
  · cases db.store.close.mapError BoxError.ofStore with
    | error e => rfl
    | ok s => exact congrArg (fun boxes => Except.ok (⟨s, boxes, ∅⟩ : Database)) hmarked

end Database

/-! ## Side by side -/

/-- Two contexts with the same user and databases that are alike. -/
def Context.Alike {σ : Type} (ctx ctx' : Context σ) : Prop :=
  ctx.db.Alike ctx'.db ∧ ctx.user = ctx'.user

namespace Operation

variable {σ α β γ δ : Type}

/-- Two operations ended in the same way: with results that `R` relates, or with one error. -/
inductive SameEnd (R : α → β → Prop) :
    EStateM.Result BoxError (Context σ) α → EStateM.Result BoxError (Context σ) β → Prop
  | ok {a : α} {b : β} {ctx ctx' : Context σ} (h : R a b) (hctx : ctx.Alike ctx') :
      SameEnd R (.ok a ctx) (.ok b ctx')
  | error (e : BoxError) {ctx ctx' : Context σ} (hctx : ctx.Alike ctx') :
      SameEnd R (.error e ctx) (.error e ctx')

/-- From alike contexts two operations end in the same way. -/
def Together (R : α → β → Prop) (x : Operation σ α) (y : Operation σ β) : Prop :=
  ∀ ctx ctx', ctx.Alike ctx' → SameEnd R (x ctx) (y ctx')

/-- An operation does not see generations. -/
def Blind (x : Operation σ α) : Prop := Together Eq x x

namespace Together

variable {R : α → β → Prop} {S : γ → δ → Prop} {x : Operation σ α} {y : Operation σ β}

theorem of_pure {a : α} {b : β} (h : R a b) :
    Together R (pure a : Operation σ α) (pure b : Operation σ β) :=
  fun _ _ hctx => .ok h hctx

/-- One operation after the other. -/
theorem bind {f : α → Operation σ γ} {g : β → Operation σ δ} (h : Together R x y)
    (hrest : ∀ a b, R a b → Together S (f a) (g b)) : Together S (x >>= f) (y >>= g) := by
  intro ctx ctx' hctx
  have hfirst := h ctx ctx' hctx
  show SameEnd S (EStateM.bind x f ctx) (EStateM.bind y g ctx')
  rw [EStateM.bind, EStateM.bind]
  generalize x ctx = r, y ctx' = r' at hfirst
  cases hfirst with
  | ok hab hctx => exact hrest _ _ hab _ _ hctx
  | error e hctx => exact .error e hctx

theorem lift {r : Except BoxError α} {r' : Except BoxError β} (h : SameOutcome R r r') :
    Together (σ := σ) R (lift r) (lift r') := by
  intro ctx ctx' hctx
  cases h with
  | error e => exact .error e hctx
  | ok hab => exact .ok hab hctx

/-- Two questions with the same answer. -/
theorem query {f : Database → Except BoxError α} {g : Database → Except BoxError β}
    (h : ∀ db db', Database.Alike db db' → SameOutcome R (f db) (g db')) :
    Together (σ := σ) R (query f) (query g) := by
  intro ctx ctx' hctx
  rw [query_eq, query_eq]
  exact lift (h _ _ hctx.1) ctx ctx' hctx

/-- Two changes that lead to alike databases. -/
theorem update {f : Database → Except BoxError (α × Database)}
    {g : Database → Except BoxError (β × Database)}
    (h : ∀ db db', Database.Alike db db' →
      SameOutcome (fun r r' => R r.1 r'.1 ∧ r.2.Alike r'.2) (f db) (g db')) :
    Together (σ := σ) R (update f) (update g) := by
  refine (Together.query h).bind ?_
  rintro ⟨a, db⟩ ⟨b, db'⟩ ⟨hab, hdb⟩
  intro ctx ctx' hctx
  exact .ok hab ⟨hdb, hctx.2⟩

/-- A function of databases that commutes with leaving out the generations. -/
theorem update_of_plain {f : Database → Except BoxError (α × Database)}
    (h : ∀ db, f db.plain = (f db).map (Prod.map id Database.plain)) :
    Together (σ := σ) Eq (Operation.update f) (Operation.update f) := by
  apply update
  intro db db' hdb
  have hmap : (f db).map (Prod.map id Database.plain) = (f db').map (Prod.map id Database.plain) := by
    rw [← h, ← h, hdb]
  have hsame := SameOutcome.of_map_eq hmap
  generalize f db = r, f db' = r' at hsame
  cases hsame with
  | error e => exact .error e
  | ok heq =>
    obtain ⟨hfst, hsnd⟩ := Prod.ext_iff.1 heq
    exact .ok ⟨hfst, hsnd⟩

end Together

namespace Blind

variable {x : Operation σ α}

theorem bind {f : α → Operation σ β} (hx : x.Blind) (hf : ∀ a, (f a).Blind) : (x >>= f).Blind := by
  refine Together.bind hx ?_
  rintro a _ rfl
  exact hf a

theorem of_pure (a : α) : (pure a : Operation σ α).Blind := Together.of_pure rfl

theorem lift (r : Except BoxError α) : (lift r : Operation σ α).Blind := by
  apply Together.lift
  cases r with
  | error e => exact .error e
  | ok a => exact .ok rfl

/-- A failure that becomes a result is the same failure. -/
theorem attempt (hx : x.Blind) : x.attempt.Blind := by
  intro ctx ctx' hctx
  have hend := hx ctx ctx' hctx
  rw [Operation.attempt, Operation.attempt]
  generalize x ctx = r, x ctx' = r' at hend
  cases hend with
  | ok hab hctx => exact .ok (congrArg _ hab) hctx
  | error e hctx => exact .ok rfl hctx

/-- The store is the same. -/
theorem store (f : Store → Except StoreError (α × Store)) : (store f : Operation σ α).Blind := by
  apply Together.update_of_plain
  intro db
  have hstore : db.plain.store = db.store := rfl
  rw [hstore]
  cases f db.store <;> rfl

/-- A question about the store, the current boxes, and which boxes are open. -/
theorem look (f : Store → SortedMap TypeId BoxNumber → (BoxNumber → Bool) → Except BoxError α) :
    (query fun db => f db.store db.current db.isOpen : Operation σ α).Blind := by
  apply Together.query
  intro db db' hdb
  have hopen : db.isOpen = db'.isOpen := by
    rw [← Database.isOpen_plain db, hdb, Database.isOpen_plain]
  rw [hdb.store, hdb.current, hopen]
  cases f db'.store db'.current db'.isOpen with
  | error e => exact .error e
  | ok a => exact .ok rfl

/-- What is done beside the database. -/
theorem beside (f : σ → α × σ) :
    Blind fun ctx : Context σ => .ok (f ctx.user).1 { ctx with user := (f ctx.user).2 } := by
  intro ctx ctx' hctx
  dsimp only
  rw [hctx.2]
  exact .ok rfl ⟨hctx.1, rfl⟩

/-- The contexts after an operation are alike however it ended. -/
theorem after (hx : x.Blind) {ctx ctx' : Context σ} (hctx : ctx.Alike ctx') :
    (x.after ctx).Alike (x.after ctx') := by
  have hend := hx ctx ctx' hctx
  unfold Operation.after
  generalize x ctx = r, x ctx' = r' at hend
  cases hend with
  | ok _ h => exact h
  | error _ h => exact h

end Blind

end Operation

/-- An assembly does the same with a builder of another generation and with an alike context. -/
def Assembly.Blind {σ : Type} (a : Assembly σ) : Prop :=
  ∀ (k : UInt64) (w : Workbench) (ctx ctx' : Context σ), ctx.Alike ctx' →
    ∃ outcome w₁ ctx₁ ctx₁', a.run w ctx = (outcome, w₁, ctx₁) ∧
      a.run (w.shift k) ctx' = (outcome, w₁.shift k, ctx₁') ∧ ctx₁.Alike ctx₁'

/-! ## Operations on boxes -/

namespace TypedBox

open Operation

variable {σ α β : Type} (b : TypedBox σ α)

theorem together_require :
    Together (σ := σ) (fun box box' => box.plain = box'.plain) b.require b.require := by
  apply Together.query
  intro db db' hdb
  apply SameOutcome.of_map_eq
  rw [← Database.requireBox_plain, ← Database.requireBox_plain, hdb]

theorem blind_beginWrite : (beginWrite : Operation σ Overlay).Blind := by
  have hopen : (query Database.requireOpen : Operation σ Unit).Blind :=
    Blind.look fun s _ _ => Database.requireOpen ⟨s, [], ∅⟩
  exact hopen.bind fun _ => Blind.store _

/-- The write transaction ends with a failure. -/
theorem blind_release (e : BoxError) :
    (do
      store fun s => .ok ((), s.releaseWriter)
      throw e : Operation σ β).Blind :=
  (Blind.store _).bind fun _ => Blind.lift (.error e)

theorem blind_commit (changes : Overlay) : (commit changes : Operation σ Unit).Blind := by
  refine (Blind.store _).attempt.bind ?_
  intro committed
  cases committed with
  | ok _ => exact Blind.of_pure ()
  | error e => exact blind_release e

/-- **A write does not see generations** if its work does not. -/
theorem blind_write {work : Overlay → Operation σ (β × Overlay)} (hwork : ∀ o, (work o).Blind) :
    (b.write work).Blind := by
  refine b.together_require.bind fun _ _ _ => blind_beginWrite.bind ?_
  intro o
  have hcursor : (query fun db => (db.store.requireType b.binding.type).mapError .ofStore :
      Operation σ Unit).Blind :=
    Blind.look fun s _ _ => (s.requireType b.binding.type).mapError .ofStore
  refine (hcursor.bind fun _ => hwork o).attempt.bind ?_
  intro outcome
  cases outcome with
  | ok r => exact (blind_commit r.2).bind fun _ => Blind.of_pure _
  | error e => exact blind_release e

/-- **A read does not see generations.** -/
theorem blind_read (answer : Payloads → Except BoxError β) : (b.read answer).Blind := by
  have hsnapshot : (query fun db => do
      db.requireOpen
      let snapshot ← db.store.snapshot.mapError .ofStore
      (db.store.requireType b.binding.type).mapError .ofStore
      return snapshot : Operation σ Contents).Blind :=
    Blind.look fun s _ _ => do
      Database.requireOpen ⟨s, [], ∅⟩
      let snapshot ← s.snapshot.mapError .ofStore
      (s.requireType b.binding.type).mapError .ofStore
      return snapshot
  exact b.together_require.bind fun _ _ _ => hsnapshot.bind fun _ => Blind.lift _

/-- Builders of different generations make the same bytes. -/
theorem together_serialize {object : α} {id : ObjectId}
    (hblind : (b.binding.assemble object id).Blind) (k : UInt64) (builder : Builder) :
    Together (fun r r' => r.1 = r'.1 ∧ r'.2 = r.2.shift k) (b.serialize object id builder)
      (b.serialize object id (builder.shift k)) := by
  intro ctx ctx' hctx
  obtain ⟨outcome, w, ctx₁, ctx₁', hrun, hrun', hctx₁⟩ :=
    hblind k (.ofBuilder builder) ctx ctx' hctx
  have hshift : (Workbench.ofBuilder builder).shift k = .ofBuilder (builder.shift k) := rfl
  rw [hshift] at hrun'
  unfold serialize
  rw [hrun, hrun']
  cases outcome with
  | error e => exact .ok ⟨rfl, rfl⟩ hctx₁
  | ok _ =>
    have hdeliver : (w.shift k).builder.deliver = _ := Builder.deliver_shift k w.builder
    dsimp only
    rw [hdeliver]
    cases w.builder.deliver with
    | error e => exact .ok ⟨rfl, rfl⟩ hctx₁
    | ok r => exact .ok ⟨rfl, rfl⟩ hctx₁

theorem together_borrow :
    Together (fun loan loan' => ∃ k, loan' = Loan.shift k loan) b.borrow b.borrow := by
  apply Together.update
  intro db db' hdb
  have hmap : (db.requireBox b.binding.type b.number).map BoxState.plain
      = (db'.requireBox b.binding.type b.number).map BoxState.plain := by
    rw [← Database.requireBox_plain, ← Database.requireBox_plain, hdb]
  refine (SameOutcome.of_map_eq hmap).bind ?_
  intro box box' hbox
  obtain ⟨hloan, hlender⟩ := Lender.lend_plain (congrArg BoxState.lender hbox)
  refine .ok ⟨hloan, ?_⟩
  show (db.setLender b.number box.lender.lend.2).plain
    = (db'.setLender b.number box'.lender.lend.2).plain
  rw [← Database.setLender_plain, ← Database.setLender_plain, hlender, hdb]

theorem together_giveBack (loan : Loan) (k : UInt64) :
    Together (σ := σ) Eq (b.giveBack loan) (b.giveBack (loan.shift k)) := by
  intro ctx ctx' hctx
  have hbox : ctx.db.boxes[b.number]?.map BoxState.plain
      = ctx'.db.boxes[b.number]?.map BoxState.plain := by
    rw [← Database.getElem?_plain, ← Database.getElem?_plain, hctx.1]
  rw [giveBack, giveBack, modify_eq, modify_eq]
  generalize ctx.db.boxes[b.number]? = found, ctx'.db.boxes[b.number]? = found' at hbox
  cases found with
  | none =>
    cases found' with
    | none => exact .ok rfl hctx
    | some box' => cases hbox
  | some box =>
    cases found' with
    | none => cases hbox
    | some box' =>
      have hlender := Lender.takeBack_plain (congrArg BoxState.lender (Option.some.inj hbox)) k loan
      refine .ok rfl ⟨?_, hctx.2⟩
      show (ctx.db.setLender b.number _).plain = (ctx'.db.setLender b.number _).plain
      rw [← Database.setLender_plain, ← Database.setLender_plain, hlender, hctx.1]

/-- **An asynchronous put does not see generations**: it gives back what it borrowed. -/
theorem blind_putAsync {object : α} (hobject : ∀ id, (b.binding.assemble object id).Blind) :
    (b.putAsync object).Blind := by
  refine b.together_require.bind fun _ _ _ => (Blind.lift _).bind fun current => ?_
  refine Blind.bind (Blind.store _) fun minted => ?_
  refine b.together_borrow.bind ?_
  rintro loan _ ⟨k, rfl⟩
  rw [Loan.builder_shift]
  refine (b.together_serialize (hobject minted) k loan.builder).bind ?_
  rintro ⟨outcome, builder⟩ ⟨_, _⟩ ⟨rfl, rfl⟩
  have hqueue : (do
      let bytes ← lift outcome
      store fun s => (s.enqueue ⟨b.binding.type, minted, bytes, current ≠ 0⟩).map ((), ·) :
      Operation σ Unit).Blind :=
    (Blind.lift outcome).bind fun _ => Blind.store _
  refine Together.bind hqueue.attempt ?_
  rintro queued _ rfl
  rw [Loan.withBuilder_shift]
  refine (b.together_giveBack _ k).bind ?_
  rintro _ _ rfl
  exact (Blind.lift queued).bind fun _ => Blind.of_pure _

/-- A put within a write transaction, with builders of different generations. -/
theorem together_putWithin {object : α} (hobject : ∀ id, (b.binding.assemble object id).Blind)
    (o : Overlay) (k : UInt64) (builder : Builder) :
    Together (fun r r' => r.1 = r'.1 ∧ r.2.1 = r'.2.1 ∧ r'.2.2 = r.2.2.shift k)
      (b.putWithin object o builder) (b.putWithin object o (builder.shift k)) := by
  refine Together.bind (Blind.lift _) ?_
  rintro current _ rfl
  refine Together.bind (Blind.store _) ?_
  rintro minted _ rfl
  refine (b.together_serialize (hobject minted) k builder).bind ?_
  rintro ⟨outcome, used⟩ ⟨_, _⟩ ⟨rfl, rfl⟩
  refine Together.bind (Blind.lift outcome) ?_
  rintro bytes _ rfl
  refine Together.bind (Blind.lift _) ?_
  rintro changes _ rfl
  exact Together.of_pure ⟨rfl, rfl, Builder.reset_shift k used⟩

/-- Puts within a write transaction, by induction on the objects. -/
theorem together_putEachWithin {objects : List α}
    (hobjects : ∀ object ∈ objects, ∀ id, (b.binding.assemble object id).Blind) (o : Overlay)
    (k : UInt64) (builder : Builder) :
    Together Eq (b.putEachWithin objects o builder) (b.putEachWithin objects o (builder.shift k)) := by
  induction objects generalizing o builder with
  | nil => exact Together.of_pure rfl
  | cons object objects ih =>
    refine (b.together_putWithin (hobjects object List.mem_cons_self) o k builder).bind ?_
    rintro ⟨minted, changes, used⟩ ⟨_, _, _⟩ ⟨rfl, rfl, rfl⟩
    have hrest := ih (fun object hmem => hobjects object (List.mem_cons_of_mem _ hmem)) changes used
    refine hrest.bind ?_
    rintro ⟨ids, changes⟩ _ rfl
    exact Together.of_pure rfl

theorem blind_put {object : α} (hobject : ∀ id, (b.binding.assemble object id).Blind) :
    (b.put object).Blind := by
  refine (b.blind_write fun o => ?_).bind fun _ => Blind.of_pure _
  -- a new builder is that of the same generation
  refine (b.together_putWithin hobject o 0 .new).bind ?_
  rintro ⟨_, _, _⟩ ⟨_, _, _⟩ ⟨rfl, rfl, -⟩
  exact Blind.of_pure _

theorem blind_putAll {objects : List α}
    (hobjects : ∀ object ∈ objects, ∀ id, (b.binding.assemble object id).Blind) :
    (b.putAll objects).Blind := by
  unfold putAll
  split
  · exact Blind.of_pure _
  · exact (b.blind_write fun o => b.together_putEachWithin hobjects o 0 .new).bind fun _ =>
      Blind.of_pure _

theorem blind_close : b.close.Blind := by
  apply Together.update_of_plain
  intro db
  rw [Database.closeBox_plain]
  cases db.closeBox b.binding.type b.number <;> rfl

end TypedBox

/-! ## Programs -/

open Operation

variable {σ α : Type}

theorem Database.blind_boxOf (b : Binding σ α) : (Database.boxOf b).Blind := by
  apply Together.update_of_plain
  intro db
  rw [findOrOpen_plain]
  cases db.findOrOpen b.type <;> rfl

theorem Database.blind_awaitPuts : (awaitPuts : Operation σ Unit).Blind := by
  apply Together.update_of_plain
  intro db
  rw [drain_plain]
  cases db.drain <;> rfl

theorem Database.blind_closeAll : (closeAll : Operation σ Unit).Blind := by
  apply Together.update_of_plain
  intro db
  rw [close_plain]
  cases db.close <;> rfl

/-- A call on a box does not see generations unless putting its objects together does. -/
theorem BoxCall.blind_run (b : TypedBox σ α) {call : BoxCall α}
    (hputs : ∀ object ∈ call.puts, ∀ id, (b.binding.assemble object id).Blind) :
    (call.run b).Blind := by
  cases call with
  | putAsync object =>
    exact (b.blind_putAsync (hputs object List.mem_cons_self)).bind fun _ => Blind.of_pure _
  | close => exact b.blind_close.bind fun _ => Blind.of_pure _
  | perform op =>
    cases op with
    | put object =>
      exact (b.blind_put (hputs object List.mem_cons_self)).bind fun _ => Blind.of_pure _
    | putAll objects => exact (b.blind_putAll hputs).bind fun _ => Blind.of_pure _
    | get id => exact (b.blind_read _).bind fun _ => Blind.of_pure _
    | getAll => exact (b.blind_read _).bind fun _ => Blind.of_pure _
    | contains id => exact (b.blind_read _).bind fun _ => Blind.of_pure _
    | count => exact (b.blind_read _).bind fun _ => Blind.of_pure _
    | remove id =>
      have hremove := b.blind_write fun o =>
        (Blind.lift ((o.remove b.binding.type id).mapError .ofStore)).bind fun changes =>
          Blind.of_pure ((), changes)
      exact hremove.bind fun _ => Blind.of_pure _
    | removeAll =>
      exact (b.blind_write fun _ => Blind.of_pure _).bind fun _ => Blind.of_pure _

mutual

/-- **No program sees generations**, by induction on the program and on those that run while it puts
objects together. -/
theorem Operation.Program.blind {β : Type} {x : Operation σ β} : x.Program → x.Blind
  | .lift r => Blind.lift r
  | .bind hx hf => (Operation.Program.blind hx).bind fun a => Operation.Program.blind (hf a)
  | .attempt hx => (Operation.Program.blind hx).attempt
  | .beside f => Blind.beside f
  | .look f => Blind.look fun s current isOpen => .ok (f s current isOpen)
  | .store f => Blind.store f
  | .boxOf b => Database.blind_boxOf b
  | .call b _ hputs => BoxCall.blind_run b fun object hobject id =>
      Assembly.Program.blind (hputs object hobject id)
  | .awaitPuts => Database.blind_awaitPuts
  | .closeAll => Database.blind_closeAll

/-- What puts an object together does not see generations. -/
theorem Assembly.Program.blind {a : Assembly σ} : a.Program → a.Blind
  | .done outcome => fun k w ctx ctx' hctx => ⟨outcome, w, ctx, ctx', rfl, rfl, hctx⟩
  | @Assembly.Program.call _ c _ hnext => by
    intro k w ctx ctx' hctx
    have hrest := Assembly.Program.blind (hnext (w.call c).1) k (w.call c).2 ctx ctx' hctx
    rw [Assembly.run, Assembly.run, Workbench.call_shift]
    exact hrest
  | .act hx hnext => by
    intro k w ctx ctx' hctx
    exact Assembly.Program.blind hnext k w _ _ ((Operation.Program.blind hx).after hctx)

end

end ObjectStore
