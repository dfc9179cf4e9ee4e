import Mathlib
import ObjectStore.Proofs.Database.ClosedBox
import ObjectStore.Proofs.Database.SameStore

/-!
# One open box for each type

A database hands out boxes.  It keeps the current box of each type and hands it out again until it
was closed, by whomever; only then it opens another one.  A `Holding` is a database at work together
with every box that was handed out so far, copies included, and `Holding.Step` is what comes about
there: a box is gotten or copied, or anything else is done to the database.

What holds the cache together is that a box that is not the current one of its type was closed
(`Database.Tidy`): so the close of a database, which reaches the current boxes only, closes every
box that was ever handed out.

Main statement: `box_cache_coherent`, whose parts are `Holding.Reachable.coherent`,
`TypedBox.close_of_handed`, `Database.boxOf_of_registered` and `Holding.Reachable.closed_for_good`.
-/

namespace ObjectStore

/-! ## Getting and closing boxes -/

namespace Database

variable {σ α : Type} {db db' : Database} {type : TypeId} {n m : BoxNumber}

/-- The box that was gotten is open. -/
theorem isOpen_of_findOrOpen (h : db.findOrOpen type = .ok (n, db')) : db'.isOpen n = true := by
  unfold findOrOpen at h
  cases hcurrent : db.current.get? type with
  | none =>
    rw [hcurrent] at h
    obtain ⟨-, -, rfl, rfl⟩ := openBox_eq_ok h
    exact isOpen_iff.2 ⟨_, List.getElem?_concat_length, rfl⟩
  | some k =>
    rw [hcurrent] at h
    dsimp only at h
    split at h
    · rename_i hopen
      cases h
      exact hopen
    · obtain ⟨-, -, rfl, rfl⟩ := openBox_eq_ok h
      exact isOpen_iff.2 ⟨_, List.getElem?_concat_length, rfl⟩

/-- Getting a box leaves the store as it is. -/
theorem store_of_findOrOpen (h : db.findOrOpen type = .ok (n, db')) : db'.store = db.store := by
  rcases findOrOpen_eq_ok h with ⟨rfl, -⟩ | ⟨-, -, -, -, rfl⟩
  · rfl
  · rfl

/-- The current box of a type is handed out as long as it is open. -/
theorem findOrOpen_of_current (hcurrent : db.current.get? type = some n)
    (hopen : db.isOpen n = true) : db.findOrOpen type = .ok (n, db) := by
  rw [findOrOpen, hcurrent]
  exact if_pos hopen

/-- A database that was closed opens no box. -/
theorem openBox_of_closed (h : db.store.closed = true) :
    db.openBox type = .error .databaseClosed := by
  have hopen : db.requireOpen = .error .databaseClosed := by
    rw [requireOpen, isClosed, h]
    rfl
  rw [openBox, hopen]
  rfl

/-- A box that is open can be used. -/
theorem Tidy.usable_of_isOpen (h : db.Tidy) {binding : Binding σ α}
    (hserves : db.Serves n binding.type) (hopen : db.isOpen n = true) :
    TypedBox.Usable ⟨binding, n⟩ db := by
  obtain ⟨box, hbox, hbopen⟩ := isOpen_iff.1 hopen
  obtain ⟨served, hserved, htype⟩ := hserves
  rw [hbox] at hserved
  cases hserved
  obtain ⟨hstore, hregistered⟩ := h.usable hbox hbopen
  rw [htype] at hregistered
  exact ⟨hopen, hstore, hregistered⟩

/-- **An open box is the current one** of its type. -/
theorem Tidy.current_of_isOpen (h : db.Tidy) (hserves : db.Serves n type)
    (hopen : db.isOpen n = true) : db.current.get? type = some n := by
  obtain ⟨box, hbox, hbopen⟩ := isOpen_iff.1 hopen
  obtain ⟨served, hserved, htype⟩ := hserves
  rw [hbox] at hserved
  cases hserved
  rw [← htype]
  exact h.current hbox hbopen

/-- No box of a closed database is open. -/
theorem Tidy.isOpen_of_store_closed (h : db.Tidy) (hclosed : db.store.closed = true) :
    db.isOpen n = false := by
  rw [Bool.eq_false_iff]
  intro hopen
  obtain ⟨box, hbox, hbopen⟩ := isOpen_iff.1 hopen
  rw [(h.usable hbox hbopen).1] at hclosed
  cases hclosed

/-- A database that was closed hands out no box. -/
theorem Tidy.findOrOpen_of_closed (h : db.Tidy) (hclosed : db.store.closed = true) :
    db.findOrOpen type = .error .databaseClosed := by
  unfold Database.findOrOpen
  cases db.current.get? type with
  | none => exact openBox_of_closed hclosed
  | some n =>
    -- there might be a current box, but it is closed like all others
    dsimp only
    rw [h.isOpen_of_store_closed hclosed]
    exact openBox_of_closed hclosed

/-- Closing a box closes that box alone. -/
theorem isOpen_closeBox (h : db.closeBox type n = .ok db') :
    db'.isOpen m = (db.isOpen m && m != n) := by
  rw [closeBox_eq_ok h]
  unfold isOpen markClosed
  dsimp only
  rw [List.getElem?_modify]
  cases db.boxes[m]? with
  | none => rfl
  | some box =>
    by_cases hm : n = m
    · simp [hm]
    · have hne : (m != n) = true := bne_iff_ne.2 fun h => hm h.symm
      simp [hm, hne]

theorem getElem?_closeBox (h : db.closeBox type n = .ok db') (hm : m ≠ n) :
    db'.boxes[m]? = db.boxes[m]? := by
  have hne : n ≠ m := hm.symm
  rw [closeBox_eq_ok h]
  unfold markClosed
  dsimp only
  rw [List.getElem?_modify]
  cases db.boxes[m]? with
  | none => rfl
  | some box => exact congrArg some (if_neg hne)

/-! ### As operations -/

theorem boxOf_of_ok {binding : Binding σ α} (h : db.findOrOpen binding.type = .ok (n, db'))
    (user : σ) : boxOf binding ⟨db, user⟩ = .ok ⟨binding, n⟩ ⟨db', user⟩ := by
  refine Operation.update_of_ok ?_
  rw [h]
  rfl

theorem boxOf_of_error {binding : Binding σ α} {e : BoxError}
    (h : db.findOrOpen binding.type = .error e) (user : σ) :
    boxOf binding ⟨db, user⟩ = .error e ⟨db, user⟩ := by
  refine Operation.update_of_error ?_
  rw [h]
  rfl

/-- **The box of a registered type** can always be gotten from an open database.  It can be used,
and the store is what it was. -/
theorem boxOf_of_registered (htidy : db.Tidy) (hopen : db.isClosed = false) {binding : Binding σ α}
    (hregistered : db.store.Registered binding.type) (user : σ) :
    ∃ n db', boxOf binding ⟨db, user⟩ = .ok ⟨binding, n⟩ ⟨db', user⟩ ∧
      TypedBox.Usable ⟨binding, n⟩ db' ∧ db'.Tidy ∧ db'.store = db.store := by
  obtain ⟨t, ht⟩ := hregistered
  obtain ⟨n, db', hfind, hstore, hbox, -⟩ := findOrOpen_eq hopen ht
  have htidy' : db'.Tidy := htidy.findOrOpen hfind
  have hserves : db'.Serves n binding.type := htidy.serves_of_findOrOpen hfind
  exact ⟨n, db', boxOf_of_ok hfind user, htidy'.usable_of_isOpen hserves hbox, htidy', hstore⟩

end Database

namespace TypedBox

variable {σ α : Type} {binding : Binding σ α} {n : BoxNumber} {db : Database}

/-- An open box can be closed. -/
theorem close_of_isOpen (hopen : db.isOpen n = true) (user : σ) :
    ∃ db', db.closeBox binding.type n = .ok db' ∧
      close ⟨binding, n⟩ ⟨db, user⟩ = .ok () ⟨db', user⟩ := by
  have hclose : db.closeBox binding.type n
      = .ok { db with boxes := Database.markClosed db.boxes n } := if_pos hopen
  refine ⟨_, hclose, Operation.update_of_ok ?_⟩
  show ((db.closeBox binding.type n).map ((), ·)) = _
  rw [hclose]
  rfl

end TypedBox

/-! ## A database and what it handed out -/

namespace Activity

variable {x y : Activity} {type : TypeId}

/-- A registered type stays registered. -/
theorem Step.registered (h : Step x y) (htype : x.db.store.Registered type) :
    y.db.store.Registered type := by
  cases h with
  | openBox hfind =>
    rw [← Database.store_of_findOrOpen hfind] at htype
    exact htype
  | closeBox hclose =>
    rw [Database.closeBox_eq_ok hclose]
    exact htype
  | close hclose =>
    obtain ⟨s, hs, rfl⟩ := Database.close_eq_ok hclose
    obtain ⟨s₁, hworked, rfl⟩ := Store.close_eq_worked hs
    show ∃ t, s₁.types.get? type = some t
    rw [hworked.types]
    exact htype
  | @work s hwork =>
    show ∃ t, s.types.get? type = some t
    rw [(Store.worked_workerStep hwork).types]
    exact htype
  | issue hissue =>
    obtain ⟨-, _, _, -, -, rfl⟩ := Store.issueId_eq_ok.1 hissue
    exact Store.registered_insert htype
  | writeIssue _ hissue =>
    obtain ⟨-, _, _, -, -, rfl⟩ := Store.issueId_eq_ok.1 hissue
    exact Store.registered_insert htype
  | enqueue _ henqueue =>
    obtain ⟨-, -, queue, -, rfl⟩ := Store.enqueue_eq_ok.1 henqueue
    exact htype
  | writeBegin hopen =>
    obtain ⟨-, -, rfl, rfl⟩ := Store.openWriter_eq_ok.1 hopen
    exact htype
  | writeCommit _ hcommit =>
    obtain ⟨-, rfl⟩ := Store.commit_eq_ok.1 hcommit
    exact htype
  | _ => exact htype

/-- **A closed store stays closed**: what would need an open one is no step any more. -/
theorem Step.closed (h : Step x y) (hclosed : x.db.store.closed = true) :
    y.db.store.closed = true := by
  cases h with
  | openBox hfind =>
    rw [Database.store_of_findOrOpen hfind]
    exact hclosed
  | closeBox hclose =>
    rw [Database.closeBox_eq_ok hclose]
    exact hclosed
  | close hclose =>
    obtain ⟨s, hs, rfl⟩ := Database.close_eq_ok hclose
    obtain ⟨s₁, -, rfl⟩ := Store.close_eq_worked hs
    rfl
  | work hwork => exact (Store.worked_workerStep hwork).closed.trans hclosed
  | issue hissue =>
    obtain ⟨-, _, _, -, -, rfl⟩ := Store.issueId_eq_ok.1 hissue
    exact hclosed
  | writeIssue _ hissue =>
    obtain ⟨-, _, _, -, -, rfl⟩ := Store.issueId_eq_ok.1 hissue
    exact hclosed
  | enqueue _ henqueue =>
    obtain ⟨-, -, queue, -, rfl⟩ := Store.enqueue_eq_ok.1 henqueue
    exact hclosed
  | writeBegin hopen =>
    obtain ⟨-, -, rfl, rfl⟩ := Store.openWriter_eq_ok.1 hopen
    exact hclosed
  | writeCommit _ hcommit =>
    obtain ⟨-, rfl⟩ := Store.commit_eq_ok.1 hcommit
    exact hclosed
  | _ => exact hclosed

end Activity

/-- A database at work and the boxes that it handed out, as types with numbers. -/
structure Holding where
  activity : Activity
  handed : List (TypeId × BoxNumber)

namespace Holding

/-- The database. -/
def db (x : Holding) : Database := x.activity.db

/-- The holding with another database. -/
def withDb (x : Holding) (db : Database) : Holding :=
  { x with activity := { x.activity with db := db } }

/-- What comes about on a database whose boxes are handed out. -/
inductive Step (x : Holding) : Holding → Prop
  /-- A box is handed out. -/
  | boxOf {type : TypeId} {n : BoxNumber} {db : Database}
      (h : x.db.findOrOpen type = .ok (n, db)) :
      Step x { x.withDb db with handed := (type, n) :: x.handed }
  /-- A box is copied. -/
  | copy {handle : TypeId × BoxNumber} (h : handle ∈ x.handed) :
      Step x { x with handed := handle :: x.handed }
  /-- A box or the database is closed, or anything else is done; a box that was gotten may be
  dropped at once. -/
  | other {y : Activity} (h : Activity.Step x.activity y) : Step x { x with activity := y }

/-- What comes about on a database that was opened by a plan and had handed out nothing then. -/
inductive Reachable : Holding → Prop
  | start {plan : DatabasePlan} {db : Database} (h : Database.ofPlan plan = .ok db) :
      Reachable ⟨⟨db, none, []⟩, []⟩
  | step {x y : Holding} (hx : Reachable x) (h : Step x y) : Reachable y

/-! ### Steps and runs -/

variable {x y : Holding}

/-- A step is one of the database, or leaves it alone. -/
theorem Step.activity (h : Step x y) :
    y.activity = x.activity ∨ Activity.Step x.activity y.activity := by
  cases h with
  | boxOf hfind => exact Or.inr (.openBox hfind)
  | copy _ => exact Or.inl rfl
  | other hs => exact Or.inr hs

theorem Reachable.activity (h : x.Reachable) : x.activity.Reachable := by
  induction h with
  | start hplan => exact .start hplan
  | step _ hs ih =>
    rcases hs.activity with heq | hstep
    · rw [heq]
      exact ih
    · exact ih.step hstep

theorem Reachable.tidy (h : x.Reachable) : x.db.Tidy := h.activity.tidy.1

theorem Reachable.later (h : x.Reachable) (hlater : Relation.ReflTransGen Step x y) :
    y.Reachable := by
  induction hlater with
  | refl => exact h
  | tail _ hs ih => exact ih.step hs

/-- Every box that was handed out serves its type, which is registered. -/
def Sound (x : Holding) : Prop :=
  ∀ handle ∈ x.handed, x.db.Serves handle.2 handle.1 ∧ x.db.store.Registered handle.1

theorem Sound.step (h : x.Sound) (htidy : x.db.Tidy) (hs : Step x y) : y.Sound := by
  intro handle hhandle
  cases hs with
  | @boxOf type n db hfind =>
    have htidy' : db.Tidy := htidy.findOrOpen hfind
    rcases List.mem_cons.1 hhandle with rfl | hold
    · -- the new one is open, and the type of an open box is registered
      have hserves : db.Serves n type := htidy.serves_of_findOrOpen hfind
      obtain ⟨box, hbox, hopen⟩ := Database.isOpen_iff.1 (Database.isOpen_of_findOrOpen hfind)
      obtain ⟨served, hserved, rfl⟩ := hserves
      rw [hbox] at hserved
      cases hserved
      exact ⟨⟨box, hbox, rfl⟩, (htidy'.usable hbox hopen).2⟩
    · obtain ⟨hserves, hregistered⟩ := h handle hold
      have hstep : Activity.Step x.activity { x.activity with db := db } := .openBox hfind
      exact ⟨hstep.serves hserves, hstep.registered hregistered⟩
  | copy hcopied =>
    rcases List.mem_cons.1 hhandle with rfl | hold
    · exact h _ hcopied
    · exact h handle hold
  | other hstep =>
    obtain ⟨hserves, hregistered⟩ := h handle hhandle
    exact ⟨hstep.serves hserves, hstep.registered hregistered⟩

/-- By induction on the steps. -/
theorem Reachable.sound (h : x.Reachable) : x.Sound := by
  induction h with
  | start _ => exact nofun
  | step hx hs ih => exact ih.step hx.tidy hs

/-! ### One open box -/

/-- Each type has one open box at most.  If it has one, this is the current one, and every box of
the type that was handed out and is open shares its number. -/
structure Coherent (x : Holding) : Prop where
  unique : ∀ {type : TypeId} {m n : BoxNumber}, x.db.Serves m type → x.db.Serves n type →
    x.db.isOpen m = true → x.db.isOpen n = true → m = n
  current : ∀ {type : TypeId} {n : BoxNumber}, x.db.Serves n type → x.db.isOpen n = true →
    x.db.current.get? type = some n
  shared : ∀ {type : TypeId} {m n : BoxNumber}, x.db.Serves n type → x.db.isOpen n = true →
    (type, m) ∈ x.handed → x.db.isOpen m = true → m = n
  /-- A box that was handed out serves its type, which is registered. -/
  registered : ∀ {type : TypeId} {n : BoxNumber}, (type, n) ∈ x.handed →
    x.db.Serves n type ∧ x.db.store.Registered type

/-- **The cache of boxes is coherent** in every run. -/
theorem Reachable.coherent (h : x.Reachable) : x.Coherent := by
  have hunique : ∀ {type : TypeId} {m n : BoxNumber}, x.db.Serves m type → x.db.Serves n type →
      x.db.isOpen m = true → x.db.isOpen n = true → m = n := by
    intro type m n hm hn hmopen hnopen
    have hmcurrent := h.tidy.current_of_isOpen hm hmopen
    rw [h.tidy.current_of_isOpen hn hnopen] at hmcurrent
    cases hmcurrent
    rfl
  refine ⟨hunique, fun hn hopen => h.tidy.current_of_isOpen hn hopen, ?_, fun hn => h.sound _ hn⟩
  intro type m n hn hopen hm hmopen
  exact hunique (h.sound _ hm).1 hn hmopen hopen

/-! ### After the close -/

/-- A closed store stays closed, by induction on the steps. -/
theorem closed_of_later (hclosed : x.db.store.closed = true)
    (hlater : Relation.ReflTransGen Step x y) : y.db.store.closed = true := by
  induction hlater with
  | refl => exact hclosed
  | tail _ hs ih =>
    rcases hs.activity with heq | hstep
    · unfold db at ih ⊢
      rw [heq]
      exact ih
    · exact hstep.closed ih

/-- **A database that was closed is closed for good**, and so is every box that it handed out. -/
theorem Reachable.closed_for_good {σ α : Type} (binding : Binding σ α) (h : x.Reachable)
    {db : Database} (hclose : x.db.close = .ok db)
    (hlater : Relation.ReflTransGen Step (x.withDb db) y) (user : σ) :
    (∀ handle ∈ y.handed, y.db.isOpen handle.2 = false) ∧
      Database.boxOf binding ⟨y.db, user⟩ = .error .databaseClosed ⟨y.db, user⟩ ∧
      Database.awaitPuts ⟨y.db, user⟩ = .error .databaseClosed ⟨y.db, user⟩ ∧
      Database.closeAll ⟨y.db, user⟩ = .error .databaseAlreadyClosed ⟨y.db, user⟩ := by
  have hreachable : (x.withDb db).Reachable := h.step (.other (.close hclose))
  have htidy : y.db.Tidy := (hreachable.later hlater).tidy
  have hstore : db.store.closed = true := by
    obtain ⟨s, hs, rfl⟩ := Database.close_eq_ok hclose
    obtain ⟨s₁, -, rfl⟩ := Store.close_eq_worked hs
    rfl
  have hclosed : y.db.store.closed = true := closed_of_later (x := x.withDb db) hstore hlater
  refine ⟨fun _ _ => htidy.isOpen_of_store_closed hclosed, ?_, ?_, ?_⟩
  · exact Database.boxOf_of_error (htidy.findOrOpen_of_closed hclosed) user
  · refine Operation.update_of_error ?_
    rw [Database.drain, Database.requireOpen, Database.isClosed, hclosed]
    rfl
  · refine Operation.update_of_error ?_
    rw [Database.close, Database.isClosed, hclosed]
    rfl

end Holding

/-! ## The cache -/

/-- **An open box that is closed** closes with its copies alone.  The store and all other boxes are
as they were, and the box that is gotten next serves every call as the closed one would have. -/
theorem TypedBox.close_of_handed {σ α : Type} {binding : Binding σ α} {x : Holding}
    (hx : x.Reachable) {n : BoxNumber} (hhanded : (binding.type, n) ∈ x.handed)
    (hopen : x.db.isOpen n = true) (user : σ) :
    ∃ db, TypedBox.close ⟨binding, n⟩ ⟨x.db, user⟩ = .ok () ⟨db, user⟩ ∧
      db.store = x.db.store ∧ (∀ m, db.isOpen m = (x.db.isOpen m && m != n)) ∧
      (∀ m, m ≠ n → db.boxes[m]? = x.db.boxes[m]?) ∧
      ∃ m db', Database.boxOf binding ⟨db, user⟩ = .ok ⟨binding, m⟩ ⟨db', user⟩ ∧
        db'.isOpen m = true ∧ db'.store = x.db.store ∧
        ∀ call : BoxCall α, call ≠ .close →
          (∀ object ∈ call.puts, ∀ id, (binding.assemble object id).Quiet) →
          (call.run ⟨binding, m⟩).ending ⟨db', user⟩
            = (call.run ⟨binding, n⟩).ending ⟨x.db, user⟩ := by
  obtain ⟨hserves, hregistered⟩ := hx.sound _ hhanded
  have husable : TypedBox.Usable ⟨binding, n⟩ x.db := hx.tidy.usable_of_isOpen hserves hopen
  obtain ⟨db, hclosebox, hclose⟩ := @TypedBox.close_of_isOpen σ α binding n x.db hopen user
  have hstore : db.store = x.db.store := by rw [Database.closeBox_eq_ok hclosebox]
  have hdbopen : db.isClosed = false := by
    rw [Database.isClosed, hstore]
    exact husable.store
  have htidy : db.Tidy := hx.tidy.closeBox hclosebox
  rw [← hstore] at hregistered
  obtain ⟨m, db', hbox, husable', htidy', hstore'⟩ :=
    Database.boxOf_of_registered htidy hdbopen hregistered user
  refine ⟨db, hclose, hstore, fun m => Database.isOpen_closeBox hclosebox,
    fun m hm => Database.getElem?_closeBox hclosebox hm, m, db', hbox, husable'.box,
    hstore'.trans hstore, ?_⟩
  intro call hcall hquiet
  exact BoxCall.ending_eq hcall hquiet husable' husable htidy' hx.tidy (hstore'.trans hstore)

/-- **The boxes of a type are one box**, at every moment of every run.

A type has at most one open box, which is the current one and which every open box of the type that
was handed out shares, and which is handed out again.  An open box that is closed closes with
exactly those that share its number, with no effect on the store and on other boxes, and the next
box of the type works on the same objects; so does the box of any registered type that is gotten
while the database is open.  Once the database was closed, every box that it ever handed out is
closed, and the database refuses to hand out a box, to wait, and to be closed again. -/
theorem box_cache_coherent {σ α : Type} (binding : Binding σ α) (user : σ) {x : Holding}
    (hx : x.Reachable) :
    x.Coherent ∧
      (∀ {n}, x.db.Serves n binding.type → x.db.isOpen n = true →
        Database.boxOf binding ⟨x.db, user⟩ = .ok ⟨binding, n⟩ ⟨x.db, user⟩) ∧
      (∀ {n}, (binding.type, n) ∈ x.handed → x.db.isOpen n = true →
        ∃ db, TypedBox.close ⟨binding, n⟩ ⟨x.db, user⟩ = .ok () ⟨db, user⟩ ∧
          db.store = x.db.store ∧ (∀ m, db.isOpen m = (x.db.isOpen m && m != n)) ∧
          (∀ m, m ≠ n → db.boxes[m]? = x.db.boxes[m]?) ∧
          ∃ m db', Database.boxOf binding ⟨db, user⟩ = .ok ⟨binding, m⟩ ⟨db', user⟩ ∧
            db'.isOpen m = true ∧ db'.store = x.db.store ∧
            ∀ call : BoxCall α, call ≠ .close →
              (∀ object ∈ call.puts, ∀ id, (binding.assemble object id).Quiet) →
              (call.run ⟨binding, m⟩).ending ⟨db', user⟩
                = (call.run ⟨binding, n⟩).ending ⟨x.db, user⟩) ∧
      (x.db.isClosed = false → x.db.store.Registered binding.type →
        ∃ n db, Database.boxOf binding ⟨x.db, user⟩ = .ok ⟨binding, n⟩ ⟨db, user⟩ ∧
          TypedBox.Usable ⟨binding, n⟩ db ∧ db.store = x.db.store) ∧
      ∀ {db y}, x.db.close = .ok db → Relation.ReflTransGen Holding.Step (x.withDb db) y →
        (∀ handle ∈ y.handed, y.db.isOpen handle.2 = false) ∧
          Database.boxOf binding ⟨y.db, user⟩ = .error .databaseClosed ⟨y.db, user⟩ ∧
          Database.awaitPuts ⟨y.db, user⟩ = .error .databaseClosed ⟨y.db, user⟩ ∧
          Database.closeAll ⟨y.db, user⟩ = .error .databaseAlreadyClosed ⟨y.db, user⟩ := by
  refine ⟨hx.coherent, ?_, ?_, ?_, ?_⟩
  · intro n hserves hopen
    have hcurrent := hx.tidy.current_of_isOpen hserves hopen
    exact Database.boxOf_of_ok (Database.findOrOpen_of_current hcurrent hopen) user
  · intro n hhanded hopen
    exact TypedBox.close_of_handed hx hhanded hopen user
  · intro hopen hregistered
    obtain ⟨n, db, hbox, husable, -, hstore⟩ :=
      Database.boxOf_of_registered hx.tidy hopen hregistered user
    exact ⟨n, db, hbox, husable, hstore⟩
  · intro db y hclose hlater
    exact hx.closed_for_good binding hclose hlater user

/-- A box of records is gotten, copied and closed, and another one gotten in its place: that is the
only open box then, it can be closed in turn, and the close of the database closes all three. -/
theorem box_cache_coherent_reopened :
    ∃ (x : Holding) (db db' : Database), x.Reachable ∧ x.handed = [(1, 1), (1, 0), (1, 0)] ∧
      Database.boxOf Record.binding ⟨x.db, ()⟩ = .ok ⟨Record.binding, 1⟩ ⟨x.db, ()⟩ ∧
      (⟨Record.binding, 1⟩ : TypedBox Unit Record).close ⟨x.db, ()⟩ = .ok () ⟨db, ()⟩ ∧
      db.isOpen 1 = false ∧
      x.db.close = .ok db' ∧
      Database.boxOf Record.binding ⟨db', ()⟩ = .error .databaseClosed ⟨db', ()⟩ := by
  have hopened : Holding.Reachable ⟨⟨Database.ofRecords, none, []⟩, []⟩ :=
    .start (show Database.ofPlan { entities := [⟨1, "Record"⟩] } = .ok Database.ofRecords from rfl)
  have hgotten := hopened.step (@Holding.Step.boxOf _ 1 0 _ rfl)
  have hcopied := hgotten.step (@Holding.Step.copy _ (1, 0) List.mem_cons_self)
  have hclosed := hcopied.step (.other (@Activity.Step.closeBox _ 1 0 _ rfl))
  have hx := hclosed.step (@Holding.Step.boxOf _ 1 1 _ rfl)
  obtain ⟨-, hagain, hclose, -, hlater⟩ := box_cache_coherent (Record.binding (σ := Unit)) () hx
  obtain ⟨db, hdb, -, hopen, -, -⟩ := @hclose 1 List.mem_cons_self rfl
  obtain ⟨-, hrefused, -, -⟩ := hlater rfl .refl
  refine ⟨_, db, _, hx, rfl, @hagain 1 ⟨_, rfl, rfl⟩ rfl, hdb, ?_, rfl, hrefused⟩
  rw [hopen]
  rfl

end ObjectStore
