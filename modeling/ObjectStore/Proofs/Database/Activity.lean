import Mathlib
import ObjectStore.Proofs.Database.Boxes
import ObjectStore.Proofs.Database.Opening
import ObjectStore.Proofs.Store.IdSequence

/-!
# A database at work

An operation on a database is not done in one piece: a put is issued an ID, its binding puts the
object together, and only then it reaches a transaction or the queue; meanwhile others are at work
on the same database, and so is the worker.  An `Activity` is a database together with what is
under way on it, and `Activity.Step` lists the steps that are made on it, each of them a call of the
database or of its store.

`Activity.Reachable.covered` is the invariant of all this: no ID is held anywhere beyond the last
issued one of its type, and the new ID of a put in the write transaction has nothing stored under
it.
-/

namespace ObjectStore

/-- A put that was issued an ID. -/
structure Intent where
  type : TypeId
  /-- The ID that was asked for, zero for a new one. -/
  candidate : ObjectId
  /-- The ID that was issued. -/
  id : ObjectId
  deriving DecidableEq

/-- The put that an intent becomes once its bytes are made. -/
def Intent.toPut (p : Intent) (data : Bytes) : QueuedPut := ⟨p.type, p.id, data, p.candidate ≠ 0⟩

/-- A write transaction. -/
structure Writer where
  /-- The pending changes. -/
  changes : Overlay
  /-- The put that is being made, if there is one. -/
  intent : Option Intent

/-- A database and what is under way on it. -/
structure Activity where
  db : Database
  /-- The write transaction, if one is open. -/
  writer : Option Writer
  /-- The asynchronous puts that are not queued yet. -/
  intents : List Intent

namespace Activity

/-- The activity with another store. -/
def withStore (x : Activity) (s : Store) : Activity := { x with db := { x.db with store := s } }

/-! ## Steps -/

/-- A step on a database.  Those that begin with `write` belong to the write transaction. -/
inductive Step (x : Activity) : Activity → Prop
  | openBox {type : TypeId} {n : BoxNumber} {db : Database}
      (h : x.db.findOrOpen type = .ok (n, db)) : Step x { x with db := db }
  | closeBox {type : TypeId} {n : BoxNumber} {db : Database}
      (h : x.db.closeBox type n = .ok db) : Step x { x with db := db }
  /-- The builder of an open box is lent, or a spare one. -/
  | lend {type : TypeId} {n : BoxNumber} {box : BoxState}
      (h : x.db.requireBox type n = .ok box) :
      Step x { x with db := x.db.setLender n box.lender.lend.2 }
  /-- Some builder is given back. -/
  | takeBack {n : BoxNumber} {box : BoxState} (h : x.db.boxes[n]? = some box) (loan : Loan) :
      Step x { x with db := x.db.setLender n (box.lender.takeBack loan) }
  | close {db : Database} (h : x.db.close = .ok db) : Step x { x with db := db }
  /-- The worker makes a step. -/
  | work {s : Store} (h : x.db.store.workerStep? = some s) : Step x (x.withStore s)
  /-- An asynchronous put is issued an ID. -/
  | issue {type : TypeId} {candidate id : ObjectId} {s : Store}
      (h : x.db.store.issueId type candidate = .ok (id, s)) :
      Step x { x.withStore s with intents := ⟨type, candidate, id⟩ :: x.intents }
  | enqueue {p : Intent} {data : Bytes} {s : Store} (hp : p ∈ x.intents)
      (h : x.db.store.enqueue (p.toPut data) = .ok s) :
      Step x { x.withStore s with intents := x.intents.erase p }
  /-- An asynchronous put has failed; its ID stays issued. -/
  | forget (p : Intent) : Step x { x with intents := x.intents.erase p }
  | writeBegin {o : Overlay} {s : Store} (h : x.db.store.openWriter = .ok (o, s)) :
      Step x { x.withStore s with writer := some ⟨o, none⟩ }
  /-- A put in the transaction is issued an ID. -/
  | writeIssue {o : Overlay} {type : TypeId} {candidate id : ObjectId} {s : Store}
      (hw : x.writer = some ⟨o, none⟩) (h : x.db.store.issueId type candidate = .ok (id, s)) :
      Step x { x.withStore s with writer := some ⟨o, some ⟨type, candidate, id⟩⟩ }
  | writePut {o o' : Overlay} {p : Intent} {data : Bytes} (hw : x.writer = some ⟨o, some p⟩)
      (h : o.put p.type p.id data (p.candidate ≠ 0) = .ok o') :
      Step x { x with writer := some ⟨o', none⟩ }
  | writeRemove {o o' : Overlay} {type : TypeId} {id : ObjectId}
      (hw : x.writer = some ⟨o, none⟩) (h : o.remove type id = .ok o') :
      Step x { x with writer := some ⟨o', none⟩ }
  | writeRemoveAll {o : Overlay} (hw : x.writer = some ⟨o, none⟩) (type : TypeId) :
      Step x { x with writer := some ⟨(o.removeAll type).2, none⟩ }
  | writeCommit {w : Writer} {s : Store} (hw : x.writer = some w)
      (h : x.db.store.commit w.changes = .ok s) : Step x { x.withStore s with writer := none }
  /-- The transaction ends without its changes. -/
  | writeRelease {w : Writer} (hw : x.writer = some w) :
      Step x { x.withStore x.db.store.releaseWriter with writer := none }

/-- What comes about on a database that was opened by a plan. -/
inductive Reachable : Activity → Prop
  | start {plan : DatabasePlan} {db : Database} (h : Database.ofPlan plan = .ok db) :
      Reachable ⟨db, none, []⟩
  | step {x y : Activity} (hx : Reachable x) (h : Step x y) : Reachable y

end Activity

/-! ## Held IDs -/

/-- A write transaction holds an ID: an object is pending under it, or about to be put. -/
def Writer.Holds (w : Writer) (type : TypeId) (id : ObjectId) : Prop :=
  (w.changes.payloads type).contains id = true ∨
    ∃ p, w.intent = some p ∧ p.type = type ∧ p.id = id

namespace Activity

variable {x y : Activity}

/-- An ID is held: an object is committed, queued, in flight or pending under it, or about to be
put. -/
def Holds (x : Activity) (type : TypeId) (id : ObjectId) : Prop :=
  x.db.store.Holds type id ∨ (∃ w, x.writer = some w ∧ w.Holds type id) ∨
    ∃ p ∈ x.intents, p.type = type ∧ p.id = id

/-- Every held ID was issued, and the put that the write transaction is at can be made: its ID is
one that objects can have, and if it is new, nothing is stored or pending under it. -/
structure Covered (x : Activity) : Prop where
  writing : x.db.store.writing = x.writer.isSome
  last_le : ∀ type, x.db.store.lastId type ≤ highestId
  holds_le : ∀ {type id}, x.Holds type id → id ≤ x.db.store.lastId type
  valid : ∀ {w p}, x.writer = some w → w.intent = some p → p.id ≠ 0 ∧ p.id ≤ highestId
  new : ∀ {w p}, x.writer = some w → w.intent = some p → p.candidate = 0 →
    (x.db.store.committed.payloads p.type).contains p.id = false ∧
      (w.changes.payloads p.type).contains p.id = false

namespace Covered

variable {type : TypeId} {candidate id : ObjectId} {s : Store}

/-- Nothing is held in a database that was just opened. -/
theorem start {plan : DatabasePlan} {db : Database} (h : Database.ofPlan plan = .ok db) :
    Covered ⟨db, none, []⟩ := by
  have hlast : ∀ type, db.store.lastId type = 0 := by
    intro type
    unfold Store.lastId
    cases ht : db.store.types.get? type with
    | none => rfl
    | some t => exact (Database.ofPlan_fresh h).1.unused ht
  obtain ⟨types, rfl⟩ := Database.ofPlan_eq_ok h
  refine ⟨rfl, fun type => ?_, ?_, nofun, nofun⟩
  · rw [hlast type]
    decide
  · rintro type id ((hc | ⟨_, hitem, -⟩) | ⟨_, hw, -⟩ | ⟨_, hp, -⟩)
    · cases hc
    · cases hitem
    · cases hw
    · cases hp

/-- **A new ID is held by nobody**: it comes after all that were issued. -/
theorem not_holds_of_issueId (h : x.Covered) (hissue : x.db.store.issueId type 0 = .ok (id, s)) :
    ¬ x.Holds type id := by
  intro hheld
  have hle := h.holds_le hheld
  obtain ⟨-, -, -, -, -, hnext⟩ := Store.issueId_spec (h.last_le type) hissue
  rw [UInt64.le_iff_toNat_le, hnext rfl] at hle
  omega

/-! ### Steps -/

/-- Steps that leave the write transaction alone. -/
theorem aside (h : x.Covered) (hwriter : y.writer = x.writer)
    (hlast : ∀ type, y.db.store.lastId type = x.db.store.lastId type)
    (hwriting : y.db.store.writing = x.db.store.writing)
    (hcommitted : x.db.store.writing = true → y.db.store.committed = x.db.store.committed)
    (hholds : ∀ {type id}, y.Holds type id → x.Holds type id) : y.Covered where
  writing := by rw [hwriting, hwriter, h.writing]
  last_le := fun type => by
    rw [hlast]
    exact h.last_le type
  holds_le := fun hheld => by
    rw [hlast]
    exact h.holds_le (hholds hheld)
  valid := fun hw => h.valid (hwriter.symm.trans hw)
  new := by
    intro w p hw
    rw [hwriter] at hw
    rw [hcommitted (by rw [h.writing, hw]; rfl)]
    exact h.new hw

/-- Steps after which the write transaction is at no put, or is over. -/
theorem between (h : x.Covered) (hwriting : y.db.store.writing = y.writer.isSome)
    (hintent : ∀ w, y.writer = some w → w.intent = none)
    (hlast : ∀ type, y.db.store.lastId type = x.db.store.lastId type)
    (hholds : ∀ {type id}, y.Holds type id → x.Holds type id) : y.Covered where
  writing := hwriting
  last_le := fun type => by
    rw [hlast]
    exact h.last_le type
  holds_le := fun hheld => by
    rw [hlast]
    exact h.holds_le (hholds hheld)
  valid := by
    intro w p hw hp
    rw [hintent w hw] at hp
    cases hp
  new := by
    intro w p hw hp
    rw [hintent w hw] at hp
    cases hp

/-- An ID is issued: all last IDs stay or grow, and the ID is within them. -/
theorem issued (h : x.Covered) (hissue : x.db.store.issueId type candidate = .ok (id, s)) :
    (∀ other, x.db.store.lastId other ≤ s.lastId other) ∧ (∀ other, s.lastId other ≤ highestId) ∧
      id ≤ s.lastId type := by
  obtain ⟨hmax, hothers, -, -, hid, -⟩ := Store.issueId_spec (h.last_le type) hissue
  have hlast := h.last_le type
  refine ⟨fun other => ?_, fun other => ?_, ?_⟩
  · by_cases hother : other = type
    · rw [hother, hmax, UInt64.le_iff_toNat_le, toNat_max]
      omega
    · rw [hothers other hother]
      exact UInt64.le_refl _
  · by_cases hother : other = type
    · rw [hother, hmax]
      rw [UInt64.le_iff_toNat_le] at hid hlast ⊢
      rw [toNat_max]
      omega
    · rw [hothers other hother]
      exact h.last_le other
  · rw [hmax, UInt64.le_iff_toNat_le, toNat_max]
    omega

/-- An asynchronous put is issued an ID. -/
theorem issue (h : x.Covered) (hissue : x.db.store.issueId type candidate = .ok (id, s)) :
    Covered { x.withStore s with intents := ⟨type, candidate, id⟩ :: x.intents } := by
  obtain ⟨hmono, hlast, hid⟩ := h.issued hissue
  obtain ⟨-, _, _, -, -, rfl⟩ := Store.issueId_eq_ok.1 hissue
  refine ⟨h.writing, hlast, ?_, h.valid, h.new⟩
  rintro other id' (hs | hw | ⟨p, hp, hput⟩)
  · exact UInt64.le_trans (h.holds_le (Or.inl hs)) (hmono other)
  · exact UInt64.le_trans (h.holds_le (Or.inr (Or.inl hw))) (hmono other)
  · rcases List.mem_cons.1 hp with rfl | hp
    · obtain ⟨rfl, rfl⟩ := hput
      exact hid
    · exact UInt64.le_trans (h.holds_le (Or.inr (Or.inr ⟨p, hp, hput⟩))) (hmono other)

/-- A put in the write transaction is issued an ID. -/
theorem writeIssue (h : x.Covered) {o : Overlay} (hw : x.writer = some ⟨o, none⟩)
    (hissue : x.db.store.issueId type candidate = .ok (id, s)) :
    Covered { x.withStore s with writer := some ⟨o, some ⟨type, candidate, id⟩⟩ } := by
  obtain ⟨hmono, hlast, hid⟩ := h.issued hissue
  have hnew : candidate = 0 → ¬ x.Holds type id := by
    rintro rfl
    exact h.not_holds_of_issueId hissue
  obtain ⟨-, -, -, hne, hle, -⟩ := Store.issueId_spec (h.last_le type) hissue
  obtain ⟨-, _, _, -, -, rfl⟩ := Store.issueId_eq_ok.1 hissue
  refine ⟨?_, hlast, ?_, ?_, ?_⟩
  · show x.db.store.writing = true
    rw [h.writing, hw]
    rfl
  · rintro other id' (hs | ⟨_, ⟨⟩, hpending | ⟨_, ⟨⟩, rfl, rfl⟩⟩ | hp)
    · exact UInt64.le_trans (h.holds_le (Or.inl hs)) (hmono other)
    · have hheld : x.Holds other id' := Or.inr (Or.inl ⟨_, hw, Or.inl hpending⟩)
      exact UInt64.le_trans (h.holds_le hheld) (hmono other)
    · exact hid
    · exact UInt64.le_trans (h.holds_le (Or.inr (Or.inr hp))) (hmono other)
  · rintro _ _ ⟨⟩ ⟨⟩
    exact ⟨hne, hle⟩
  · rintro _ _ ⟨⟩ ⟨⟩ hzero
    constructor
    · exact Bool.eq_false_iff.2 fun hc => hnew hzero (Or.inl (Or.inl hc))
    · exact Bool.eq_false_iff.2 fun hc => hnew hzero (Or.inr (Or.inl ⟨_, hw, Or.inl hc⟩))

/-- The write transaction changes its overlay. -/
theorem change (h : x.Covered) {w : Writer} (hw : x.writer = some w) {o : Overlay}
    (hholds : ∀ {type id}, (o.payloads type).contains id = true → w.Holds type id) :
    Covered { x with writer := some ⟨o, none⟩ } := by
  refine h.between ?_ ?_ (fun _ => rfl) ?_
  · show x.db.store.writing = true
    rw [h.writing, hw]
    rfl
  · rintro _ ⟨⟩
    rfl
  · rintro type id (hs | ⟨_, ⟨⟩, hpending | ⟨_, ⟨⟩, -⟩⟩ | hp)
    · exact Or.inl hs
    · exact Or.inr (Or.inl ⟨w, hw, hholds hpending⟩)
    · exact Or.inr (Or.inr hp)

/-- **A step keeps the invariant.** -/
theorem step (h : x.Covered) (hs : Step x y) : y.Covered := by
  -- what is held depends on the boxes as little as the last IDs do
  have hboxes : ∀ db : Database, db.store = x.db.store → Covered { x with db := db } := by
    intro db hdb
    refine h.aside rfl ?_ ?_ ?_ ?_
    · exact fun type => congrArg (Store.lastId · type) hdb
    · exact congrArg Store.writing hdb
    · exact fun _ => congrArg Store.committed hdb
    · rintro type id (hs | hheld)
      · rw [show ({ x with db := db } : Activity).db.store = x.db.store from hdb] at hs
        exact Or.inl hs
      · exact Or.inr hheld
  cases hs with
  | openBox hfind =>
    refine hboxes _ ?_
    rcases Database.findOrOpen_eq_ok hfind with ⟨rfl, -⟩ | ⟨-, -, -, -, rfl⟩
    · rfl
    · rfl
  | closeBox hclose => exact hboxes _ (by rw [Database.closeBox_eq_ok hclose])
  | lend _ => exact hboxes _ rfl
  | takeBack _ _ => exact hboxes _ rfl
  | close hclose =>
    obtain ⟨s, hs, rfl⟩ := Database.close_eq_ok hclose
    obtain ⟨s₁, hworked, rfl⟩ := Store.close_eq_worked hs
    refine h.aside rfl (Store.lastId_congr hworked.types) hworked.writing hworked.committed ?_
    rintro type id (hs | hheld)
    · exact Or.inl (hworked.holds hs)
    · exact Or.inr hheld
  | work hwork =>
    have hworked := Store.worked_workerStep hwork
    refine h.aside rfl (Store.lastId_congr hworked.types) hworked.writing hworked.committed ?_
    rintro type id (hs | hheld)
    · exact Or.inl (hworked.holds hs)
    · exact Or.inr hheld
  | issue hissue => exact h.issue hissue
  | @enqueue p data s hp henqueue =>
    -- what is queued now was about to be put
    have hholds : ∀ {type id}, s.Holds type id →
        x.db.store.Holds type id ∨ p.type = type ∧ p.id = id := Store.holds_enqueue henqueue
    obtain ⟨-, -, queue, -, rfl⟩ := Store.enqueue_eq_ok.1 henqueue
    refine h.aside rfl (fun _ => rfl) rfl (fun _ => rfl) ?_
    rintro type id (hs | hw | ⟨p', hp', hput⟩)
    · rcases hholds hs with hs | hput
      · exact Or.inl hs
      · exact Or.inr (Or.inr ⟨p, hp, hput⟩)
    · exact Or.inr (Or.inl hw)
    · exact Or.inr (Or.inr ⟨p', List.mem_of_mem_erase hp', hput⟩)
  | forget p =>
    refine h.aside rfl (fun _ => rfl) rfl (fun _ => rfl) ?_
    rintro type id (hs | hw | ⟨p', hp', hput⟩)
    · exact Or.inl hs
    · exact Or.inr (Or.inl hw)
    · exact Or.inr (Or.inr ⟨p', List.mem_of_mem_erase hp', hput⟩)
  | writeBegin hopen =>
    -- the transaction starts with what is committed
    obtain ⟨-, -, rfl, rfl⟩ := Store.openWriter_eq_ok.1 hopen
    refine h.between rfl ?_ (fun _ => rfl) ?_
    · rintro _ ⟨⟩
      rfl
    · rintro type id (hs | ⟨_, ⟨⟩, hpending | ⟨_, ⟨⟩, -⟩⟩ | hp)
      · exact Or.inl hs
      · exact Or.inl (Or.inl hpending)
      · exact Or.inr (Or.inr hp)
  | writeIssue hw hissue => exact h.writeIssue hw hissue
  | writePut hw hput =>
    refine h.change hw fun hc => ?_
    rcases Overlay.contains_of_put hput hc with hbefore | hnew
    · exact Or.inl hbefore
    · exact Or.inr ⟨_, rfl, hnew⟩
  | writeRemove hw hremove =>
    exact h.change hw fun hc => Or.inl (Overlay.contains_of_remove hremove hc)
  | writeRemoveAll hw type => exact h.change hw fun hc => Or.inl (Overlay.contains_of_removeAll hc)
  | writeCommit hw hcommit =>
    obtain ⟨-, rfl⟩ := Store.commit_eq_ok.1 hcommit
    refine h.between rfl nofun (fun _ => rfl) ?_
    rintro type id (hs | ⟨_, ⟨⟩, -⟩ | hp)
    · rcases Store.holds_install hs with hs | hpending
      · exact Or.inl hs
      · exact Or.inr (Or.inl ⟨_, hw, Or.inl hpending⟩)
    · exact Or.inr (Or.inr hp)
  | writeRelease hw =>
    refine h.between rfl nofun (fun _ => rfl) ?_
    rintro type id (hs | ⟨_, ⟨⟩, -⟩ | hp)
    · exact Or.inl hs
    · exact Or.inr (Or.inr hp)

end Covered

/-! ## Runs -/

/-- **Every held ID was issued**, whatever was done to the database, by induction on the steps. -/
theorem Reachable.covered (h : x.Reachable) : x.Covered := by
  induction h with
  | start hplan => exact .start hplan
  | step _ hs ih => exact ih.step hs

/-- The worker may go on for any number of steps. -/
theorem Reachable.runWorker (h : x.Reachable) (n : Nat) :
    (x.withStore (x.db.store.runWorker n)).Reachable := by
  induction n generalizing x with
  | zero => exact h
  | succ n ih =>
    unfold Store.runWorker
    cases hwork : x.db.store.workerStep? with
    | none => exact h
    | some s => exact ih (h.step (.work hwork))

/-- **A step leaves the boxes tidy** and the store ready. -/
theorem Step.tidy (h : Step x y) (htidy : x.db.Tidy) (hready : x.db.store.Ready) :
    y.db.Tidy ∧ y.db.store.Ready := by
  -- steps of a put or a transaction leave the store open and its types registered
  have hstore : ∀ {s : Store}, s.closed = x.db.store.closed → s.queue = x.db.store.queue →
      (∀ type, x.db.store.Registered type → s.Registered type) →
      Database.Tidy { x.db with store := s } ∧ s.Ready := by
    intro s hclosed hqueue htypes
    exact ⟨htidy.withStore hclosed htypes, hready.congr hqueue hclosed⟩
  cases h with
  | openBox hfind =>
    refine ⟨htidy.findOrOpen hfind, ?_⟩
    rcases Database.findOrOpen_eq_ok hfind with ⟨rfl, -⟩ | ⟨-, -, -, -, rfl⟩
    · exact hready
    · exact hready
  | closeBox hclose =>
    refine ⟨htidy.closeBox hclose, ?_⟩
    rw [Database.closeBox_eq_ok hclose]
    exact hready
  | lend _ => exact ⟨htidy.lend _ _, hready⟩
  | takeBack hbox loan => exact ⟨htidy.takeBack hbox loan, hready⟩
  | close hclose =>
    refine ⟨htidy.close hclose, ?_⟩
    obtain ⟨s, hs, rfl⟩ := Database.close_eq_ok hclose
    obtain ⟨s₁, hworked, rfl⟩ := Store.close_eq_worked hs
    refine ⟨nofun, ?_, ?_⟩
    · rw [hworked.capacity]
      exact hready.capacity
    · rw [hworked.maxBatch]
      exact hready.maxBatch
  | work hwork =>
    have hworked := Store.worked_workerStep hwork
    refine ⟨htidy.withStore hworked.closed fun type htype => ?_, hready.worked hworked⟩
    unfold Store.Registered
    rw [hworked.types]
    exact htype
  | issue hissue =>
    obtain ⟨-, _, _, -, -, rfl⟩ := Store.issueId_eq_ok.1 hissue
    exact hstore rfl rfl fun _ => Store.registered_insert
  | enqueue _ henqueue =>
    obtain ⟨-, -, queue, hpush, rfl⟩ := Store.enqueue_eq_ok.1 henqueue
    obtain ⟨-, -, rfl⟩ := PutQueue.push_eq_ok.1 hpush
    exact ⟨htidy.withStore rfl fun _ => id, hready.accepting, hready.capacity, hready.maxBatch⟩
  | forget _ => exact ⟨htidy, hready⟩
  | writeBegin hopen =>
    obtain ⟨-, -, rfl, rfl⟩ := Store.openWriter_eq_ok.1 hopen
    exact hstore rfl rfl fun _ => id
  | writeIssue _ hissue =>
    obtain ⟨-, _, _, -, -, rfl⟩ := Store.issueId_eq_ok.1 hissue
    exact hstore rfl rfl fun _ => Store.registered_insert
  | writePut _ _ => exact ⟨htidy, hready⟩
  | writeRemove _ _ => exact ⟨htidy, hready⟩
  | writeRemoveAll _ _ => exact ⟨htidy, hready⟩
  | writeCommit _ hcommit =>
    obtain ⟨-, rfl⟩ := Store.commit_eq_ok.1 hcommit
    exact hstore rfl rfl fun _ => id
  | writeRelease _ => exact hstore rfl rfl fun _ => id

/-- **A box serves its type** from when it was opened. -/
theorem Step.serves (h : Step x y) {n : BoxNumber} {type : TypeId} (hn : x.db.Serves n type) :
    y.db.Serves n type := by
  cases h with
  | openBox hfind => exact hn.findOrOpen hfind
  | closeBox hclose =>
    rw [Database.closeBox_eq_ok hclose]
    exact hn.modify _ fun _ => rfl
  | lend _ => exact hn.modify _ fun _ => rfl
  | takeBack _ _ => exact hn.modify _ fun _ => rfl
  | close hclose => exact hn.close hclose
  | _ => exact hn

/-- **A database stays tidy** and its store ready, by induction on the steps. -/
theorem Reachable.tidy (h : x.Reachable) : x.db.Tidy ∧ x.db.store.Ready := by
  induction h with
  | start hplan =>
    obtain ⟨types, rfl⟩ := Database.ofPlan_eq_ok hplan
    exact ⟨.of_no_boxes _, (Store.ready_new _).congr rfl rfl⟩
  | step _ hs ih => exact hs.tidy ih.1 ih.2

/-- A box that was gotten from a database at work serves its type from then on. -/
theorem Reachable.serves_of_findOrOpen (h : x.Reachable) {type : TypeId} {n : BoxNumber}
    {db : Database} (hfind : x.db.findOrOpen type = .ok (n, db))
    (hlater : Relation.ReflTransGen Step { x with db := db } y) : y.db.Serves n type := by
  induction hlater with
  | refl => exact h.tidy.1.serves_of_findOrOpen hfind
  | tail _ hs ih => exact hs.serves ih

end Activity

/-- A database of records that was just opened. -/
def Database.ofRecords : Database where
  store := { Store.new ({} : Config).options with types := .ofList [(1, .named "Record")] }
  boxes := []
  current := ∅

theorem Activity.reachable_ofRecords : Reachable ⟨Database.ofRecords, none, []⟩ :=
  .start (show Database.ofPlan { entities := [⟨1, "Record"⟩] } = .ok Database.ofRecords from rfl)

end ObjectStore
