import Mathlib
import ObjectStore.Proofs.Database.Activity
import ObjectStore.Proofs.Database.Calls

/-!
# Closed boxes

A box that was closed, itself or with its database, stays closed, whatever is done to the database
afterwards and however often boxes of its type are opened again (`Activity.Step.shut`).  Every call
on it fails because it is closed and changes nothing (`BoxCall.run_of_shut`), with one exception: a
batch without objects succeeds on a closed box as on any other.

Main statements: `calls_on_closed_box`, and `empty_batch_on_closed_box` for the exception.
-/

namespace ObjectStore

/-! ## Calls on a box -/

namespace BoxCall

variable {α : Type}

/-- The one call that does not look at its box: a batch without objects. -/
def isEmptyBatch : BoxCall α → Bool
  | .perform (.putAll []) => true
  | _ => false

/-- How a call fails on a closed box of a type. -/
def closedError (type : TypeId) : BoxCall α → BoxError
  | .close => .boxAlreadyClosed type
  | _ => .boxClosed type

end BoxCall

/-! ## Boxes that were closed -/

namespace Database

variable {db db' : Database} {type : TypeId} {n : BoxNumber}

/-- The box was opened and is closed. -/
def Shut (db : Database) (n : BoxNumber) : Prop :=
  ∃ box, db.boxes[n]? = some box ∧ box.isOpen = false

theorem Shut.isOpen (h : db.Shut n) : db.isOpen n = false := by
  obtain ⟨box, hbox, hclosed⟩ := h
  rw [Database.isOpen, hbox]
  exact hclosed

/-- A change of boxes that opens none leaves a closed box closed. -/
theorem Shut.modify (h : db.Shut n) (m : BoxNumber) {f : BoxState → BoxState}
    (hopen : ∀ box, (f box).isOpen = true → box.isOpen = true) :
    Shut { db with boxes := db.boxes.modify m f } n := by
  obtain ⟨box, hbox, hclosed⟩ := h
  refine ⟨if m = n then f box else box, ?_, ?_⟩
  · rw [List.getElem?_modify, hbox]
    rfl
  · split
    · cases hf : (f box).isOpen with
      | false => rfl
      | true =>
        rw [hopen box hf] at hclosed
        cases hclosed
    · exact hclosed

/-- A box that is opened is another one. -/
theorem Shut.findOrOpen {other : TypeId} {m : BoxNumber} (h : db.Shut n)
    (hfind : db.findOrOpen other = .ok (m, db')) : db'.Shut n := by
  obtain ⟨box, hbox, hclosed⟩ := h
  rcases findOrOpen_eq_ok hfind with ⟨rfl, -⟩ | ⟨-, -, -, -, rfl⟩
  · exact ⟨box, hbox, hclosed⟩
  · obtain ⟨hlt, -⟩ := List.getElem?_eq_some_iff.1 hbox
    exact ⟨box, (List.getElem?_append_left hlt).trans hbox, hclosed⟩

/-- Closing the database opens no box. -/
theorem Shut.close (h : db.Shut n) (hclose : db.close = .ok db') : db'.Shut n := by
  obtain ⟨box, hbox, hclosed⟩ := h
  obtain ⟨s, -, rfl⟩ := close_eq_ok hclose
  refine ⟨{ box with isOpen := box.isOpen && decide (n ∉ db.current.values) }, ?_, ?_⟩
  · rw [getElem?_markClosed, hbox]
    rfl
  · simp [hclosed]

/-- A box is closed after its close. -/
theorem shut_of_closeBox (h : db.closeBox type n = .ok db') : db'.Shut n := by
  have hopen : db.isOpen n = true := by
    unfold Database.closeBox at h
    split at h
    · assumption
    · cases h
  obtain ⟨box, hbox, -⟩ := isOpen_iff.1 hopen
  rw [closeBox_eq_ok h]
  refine ⟨{ box with isOpen := false }, ?_, rfl⟩
  rw [markClosed, List.getElem?_modify, hbox]
  simp

/-- Every box is closed after the close of its database, and not only the current ones. -/
theorem shut_of_close (htidy : db.Tidy) (hn : db.Serves n type) (h : db.close = .ok db') :
    db'.Shut n := by
  obtain ⟨box, hbox, -⟩ := hn
  obtain ⟨s, -, rfl⟩ := close_eq_ok h
  have hmarked := getElem?_markClosed db.boxes db.current.values n
  rw [hbox] at hmarked
  exact ⟨_, hmarked, htidy.isOpen_of_closed hmarked⟩

end Database

namespace Activity

variable {x y : Activity} {n : BoxNumber}

/-- **No step opens a closed box.** -/
theorem Step.shut (h : Step x y) (hn : x.db.Shut n) : y.db.Shut n := by
  cases h with
  | openBox hfind => exact hn.findOrOpen hfind
  | closeBox hclose =>
    rw [Database.closeBox_eq_ok hclose]
    exact hn.modify _ nofun
  | lend _ => exact hn.modify _ fun _ => id
  | takeBack _ _ => exact hn.modify _ fun _ => id
  | close hclose => exact hn.close hclose
  | _ => exact hn

/-- A closed box stays closed, whatever comes later. -/
theorem shut_of_later (hn : x.db.Shut n) (hlater : Relation.ReflTransGen Step x y) :
    y.db.Shut n := by
  induction hlater with
  | refl => exact hn
  | tail _ hs ih => exact hs.shut ih

/-- A database at work stays one. -/
theorem Reachable.later (hx : x.Reachable) (hlater : Relation.ReflTransGen Step x y) :
    y.Reachable := by
  induction hlater with
  | refl => exact hx
  | tail _ hs ih => exact ih.step hs

end Activity

/-! ## Calls on closed boxes -/

namespace TypedBox

open Operation

variable {σ α β : Type} {b : TypedBox σ α} {ctx : Context σ}

theorem require_of_shut (h : ctx.db.Shut b.number) :
    b.require ctx = .error (.boxClosed b.binding.type) ctx := by
  obtain ⟨box, hbox, hclosed⟩ := h
  rw [require, query_eq, Database.requireBox, hbox]
  simp only [hclosed]
  rfl

theorem write_of_shut (h : ctx.db.Shut b.number) (work : Overlay → Operation σ (β × Overlay)) :
    b.write work ctx = .error (.boxClosed b.binding.type) ctx :=
  bind_of_error (require_of_shut h)

theorem read_of_shut (h : ctx.db.Shut b.number) (answer : Payloads → Except BoxError β) :
    b.read answer ctx = .error (.boxClosed b.binding.type) ctx :=
  bind_of_error (require_of_shut h)

end TypedBox

namespace BoxCall

open Operation

variable {σ α : Type} {b : TypedBox σ α} {ctx : Context σ}

/-- **A call on a closed box fails** because it is closed, and changes nothing, unless it is a batch
without objects. -/
theorem run_of_shut (h : ctx.db.Shut b.number) {call : BoxCall α}
    (hcall : call.isEmptyBatch = false) :
    call.run b ctx = .error (call.closedError b.binding.type) ctx := by
  cases call with
  | putAsync object => exact bind_of_error (bind_of_error (TypedBox.require_of_shut h))
  | close =>
    refine bind_of_error (update_of_error ?_)
    rw [Database.closeBox, h.isOpen]
    rfl
  | perform op =>
    cases op with
    | put object => exact bind_of_error (bind_of_error (TypedBox.write_of_shut h _))
    | putAll objects =>
      cases objects with
      | nil => cases hcall
      | cons object objects => exact bind_of_error (bind_of_error (TypedBox.write_of_shut h _))
    | get id => exact bind_of_error (TypedBox.read_of_shut h _)
    | getAll => exact bind_of_error (TypedBox.read_of_shut h _)
    | contains id => exact bind_of_error (TypedBox.read_of_shut h _)
    | count => exact bind_of_error (TypedBox.read_of_shut h _)
    | remove id => exact bind_of_error (TypedBox.write_of_shut h _)
    | removeAll => exact bind_of_error (TypedBox.write_of_shut h _)

/-- A batch without objects succeeds on any box. -/
theorem run_of_isEmptyBatch {call : BoxCall α} (hcall : call.isEmptyBatch = true)
    (b : TypedBox σ α) (ctx : Context σ) : call.run b ctx = .ok (.storedAll [] []) ctx := by
  unfold isEmptyBatch at hcall
  split at hcall
  · rfl
  · cases hcall

end BoxCall

/-- **A closed box stays closed.**  A box is obtained from a database, and at some time later closed,
itself or with the database.  From then on, whatever is done to the database, every call on the box
fails because the box is closed, and changes nothing; only a batch without objects succeeds. -/
theorem calls_on_closed_box {σ α : Type} (b : TypedBox σ α) {x y z : Activity} {db db' : Database}
    (hx : x.Reachable) (hobtained : x.db.findOrOpen b.binding.type = .ok (b.number, db))
    (hused : Relation.ReflTransGen Activity.Step { x with db := db } y)
    (hclosing : y.db.closeBox b.binding.type b.number = .ok db' ∨ y.db.close = .ok db')
    (hlater : Relation.ReflTransGen Activity.Step { y with db := db' } z) (user : σ)
    (call : BoxCall α) :
    call.run b ⟨z.db, user⟩ =
      if call.isEmptyBatch then .ok (.storedAll [] []) ⟨z.db, user⟩
      else .error (call.closedError b.binding.type) ⟨z.db, user⟩ := by
  have hserves : y.db.Serves b.number b.binding.type := hx.serves_of_findOrOpen hobtained hused
  have hreachable : y.Reachable := (hx.step (.openBox hobtained)).later hused
  have hshut : db'.Shut b.number := by
    rcases hclosing with hbox | hdatabase
    · exact Database.shut_of_closeBox hbox
    · exact Database.shut_of_close hreachable.tidy.1 hserves hdatabase
  have hlast : z.db.Shut b.number := Activity.shut_of_later hshut hlater
  cases hempty : call.isEmptyBatch with
  | true => exact BoxCall.run_of_isEmptyBatch hempty b _
  | false => exact BoxCall.run_of_shut hlast hempty

/-- A box of records is closed, and another one opened in its place: the closed box takes no
object. -/
theorem calls_on_closed_box_superseded :
    ∃ db₁ db₂ db₃ : Database,
      Database.ofRecords.findOrOpen 1 = .ok (0, db₁) ∧ db₁.closeBox 1 0 = .ok db₂ ∧
      db₂.findOrOpen 1 = .ok (1, db₃) ∧
      (BoxCall.putAsync ⟨7, "late", 0⟩).run (⟨Record.binding, 0⟩ : TypedBox Unit Record) ⟨db₃, ()⟩
        = .error (.boxClosed 1) ⟨db₃, ()⟩ := by
  refine ⟨_, _, _, rfl, rfl, rfl, ?_⟩
  exact calls_on_closed_box (⟨Record.binding, 0⟩ : TypedBox Unit Record)
    Activity.reachable_ofRecords rfl .refl (Or.inl rfl)
    (.single (@Activity.Step.openBox _ 1 1 _ rfl)) () (.putAsync ⟨7, "late", 0⟩)

/-- A batch without objects is not refused, although its box is closed. -/
theorem empty_batch_on_closed_box :
    ∃ db₁ db₂ : Database,
      Database.ofRecords.findOrOpen 1 = .ok (0, db₁) ∧ db₁.closeBox 1 0 = .ok db₂ ∧
      (⟨Record.binding, 0⟩ : TypedBox Unit Record).isClosed db₂ = true ∧
      (BoxCall.perform (.putAll [])).run (⟨Record.binding, 0⟩ : TypedBox Unit Record) ⟨db₂, ()⟩
        = .ok (.storedAll [] []) ⟨db₂, ()⟩ :=
  ⟨_, _, rfl, rfl, rfl, rfl⟩

end ObjectStore
