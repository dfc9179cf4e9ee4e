import Mathlib
import ObjectStore.Database.TypedBox
import ObjectStore.Proofs.Store.Held

/-!
# Boxes of a database

What calls on boxes do to a database, and what holds of its boxes from when it was opened
(`Database.Tidy`): an open box is the current one of its type, the store is open as long as one of
its boxes is, and a builder that is not lent is idle.
-/

namespace ObjectStore

namespace Store

variable {s s' : Store}

/-- An open store has a queue that accepts puts, a worker that works, and room for at least one
put. -/
structure Ready (s : Store) : Prop where
  accepting : s.closed = false → s.queue.isClosing = false ∧ s.queue.worker ≠ .stopped
  capacity : 0 < s.queue.capacity
  maxBatch : 0 < s.queue.maxBatch

theorem ready_new (options : Options) : (new options).Ready where
  accepting := fun _ => ⟨rfl, nofun⟩
  capacity := Nat.lt_of_lt_of_le Nat.one_pos (le_max_right _ _)
  maxBatch := Nat.lt_of_lt_of_le Nat.one_pos (le_max_right _ _)

/-- Only the queue and whether the store is closed matter. -/
theorem Ready.congr (h : s.Ready) (hqueue : s'.queue = s.queue) (hclosed : s'.closed = s.closed) :
    s'.Ready := by
  constructor
  · rw [hqueue, hclosed]
    exact h.accepting
  · rw [hqueue]
    exact h.capacity
  · rw [hqueue]
    exact h.maxBatch

theorem Ready.worked (h : s.Ready) (hw : Worked s s') : s'.Ready where
  accepting := by
    rw [hw.closed, hw.isClosing]
    intro hopen
    obtain ⟨hclosing, hworker⟩ := h.accepting hopen
    refine ⟨hclosing, fun hstopped => ?_⟩
    rcases hw.stopped hstopped with hstopped | hclosing'
    · exact hworker hstopped
    · rw [hclosing] at hclosing'
      cases hclosing'
  capacity := by
    rw [hw.capacity]
    exact h.capacity
  maxBatch := by
    rw [hw.maxBatch]
    exact h.maxBatch

/-- A store that was closed has done what its worker still had to do. -/
theorem close_eq_worked (h : s.close = .ok s') :
    ∃ s₁, Worked s.stopAccepting s₁ ∧ s' = { s₁ with closed := true } := by
  obtain ⟨-, -, rfl⟩ := close_eq_ok.1 h
  exact ⟨_, worked_runWorker _ _, rfl⟩

end Store

namespace Database

variable {db db' : Database} {type : TypeId} {n : BoxNumber} {box : BoxState}

/-! ## Opening -/

/-- Registering entities changes the types of a store only. -/
theorem types_of_foldlM_register {entities : List EntityInfo} {s s' : Store}
    (h : entities.foldlM register s = .ok s') : ∃ types, s' = { s with types := types } := by
  induction entities generalizing s with
  | nil =>
    cases h
    exact ⟨_, rfl⟩
  | cons e entities ih =>
    rw [List.foldlM_cons, bind_eq_ok] at h
    obtain ⟨s₁, hone, hrest⟩ := h
    unfold register at hone
    split at hone
    · cases hone
    · obtain ⟨_, rfl⟩ := Store.register_eq_ok (mapError_eq_ok.1 hone)
      obtain ⟨types, rfl⟩ := ih hrest
      exact ⟨types, rfl⟩

/-- A database that was just opened has no boxes and a new store with the types of the plan. -/
theorem ofPlan_eq_ok {plan : DatabasePlan} (h : ofPlan plan = .ok db) :
    ∃ types, db = ⟨{ Store.new plan.config.options with types := types }, [], ∅⟩ := by
  simp only [ofPlan, bind_eq_ok, pure_eq_ok] at h
  obtain ⟨s, hs, rfl⟩ := h
  obtain ⟨types, rfl⟩ := types_of_foldlM_register hs
  exact ⟨types, rfl⟩

/-! ## Calls on boxes -/

theorem requireBox_eq_ok :
    db.requireBox type n = .ok box ↔ db.boxes[n]? = some box ∧ box.isOpen = true := by
  unfold requireBox
  cases db.boxes[n]? with
  | none => simp
  | some found =>
    cases hopen : found.isOpen with
    | false =>
      simp only [hopen, Bool.false_eq_true, if_false, reduceCtorEq, Option.some.injEq, false_iff,
        not_and]
      rintro rfl
      simp [hopen]
    | true =>
      simp only [hopen, if_true, Except.ok.injEq, Option.some.injEq]
      constructor
      · rintro rfl
        exact ⟨rfl, hopen⟩
      · exact And.left

theorem isOpen_iff : db.isOpen n = true ↔ ∃ box, db.boxes[n]? = some box ∧ box.isOpen = true := by
  unfold isOpen
  cases db.boxes[n]? <;> simp

/-- A new box comes after all others, and is the current one of its type. -/
theorem openBox_eq_ok (h : db.openBox type = .ok (n, db')) :
    db.store.closed = false ∧ db.store.Registered type ∧ n = db.boxes.length ∧
      db' = { db with
        boxes := db.boxes ++ [⟨type, true, .new⟩]
        current := db.current.insert type n } := by
  simp only [openBox, bind_eq_ok, mapError_eq_ok, Store.requireType_eq_ok, pure_eq_ok] at h
  obtain ⟨_, -, _, ⟨hclosed, htype⟩, heq⟩ := h
  cases heq
  exact ⟨hclosed, htype, rfl, rfl⟩

/-- The box of a type is the current one as long as that is open, and otherwise a new one. -/
theorem findOrOpen_eq_ok (h : db.findOrOpen type = .ok (n, db')) :
    (db' = db ∧ db.current.get? type = some n) ∨
      (db.store.closed = false ∧ db.store.Registered type ∧
        (∀ m, db.current.get? type = some m → db.isOpen m = false) ∧ n = db.boxes.length ∧
        db' = { db with
          boxes := db.boxes ++ [⟨type, true, .new⟩]
          current := db.current.insert type n }) := by
  unfold findOrOpen at h
  cases hcurrent : db.current.get? type with
  | none =>
    rw [hcurrent] at h
    obtain ⟨hclosed, htype, hn, hdb⟩ := openBox_eq_ok h
    exact Or.inr ⟨hclosed, htype, nofun, hn, hdb⟩
  | some m =>
    rw [hcurrent] at h
    dsimp only at h
    split at h
    · cases h
      exact Or.inl ⟨rfl, rfl⟩
    · rename_i hm
      obtain ⟨hclosed, htype, hn, hdb⟩ := openBox_eq_ok h
      refine Or.inr ⟨hclosed, htype, fun m' hm' => ?_, hn, hdb⟩
      cases hm'
      exact Bool.eq_false_iff.2 hm

theorem closeBox_eq_ok (h : db.closeBox type n = .ok db') :
    db' = { db with boxes := markClosed db.boxes n } := by
  unfold closeBox at h
  split at h
  · cases h
    rfl
  · cases h

theorem close_eq_ok (h : db.close = .ok db') :
    ∃ s, db.store.close = .ok s ∧ db' =
      { store := s, boxes := db.current.values.foldl markClosed db.boxes, current := ∅ } := by
  unfold close at h
  split at h
  · cases h
  · simp only [bind_eq_ok, mapError_eq_ok, pure_eq_ok] at h
    obtain ⟨s, hs, rfl⟩ := h
    exact ⟨s, hs, rfl⟩

/-- Closing boxes leaves each as it was but for that. -/
theorem getElem?_markClosed (boxes : List BoxState) (numbers : List BoxNumber) (n : BoxNumber) :
    (numbers.foldl markClosed boxes)[n]?
      = boxes[n]?.map fun box => { box with isOpen := box.isOpen && decide (n ∉ numbers) } := by
  induction numbers generalizing boxes with
  | nil => cases hn : boxes[n]? <;> simp [hn]
  | cons m numbers ih =>
    rw [List.foldl_cons, ih, markClosed, List.getElem?_modify]
    cases boxes[n]? with
    | none => rfl
    | some box =>
      by_cases hm : m = n
      · simp [hm]
      · have hn : ¬ n = m := fun h => hm h.symm
        simp [hm, hn]

/-- A box is an earlier one or the one that was added. -/
theorem getElem?_concat_eq_some {boxes : List BoxState} {added : BoxState}
    (h : (boxes ++ [added])[n]? = some box) :
    boxes[n]? = some box ∨ n = boxes.length ∧ box = added := by
  rcases Nat.lt_trichotomy n boxes.length with hlt | rfl | hlt
  · rw [List.getElem?_append_left hlt] at h
    exact Or.inl h
  · rw [List.getElem?_concat_length] at h
    cases h
    exact Or.inr ⟨rfl, rfl⟩
  · have hlength : (boxes ++ [added]).length ≤ n := by
      rw [List.length_append, List.length_singleton]
      omega
    rw [List.getElem?_eq_none hlength] at h
    cases h

/-- After one of them was changed, a box is as it was or the changed one. -/
theorem getElem?_modify_eq_some {boxes : List BoxState} {m : BoxNumber} {f : BoxState → BoxState}
    (h : (boxes.modify m f)[n]? = some box) :
    ∃ old, boxes[n]? = some old ∧ (m = n ∧ box = f old ∨ box = old) := by
  rw [List.getElem?_modify] at h
  obtain ⟨old, hold, rfl⟩ := Option.map_eq_some_iff.1 h
  refine ⟨old, hold, ?_⟩
  by_cases hnumber : m = n
  · exact Or.inl ⟨hnumber, if_pos hnumber⟩
  · exact Or.inr (if_neg hnumber)

/-! ## Boxes and types -/

/-- A box of a database serves a type, whether it is open or closed. -/
def Serves (db : Database) (n : BoxNumber) (type : TypeId) : Prop :=
  ∃ box, db.boxes[n]? = some box ∧ box.type = type

namespace Serves

theorem findOrOpen {other : TypeId} {m : BoxNumber} (h : db.Serves n type)
    (hfind : db.findOrOpen other = .ok (m, db')) : db'.Serves n type := by
  obtain ⟨box, hbox, hserves⟩ := h
  rcases findOrOpen_eq_ok hfind with ⟨rfl, -⟩ | ⟨-, -, -, -, rfl⟩
  · exact ⟨box, hbox, hserves⟩
  · obtain ⟨hlt, -⟩ := List.getElem?_eq_some_iff.1 hbox
    exact ⟨box, (List.getElem?_append_left hlt).trans hbox, hserves⟩

theorem modify (h : db.Serves n type) (m : BoxNumber) {f : BoxState → BoxState}
    (htype : ∀ box, (f box).type = box.type) :
    Serves { db with boxes := db.boxes.modify m f } n type := by
  obtain ⟨box, hbox, rfl⟩ := h
  refine ⟨if m = n then f box else box, ?_, ?_⟩
  · rw [List.getElem?_modify, hbox]
    rfl
  · split
    · exact htype box
    · rfl

theorem close (h : db.Serves n type) (hclose : db.close = .ok db') : db'.Serves n type := by
  obtain ⟨box, hbox, hserves⟩ := h
  obtain ⟨s, -, rfl⟩ := close_eq_ok hclose
  refine ⟨{ box with isOpen := box.isOpen && decide (n ∉ db.current.values) }, ?_, hserves⟩
  rw [getElem?_markClosed, hbox]
  rfl

end Serves

/-! ## Tidy databases -/

/-- An open box is the current one of its type, which is registered in the open store; the current
box of a type serves that type; and a builder that is not lent is idle. -/
structure Tidy (db : Database) : Prop where
  current : ∀ {n : BoxNumber} {box : BoxState}, db.boxes[n]? = some box → box.isOpen = true →
    db.current.get? box.type = some n
  usable : ∀ {n : BoxNumber} {box : BoxState}, db.boxes[n]? = some box → box.isOpen = true →
    db.store.closed = false ∧ db.store.Registered box.type
  serves : ∀ {type : TypeId} {n : BoxNumber}, db.current.get? type = some n → db.Serves n type
  idle : ∀ {n : BoxNumber} {box : BoxState}, db.boxes[n]? = some box → box.lender.isLent = false →
    box.lender.builder.isIdle = true

namespace Tidy

/-- A database without boxes is tidy. -/
theorem of_no_boxes (s : Store) : Tidy ⟨s, [], ∅⟩ where
  current := nofun
  usable := nofun
  serves := nofun
  idle := nofun

/-- The store may change as long as it stays open and keeps its types. -/
theorem withStore (h : db.Tidy) {s : Store} (hclosed : s.closed = db.store.closed)
    (htypes : ∀ type, db.store.Registered type → s.Registered type) :
    Tidy { db with store := s } where
  current := h.current
  usable := by
    intro n box hn hopen
    obtain ⟨hstore, htype⟩ := h.usable hn hopen
    exact ⟨hclosed.trans hstore, htypes _ htype⟩
  serves := h.serves
  idle := h.idle

/-- A box may change as long as it serves its type, does not open again and has an idle builder
where it has not lent it. -/
theorem modify (h : db.Tidy) (n : BoxNumber) {f : BoxState → BoxState}
    (htype : ∀ box, (f box).type = box.type)
    (hopen : ∀ box, (f box).isOpen = true → box.isOpen = true)
    (hidle : ∀ box, db.boxes[n]? = some box → (f box).lender.isLent = false →
      (f box).lender.builder.isIdle = true) :
    Tidy { db with boxes := db.boxes.modify n f } where
  current := by
    intro m box hm hbox
    obtain ⟨old, hold, ⟨-, rfl⟩ | rfl⟩ := getElem?_modify_eq_some hm
    · rw [htype]
      exact h.current hold (hopen old hbox)
    · exact h.current hold hbox
  usable := by
    intro m box hm hbox
    obtain ⟨old, hold, ⟨-, rfl⟩ | rfl⟩ := getElem?_modify_eq_some hm
    · rw [htype]
      exact h.usable hold (hopen old hbox)
    · exact h.usable hold hbox
  serves := fun hm => (h.serves hm).modify n htype
  idle := by
    intro m box hm hlent
    obtain ⟨old, hold, ⟨rfl, rfl⟩ | rfl⟩ := getElem?_modify_eq_some hm
    · exact hidle old hold hlent
    · exact h.idle hold hlent

/-- A box that was gotten for a type serves that type. -/
theorem serves_of_findOrOpen (h : db.Tidy) (hfind : db.findOrOpen type = .ok (n, db')) :
    db'.Serves n type := by
  rcases findOrOpen_eq_ok hfind with ⟨rfl, hcurrent⟩ | ⟨-, -, -, rfl, rfl⟩
  · exact h.serves hcurrent
  · exact ⟨⟨type, true, .new⟩, List.getElem?_concat_length, rfl⟩

/-- A box that was opened is the only open one of its type. -/
theorem findOrOpen (h : db.Tidy) (hfind : db.findOrOpen type = .ok (n, db')) : db'.Tidy := by
  have hserved : ∀ {other : TypeId} {m : BoxNumber}, db.Serves m other → db'.Serves m other :=
    fun hm => hm.findOrOpen hfind
  have hnew : db'.Serves n type := h.serves_of_findOrOpen hfind
  rcases findOrOpen_eq_ok hfind with ⟨rfl, -⟩ | ⟨hclosed, htype, hcurrent, rfl, rfl⟩
  · exact h
  constructor
  · intro m box hm hopen
    show (db.current.insert type db.boxes.length).get? box.type = some m
    rw [SortedMap.get?_insert]
    rcases getElem?_concat_eq_some hm with hold | ⟨rfl, rfl⟩
    · -- an earlier box is not of this type, as it is open
      have hm' := h.current hold hopen
      have hne : box.type ≠ type := by
        rintro rfl
        have hopen' := isOpen_iff.2 ⟨box, hold, hopen⟩
        rw [hcurrent m hm'] at hopen'
        cases hopen'
      rw [if_neg hne]
      exact hm'
    · exact if_pos rfl
  · intro m box hm hopen
    rcases getElem?_concat_eq_some hm with hold | ⟨-, rfl⟩
    · exact h.usable hold hopen
    · exact ⟨hclosed, htype⟩
  · intro other m hm
    have hm' : (db.current.insert type db.boxes.length).get? other = some m := hm
    rw [SortedMap.get?_insert] at hm'
    split at hm'
    · rename_i heq
      cases hm'
      rw [heq]
      exact hnew
    · exact hserved (h.serves hm')
  · intro m box hm hlent
    rcases getElem?_concat_eq_some hm with hold | ⟨-, rfl⟩
    · exact h.idle hold hlent
    · rfl

/-- Closing a box leaves no trouble. -/
theorem closeBox (h : db.Tidy) (hclose : db.closeBox type n = .ok db') : db'.Tidy := by
  rw [closeBox_eq_ok hclose]
  refine h.modify n (fun _ => rfl) nofun fun box hbox hlent => ?_
  have hidle : box.lender.builder.isIdle = true := h.idle hbox hlent
  exact hidle

/-- A lent builder need not be idle. -/
theorem lend (h : db.Tidy) (n : BoxNumber) (lender : Lender) :
    (db.setLender n lender.lend.2).Tidy := by
  have hlent : lender.lend.2.isLent = true := by
    unfold Lender.lend
    split
    · assumption
    · rfl
  refine h.modify n (fun _ => rfl) (fun _ => id) fun _ _ hfree => ?_
  have hfree' : lender.lend.2.isLent = false := hfree
  rw [hlent] at hfree'
  cases hfree'

/-- A builder that is taken back was reset. -/
theorem takeBack (h : db.Tidy) (hbox : db.boxes[n]? = some box) (loan : Loan) :
    (db.setLender n (box.lender.takeBack loan)).Tidy := by
  refine h.modify n (fun _ => rfl) (fun _ => id) fun _ _ hlent => ?_
  cases loan with
  | shared builder => rfl
  | spare builder =>
    have hidle : box.lender.builder.isIdle = true := h.idle hbox hlent
    exact hidle

/-- Only the current boxes are open, so that none is once they are closed. -/
theorem isOpen_of_closed (h : db.Tidy)
    (hbox : (db.current.values.foldl markClosed db.boxes)[n]? = some box) :
    box.isOpen = false := by
  rw [getElem?_markClosed] at hbox
  obtain ⟨old, hold, rfl⟩ := Option.map_eq_some_iff.1 hbox
  cases hopen : old.isOpen with
  | false => rfl
  | true =>
    have hcurrent := SortedMap.mem_entries_iff.2 (h.current hold hopen)
    have hmem : n ∈ db.current.values := List.mem_map.2 ⟨_, hcurrent, rfl⟩
    simp [hmem]

/-- After a database was closed no box of it is open. -/
theorem close (h : db.Tidy) (hclose : db.close = .ok db') : db'.Tidy := by
  obtain ⟨s, -, rfl⟩ := close_eq_ok hclose
  constructor
  · intro m box hm hopen
    rw [h.isOpen_of_closed hm] at hopen
    cases hopen
  · intro m box hm hopen
    rw [h.isOpen_of_closed hm] at hopen
    cases hopen
  · exact nofun
  · intro m box hm hlent
    have hm' : (db.current.values.foldl markClosed db.boxes)[m]? = some box := hm
    rw [getElem?_markClosed] at hm'
    obtain ⟨old, hold, rfl⟩ := Option.map_eq_some_iff.1 hm'
    have hidle : old.lender.builder.isIdle = true := h.idle hold hlent
    exact hidle

end Tidy

end Database

end ObjectStore
