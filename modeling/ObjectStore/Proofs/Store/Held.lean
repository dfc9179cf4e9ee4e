import Mathlib
import ObjectStore.Proofs.Store.AsyncOrder
import ObjectStore.Proofs.Store.Ids

/-!
# Where objects come from

A store holds an ID if an object is committed under it, or if a put of it was accepted and not yet
reported done (`Store.Holds`).  Nothing that happens to a store makes objects up, or bytes: what it
has afterwards it had before, or it was just put (`Store.hasBytes_workerStep`,
`Store.hasBytes_enqueue`, `Store.hasBytes_install`).
-/

namespace ObjectStore

/-! ## Overlays -/

namespace Overlay

variable {o o' : Overlay} {type other : TypeId} {id id' : ObjectId} {data bytes : Bytes}
  {mayReplace : Bool}

/-- A put succeeds if ID and data are in order and no object is met that may not be replaced. -/
theorem put_eq_ok :
    o.put type id data mayReplace = .ok o' ↔
      checkPut id data = .ok () ∧ (mayReplace = true ∨ (o.payloads type).contains id = false) ∧
        o.change type ((o.payloads type).insert id data) = o' := by
  unfold put
  cases checkPut id data with
  | error e => simp [bind, Except.bind]
  | ok _ =>
    cases mayReplace with
    | true => simp [bind, Except.bind, pure_eq_ok]
    | false =>
      cases hc : (o.payloads type).contains id with
      | true => simp [bind, Except.bind, hc]
      | false => simp [bind, Except.bind, hc, pure_eq_ok]

theorem payloads_change_apply (o : Overlay) (type other : TypeId) (payloads : Payloads) :
    (o.change type payloads).payloads other
      = if other = type then payloads else o.payloads other := by
  have hview := congrFun (view_change o type payloads) other
  rw [View.set, Function.update_apply] at hview
  exact hview

/-- After a put there are the bytes that were put, and what was there before. -/
theorem get?_of_put (h : o.put type id data mayReplace = .ok o')
    (hget : (o'.payloads other).get? id' = some bytes) :
    (o.payloads other).get? id' = some bytes ∨ type = other ∧ id = id' ∧ data = bytes := by
  obtain ⟨-, -, rfl⟩ := put_eq_ok.1 h
  rw [payloads_change_apply] at hget
  by_cases htype : other = type
  · rw [if_pos htype, SortedMap.get?_insert] at hget
    by_cases hid : id' = id
    · rw [if_pos hid] at hget
      exact Or.inr ⟨htype.symm, hid.symm, Option.some.inj hget⟩
    · rw [if_neg hid] at hget
      rw [htype]
      exact Or.inl hget
  · rw [if_neg htype] at hget
    exact Or.inl hget

theorem contains_of_put (h : o.put type id data mayReplace = .ok o')
    (hc : (o'.payloads other).contains id' = true) :
    (o.payloads other).contains id' = true ∨ type = other ∧ id = id' := by
  obtain ⟨bytes, hget⟩ := Option.isSome_iff_exists.1 hc
  rcases get?_of_put h hget with hbefore | ⟨htype, hid, -⟩
  · exact Or.inl (Option.isSome_iff_exists.2 ⟨bytes, hbefore⟩)
  · exact Or.inr ⟨htype, hid⟩

/-- A removal leaves what was there before. -/
theorem contains_of_remove (h : o.remove type id = .ok o')
    (hc : (o'.payloads other).contains id' = true) : (o.payloads other).contains id' = true := by
  unfold remove at h
  dsimp only at h
  split at h
  · cases h
    rw [payloads_change_apply] at hc
    by_cases htype : other = type
    · rw [if_pos htype, SortedMap.contains, SortedMap.get?_erase] at hc
      rw [htype]
      split at hc
      · cases hc
      · exact hc
    · rw [if_neg htype] at hc
      exact hc
  · cases h

/-- Removing every object of a type leaves the other types as they were. -/
theorem contains_of_removeAll (hc : ((o.removeAll type).2.payloads other).contains id' = true) :
    (o.payloads other).contains id' = true := by
  unfold removeAll at hc
  rw [payloads_change_apply] at hc
  split at hc
  · cases hc
  · exact hc

/-- Installed changes leave what the overlay shows, and what was there before. -/
theorem get?_of_result {c : Contents} (hget : ((o.result c).payloads type).get? id = some bytes) :
    (o.payloads type).get? id = some bytes ∨ (c.payloads type).get? id = some bytes := by
  unfold result Contents.payloads at hget
  rw [Contents.get?_takeOver] at hget
  unfold payloads
  cases hchanged : o.changed.get? type with
  | none =>
    rw [hchanged] at hget
    exact Or.inr hget
  | some payloads =>
    rw [hchanged] at hget
    exact Or.inl hget

/-- A put that failed makes no object. -/
theorem payloads_afterRefusedPut (o : Overlay) (type other : TypeId) (id : ObjectId)
    (data : Bytes) : (o.afterRefusedPut type id data).payloads other = o.payloads other :=
  congrFun (view_afterRefusedPut o type id data) other

/-- Queued puts that were tried leave their bytes, and what was there before. -/
theorem get?_of_attempts {batch : List QueuedPut}
    (hget : ((batch.foldl attempt o).payloads type).get? id = some bytes) :
    (o.payloads type).get? id = some bytes ∨
      ∃ item ∈ batch, item.type = type ∧ item.id = id ∧ item.data = bytes := by
  induction batch generalizing o with
  | nil => exact Or.inl hget
  | cons item batch ih =>
    rcases ih hget with hone | ⟨later, hlater, hput⟩
    · unfold attempt at hone
      split at hone
      · rename_i hok
        rcases get?_of_put hok hone with hbefore | hput
        · exact Or.inl hbefore
        · exact Or.inr ⟨item, List.mem_cons_self, hput⟩
      · rw [payloads_afterRefusedPut] at hone
        exact Or.inl hone
    · exact Or.inr ⟨later, List.mem_cons_of_mem item hlater, hput⟩

end Overlay

/-! ## Stores -/

/-- The puts that were accepted and not yet reported done. -/
def PutQueue.unreported (q : PutQueue) : List QueuedPut :=
  match q.worker with
  | .carrying batch => batch ++ q.waiting
  | .reporting batch => batch ++ q.waiting
  | _ => q.waiting

namespace Store

variable {s s' : Store} {type : TypeId} {id : ObjectId} {bytes : Bytes}

/-- A store holds an ID: an object is committed under it, or queued or in flight. -/
def Holds (s : Store) (type : TypeId) (id : ObjectId) : Prop :=
  (s.committed.payloads type).contains id = true ∨
    ∃ item ∈ s.queue.unreported, item.type = type ∧ item.id = id

/-- A store has these bytes for an ID: they are committed, or queued or in flight. -/
def HasBytes (s : Store) (type : TypeId) (id : ObjectId) (bytes : Bytes) : Prop :=
  (s.committed.payloads type).get? id = some bytes ∨
    ∃ item ∈ s.queue.unreported, item.type = type ∧ item.id = id ∧ item.data = bytes

/-- An ID is held where there are bytes for it. -/
theorem holds_iff : s.Holds type id ↔ ∃ bytes, s.HasBytes type id bytes := by
  constructor
  · rintro (hc | ⟨item, hitem, htype, hid⟩)
    · obtain ⟨bytes, hget⟩ := Option.isSome_iff_exists.1 hc
      exact ⟨bytes, Or.inl hget⟩
    · exact ⟨item.data, Or.inr ⟨item, hitem, htype, hid, rfl⟩⟩
  · rintro ⟨bytes, hget | ⟨item, hitem, htype, hid, -⟩⟩
    · exact Or.inl (Option.isSome_iff_exists.2 ⟨bytes, hget⟩)
    · exact Or.inr ⟨item, hitem, htype, hid⟩

/-- A batch that was applied leaves its bytes, and what was there before. -/
theorem get?_of_afterBatch {c : Contents} {batch : List QueuedPut}
    (hget : ((afterBatch c batch).payloads type).get? id = some bytes) :
    (c.payloads type).get? id = some bytes ∨
      ∃ item ∈ batch, item.type = type ∧ item.id = id ∧ item.data = bytes := by
  rcases Overlay.get?_of_result hget with hshown | hbefore
  · exact Overlay.get?_of_attempts hshown
  · exact Or.inl hbefore

/-- **The worker makes no bytes up**: what it applies was in its hands. -/
theorem hasBytes_workerStep (h : s.workerStep? = some s') (hs : s'.HasBytes type id bytes) :
    s.HasBytes type id bytes := by
  rcases workerStep?_eq_some h with
    ⟨hw, -, rfl⟩ | ⟨batch, hw, -, rfl⟩ | ⟨batch, hw, rfl⟩ | ⟨hw, -, -, rfl⟩
  · -- the batch and what still waits are what waited
    rcases hs with hc | ⟨item, hitem, hput⟩
    · exact Or.inl hc
    · refine Or.inr ⟨item, ?_, hput⟩
      have hitem' : item ∈ s.queue.waiting.take s.queue.maxBatch ++
          s.queue.waiting.drop s.queue.maxBatch := hitem
      rw [List.take_append_drop] at hitem'
      rw [PutQueue.unreported, hw]
      exact hitem'
  · have hunreported : s.queue.unreported = batch ++ s.queue.waiting := by
      rw [PutQueue.unreported, hw]
    unfold HasBytes
    rw [hunreported]
    rcases hs with hc | hqueued
    · rcases get?_of_afterBatch hc with hbefore | ⟨item, hitem, hput⟩
      · exact Or.inl hbefore
      · exact Or.inr ⟨item, List.mem_append_left _ hitem, hput⟩
    · exact Or.inr hqueued
  · rcases hs with hc | ⟨item, hitem, hput⟩
    · exact Or.inl hc
    · refine Or.inr ⟨item, ?_, hput⟩
      rw [PutQueue.unreported, hw]
      exact List.mem_append_right batch hitem
  · rcases hs with hc | ⟨item, hitem, hput⟩
    · exact Or.inl hc
    · refine Or.inr ⟨item, ?_, hput⟩
      rw [PutQueue.unreported, hw]
      exact hitem

/-- What the worker leaves alone: the types, whether the store is closed or written to, the limits
of the queue, and what is committed while somebody writes.  It makes no object up. -/
structure Worked (s s' : Store) : Prop where
  types : s'.types = s.types
  closed : s'.closed = s.closed
  writing : s'.writing = s.writing
  committed : s.writing = true → s'.committed = s.committed
  capacity : s'.queue.capacity = s.queue.capacity
  maxBatch : s'.queue.maxBatch = s.queue.maxBatch
  isClosing : s'.queue.isClosing = s.queue.isClosing
  stopped : s'.queue.worker = .stopped → s.queue.worker = .stopped ∨ s.queue.isClosing = true
  hasBytes : ∀ {type id bytes}, s'.HasBytes type id bytes → s.HasBytes type id bytes

namespace Worked

theorem refl (s : Store) : Worked s s :=
  ⟨rfl, rfl, rfl, fun _ => rfl, rfl, rfl, rfl, Or.inl, id⟩

theorem trans {s'' : Store} (h : Worked s s') (h' : Worked s' s'') : Worked s s'' where
  types := h'.types.trans h.types
  closed := h'.closed.trans h.closed
  writing := h'.writing.trans h.writing
  committed := fun hw => (h'.committed (h.writing.trans hw)).trans (h.committed hw)
  capacity := h'.capacity.trans h.capacity
  maxBatch := h'.maxBatch.trans h.maxBatch
  isClosing := h'.isClosing.trans h.isClosing
  stopped := by
    intro hw
    rcases h'.stopped hw with hw' | hclosing
    · exact h.stopped hw'
    · exact Or.inr (h.isClosing.symm.trans hclosing)
  hasBytes := fun hs => h.hasBytes (h'.hasBytes hs)

theorem holds (h : Worked s s') (hs : s'.Holds type id) : s.Holds type id := by
  obtain ⟨bytes, hbytes⟩ := holds_iff.1 hs
  exact holds_iff.2 ⟨bytes, h.hasBytes hbytes⟩

end Worked

/-- **A step of the worker** leaves all this alone. -/
theorem worked_workerStep (h : s.workerStep? = some s') : Worked s s' := by
  have hbytes : ∀ {type id bytes}, s'.HasBytes type id bytes → s.HasBytes type id bytes :=
    hasBytes_workerStep h
  rcases workerStep?_eq_some h with
    ⟨-, -, rfl⟩ | ⟨_, -, hfree, rfl⟩ | ⟨_, -, rfl⟩ | ⟨-, -, hclosing, rfl⟩
  · exact ⟨rfl, rfl, rfl, fun _ => rfl, rfl, rfl, rfl, nofun, hbytes⟩
  · -- a batch is applied only while nobody writes
    refine ⟨rfl, rfl, rfl, fun hw => ?_, rfl, rfl, rfl, nofun, hbytes⟩
    rw [hfree] at hw
    cases hw
  · exact ⟨rfl, rfl, rfl, fun _ => rfl, rfl, rfl, rfl, nofun, hbytes⟩
  · exact ⟨rfl, rfl, rfl, fun _ => rfl, rfl, rfl, rfl, fun _ => Or.inr hclosing, hbytes⟩

/-- Any number of steps of the worker leaves all this alone. -/
theorem worked_runWorker (s : Store) (n : Nat) : Worked s (s.runWorker n) := by
  induction n generalizing s with
  | zero => exact .refl s
  | succ n ih =>
    unfold runWorker
    cases h : s.workerStep? with
    | none => exact .refl s
    | some s' => exact (worked_workerStep h).trans (ih s')

/-- The bytes of a put that was queued are there from then on. -/
theorem hasBytes_enqueue {item : QueuedPut} (h : s.enqueue item = .ok s')
    (hs : s'.HasBytes type id bytes) :
    s.HasBytes type id bytes ∨ item.type = type ∧ item.id = id ∧ item.data = bytes := by
  obtain ⟨-, -, queue, hpush, rfl⟩ := enqueue_eq_ok.1 h
  obtain ⟨-, -, rfl⟩ := PutQueue.push_eq_ok.1 hpush
  rcases hs with hc | ⟨held, hheld, hput⟩
  · exact Or.inl (Or.inl hc)
  · have hmem : held ∈ s.queue.unreported ∨ held = item := by
      unfold PutQueue.unreported at hheld ⊢
      dsimp only at hheld
      cases hw : s.queue.worker <;> simp only [hw, List.mem_append, List.mem_singleton] at hheld ⊢
        <;> tauto
    rcases hmem with hmem | rfl
    · exact Or.inl (Or.inr ⟨held, hmem, hput⟩)
    · exact Or.inr hput

theorem holds_enqueue {item : QueuedPut} (h : s.enqueue item = .ok s') (hs : s'.Holds type id) :
    s.Holds type id ∨ item.type = type ∧ item.id = id := by
  obtain ⟨bytes, hbytes⟩ := holds_iff.1 hs
  rcases hasBytes_enqueue h hbytes with hbefore | ⟨htype, hid, -⟩
  · exact Or.inl (holds_iff.2 ⟨bytes, hbefore⟩)
  · exact Or.inr ⟨htype, hid⟩

/-- The bytes of changes that were installed are there from then on. -/
theorem hasBytes_install {o : Overlay} (hs : (s.install o).HasBytes type id bytes) :
    s.HasBytes type id bytes ∨ (o.payloads type).get? id = some bytes := by
  rcases hs with hc | hqueued
  · rcases Overlay.get?_of_result hc with hshown | hbefore
    · exact Or.inr hshown
    · exact Or.inl (Or.inl hbefore)
  · exact Or.inl (Or.inr hqueued)

theorem holds_install {o : Overlay} (hs : (s.install o).Holds type id) :
    s.Holds type id ∨ (o.payloads type).contains id = true := by
  obtain ⟨bytes, hbytes⟩ := holds_iff.1 hs
  rcases hasBytes_install hbytes with hbefore | hshown
  · exact Or.inl (holds_iff.2 ⟨bytes, hbefore⟩)
  · exact Or.inr (Option.isSome_iff_exists.2 ⟨bytes, hshown⟩)

end Store

end ObjectStore
