import Mathlib
import ObjectStore.Store.Basic
import ObjectStore.Proofs.SortedMap

/-!
# Overlays and direct updates

A `View` is what contents look like from outside: the payloads of every type, an absent type having
none.  Puts and removals on a view change the payloads of one type and nothing else.

An overlay copies a type when it is first changed and reads that copy from then on.  Seen from
outside this is no different from changing the contents themselves: `view_write` is the commuting
square for every kind of write, `view_result` says that installing an overlay leaves what the
overlay showed, and `view_afterBatch` that a batch is its puts one after the other.
-/

namespace ObjectStore

/-! ## Views -/

/-- The payloads of every type. -/
abbrev View := TypeId → Payloads

namespace View

/-- No payloads of any type. -/
def empty : View := fun _ => ∅

/-- Replaces the payloads of one type. -/
def set (v : View) (type : TypeId) (payloads : Payloads) : View := Function.update v type payloads

@[simp] theorem set_self (v : View) (type : TypeId) (payloads : Payloads) :
    v.set type payloads type = payloads := by
  simp [set]

/-- Replacing payloads by themselves changes nothing. -/
@[simp] theorem set_eq_self (v : View) (type : TypeId) : v.set type (v type) = v :=
  Function.update_eq_self type v

/-- The other types keep their payloads. -/
theorem set_of_ne (v : View) {type other : TypeId} (payloads : Payloads) (h : other ≠ type) :
    v.set type payloads other = v other := by
  simp [set, h]

/-- Puts a payload. -/
def put (v : View) (type : TypeId) (id : ObjectId) (data : Bytes) (mayReplace : Bool) :
    Except StoreError View := do
  checkPut id data
  if !mayReplace && (v type).contains id then throw (.alreadyExists id)
  return v.set type ((v type).insert id data)

/-- Removes one object. -/
def remove (v : View) (type : TypeId) (id : ObjectId) : Except StoreError View :=
  if (v type).contains id then .ok (v.set type ((v type).erase id))
  else .error (.nothingToRemove id type)

/-- Removes every object of a type. -/
def removeAll (v : View) (type : TypeId) : View := v.set type ∅

end View

/-- A write to one entity type. -/
inductive Write
  | put (type : TypeId) (id : ObjectId) (data : Bytes) (mayReplace : Bool)
  | remove (type : TypeId) (id : ObjectId)
  | removeAll (type : TypeId)
  deriving DecidableEq, Repr

/-- The write that a queued put asks for. -/
def QueuedPut.toWrite (item : QueuedPut) : Write :=
  .put item.type item.id item.data item.mayReplace

namespace View

/-- Makes a write. -/
def write (v : View) : Write → Except StoreError View
  | .put type id data mayReplace => v.put type id data mayReplace
  | .remove type id => v.remove type id
  | .removeAll type => .ok (v.removeAll type)

/-- The view after a write; one that fails changes nothing. -/
def after (v : View) (w : Write) : View :=
  match v.write w with
  | .ok v => v
  | .error _ => v

/-- The view after writes, one after the other. -/
def afterAll (v : View) (ws : List Write) : View := ws.foldl after v

@[simp] theorem afterAll_nil (v : View) : v.afterAll [] = v := rfl

/-- The last write is made on what the ones before it left. -/
theorem afterAll_concat (v : View) (ws : List Write) (w : Write) :
    v.afterAll (ws ++ [w]) = (v.afterAll ws).after w := by
  rw [afterAll, List.foldl_append]
  rfl

end View

/-- What contents look like from outside. -/
def Contents.view (c : Contents) : View := c.payloads

/-- What an overlay looks like from outside. -/
def Overlay.view (o : Overlay) : View := o.payloads

/-- Makes a write on an overlay. -/
def Overlay.write (o : Overlay) : Write → Except StoreError Overlay
  | .put type id data mayReplace => o.put type id data mayReplace
  | .remove type id => o.remove type id
  | .removeAll type => .ok (o.removeAll type).2

/-! ## Taking over changed types -/

/-- A type is looked up among the changes first. -/
theorem Contents.get?_takeOver (c changes : Contents) (type : TypeId) :
    (c.takeOver changes).get? type = (changes.get? type).or (c.get? type) := by
  refine Option.ext fun payloads => ?_
  rw [takeOver, SortedMap.get?_foldl_insert c changes.nodup_keys, SortedMap.mem_entries_iff]
  cases h : changes.get? type with
  | some changed =>
    have hmem : type ∈ changes.entries.map Prod.fst :=
      List.mem_map_of_mem (SortedMap.mem_entries_iff.2 h)
    simp [hmem]
  | none =>
    have hmem : type ∉ changes.entries.map Prod.fst := by
      intro hmem
      obtain ⟨e, he, rfl⟩ := List.mem_map.1 hmem
      rw [SortedMap.mem_entries_iff.1 he] at h
      cases h
    simp [hmem]

namespace Overlay

/-! ## Overlays from outside -/

@[simp] theorem view_ofBase (base : Contents) : (Overlay.ofBase base).view = base.view := rfl

/-- Changing a type of an overlay replaces what is seen of that type. -/
@[simp] theorem view_change (o : Overlay) (type : TypeId) (payloads : Payloads) :
    (o.change type payloads).view = o.view.set type payloads := by
  funext t
  by_cases h : t = type
  · subst h
    simp [view, Overlay.payloads, change]
  · rw [View.set_of_ne o.view payloads h]
    simp [view, Overlay.payloads, change, SortedMap.get?_insert, h]

/-- A copy shows what was there. -/
theorem view_copy (o : Overlay) (type : TypeId) : (o.copy type).view = o.view :=
  (view_change o type _).trans (View.set_eq_self o.view type)

/-- A put that failed shows nothing new. -/
theorem view_afterRefusedPut (o : Overlay) (type : TypeId) (id : ObjectId) (data : Bytes) :
    (o.afterRefusedPut type id data).view = o.view := by
  rw [afterRefusedPut]
  split
  · exact view_copy o type
  · rfl

/-- A put that failed leaves the base alone. -/
theorem base_afterRefusedPut (o : Overlay) (type : TypeId) (id : ObjectId) (data : Bytes) :
    (o.afterRefusedPut type id data).base = o.base := by
  rw [afterRefusedPut]
  split <;> rfl

/-- **A put on an overlay is a put on what it shows**, with the same outcome. -/
theorem view_put (o : Overlay) (type : TypeId) (id : ObjectId) (data : Bytes) (mayReplace : Bool) :
    (o.put type id data mayReplace).map Overlay.view = o.view.put type id data mayReplace := by
  rw [Overlay.put, View.put]
  cases checkPut id data with
  | error e => rfl
  | ok _ =>
    by_cases h : (!mayReplace && (o.payloads type).contains id) = true
    · have hv : (!mayReplace && (o.view type).contains id) = true := h
      simp only [bind, Except.bind, h, hv, if_true]
      rfl
    · have hv : ¬ (!mayReplace && (o.view type).contains id) = true := h
      simp only [bind, Except.bind, h, hv]
      exact congrArg Except.ok (view_change o type _)

/-- A removal on an overlay is a removal on what it shows, with the same outcome. -/
theorem view_remove (o : Overlay) (type : TypeId) (id : ObjectId) :
    (o.remove type id).map Overlay.view = o.view.remove type id := by
  rw [Overlay.remove, View.remove]
  by_cases h : (o.payloads type).contains id = true
  · have hv : (o.view type).contains id = true := h
    rw [if_pos h, if_pos hv]
    exact congrArg Except.ok (view_change o type _)
  · have hv : ¬ (o.view type).contains id = true := h
    rw [if_neg h, if_neg hv]
    rfl

/-- Removing all objects of a type counts and removes what the overlay shows of it. -/
theorem view_removeAll (o : Overlay) (type : TypeId) :
    (o.removeAll type).1 = (o.view type).size ∧
      (o.removeAll type).2.view = o.view.removeAll type :=
  ⟨rfl, view_change o type ∅⟩

/-- A put leaves the base alone. -/
theorem base_of_put {o o' : Overlay} {type : TypeId} {id : ObjectId} {data : Bytes}
    {mayReplace : Bool} (h : o.put type id data mayReplace = .ok o') : o'.base = o.base := by
  rw [Overlay.put] at h
  cases hc : checkPut id data with
  | error e => rw [hc] at h; cases h
  | ok _ =>
    rw [hc] at h
    by_cases he : (!mayReplace && (o.payloads type).contains id) = true
    · simp only [bind, Except.bind, he, if_true] at h
      cases h
    · simp only [bind, Except.bind, he] at h
      cases h
      rfl

/-- A removal leaves the base alone. -/
theorem base_of_remove {o o' : Overlay} {type : TypeId} {id : ObjectId}
    (h : o.remove type id = .ok o') : o'.base = o.base := by
  rw [Overlay.remove] at h
  split at h
  · cases h
    rfl
  · cases h

/-- **A write on an overlay is a write on what it shows**, with the same outcome. -/
theorem view_write (o : Overlay) (w : Write) : (o.write w).map Overlay.view = o.view.write w := by
  cases w with
  | put type id data mayReplace => exact view_put o type id data mayReplace
  | remove type id => exact view_remove o type id
  | removeAll type => exact congrArg Except.ok (view_removeAll o type).2

/-- A write on an overlay and on what it shows both fail, for the same reason, or both succeed. -/
theorem write_cases (o : Overlay) (w : Write) :
    (∃ e, o.write w = .error e ∧ o.view.write w = .error e) ∨
      ∃ o', o.write w = .ok o' ∧ o.view.write w = .ok o'.view := by
  have h := view_write o w
  cases hw : o.write w with
  | error e => exact Or.inl ⟨e, rfl, by rw [← h, hw]; rfl⟩
  | ok o' => exact Or.inr ⟨o', rfl, by rw [← h, hw]; rfl⟩

/-- After a successful write an overlay shows what the write makes of what it showed. -/
theorem view_of_write {o o' : Overlay} {w : Write} (h : o.write w = .ok o') :
    o'.view = o.view.after w := by
  have hv : o.view.write w = .ok o'.view := by rw [← view_write o w, h]; rfl
  rw [View.after, hv]

/-- A write leaves the base alone. -/
theorem base_of_write {o o' : Overlay} {w : Write} (h : o.write w = .ok o') : o'.base = o.base := by
  cases w with
  | put type id data mayReplace => exact base_of_put h
  | remove type id => exact base_of_remove h
  | removeAll type =>
    cases h
    rfl

/-- Trying a queued put on an overlay is trying it on what the overlay shows. -/
theorem view_attempt (o : Overlay) (item : QueuedPut) :
    (o.attempt item).view = o.view.after item.toWrite := by
  have h : (o.write item.toWrite).map Overlay.view = o.view.write item.toWrite :=
    view_write o item.toWrite
  have hw : o.write item.toWrite = o.put item.type item.id item.data item.mayReplace := rfl
  rw [Overlay.attempt, View.after, ← h, hw]
  cases o.put item.type item.id item.data item.mayReplace with
  | ok o' => rfl
  | error e => exact view_afterRefusedPut o item.type item.id item.data

/-- Trying a queued put leaves the base alone. -/
theorem base_attempt (o : Overlay) (item : QueuedPut) : (o.attempt item).base = o.base := by
  rw [Overlay.attempt]
  split
  · rename_i h
    exact base_of_put h
  · exact base_afterRefusedPut o item.type item.id item.data

/-- Queued puts are tried one after the other. -/
theorem view_foldl_attempt (o : Overlay) (batch : List QueuedPut) :
    (batch.foldl Overlay.attempt o).view = o.view.afterAll (batch.map QueuedPut.toWrite) := by
  induction batch generalizing o with
  | nil => rfl
  | cons item batch ih =>
    rw [List.foldl_cons, ih, view_attempt]
    rfl

/-- Queued puts leave the base alone. -/
theorem base_foldl_attempt (o : Overlay) (batch : List QueuedPut) :
    (batch.foldl Overlay.attempt o).base = o.base := by
  induction batch generalizing o with
  | nil => rfl
  | cons item batch ih => rw [List.foldl_cons, ih, base_attempt]

/-- Installing an overlay on its base leaves what the overlay showed. -/
theorem view_result {o : Overlay} {c : Contents} (h : o.base = c) : (o.result c).view = o.view := by
  funext type
  show ((c.takeOver o.changed).get? type).getD ∅ = o.payloads type
  rw [Contents.get?_takeOver, Overlay.payloads, h]
  cases o.changed.get? type <;> rfl

end Overlay

/-- **A batch is its puts one after the other**, each tried on what the ones before it left. -/
theorem Store.view_afterBatch (c : Contents) (batch : List QueuedPut) :
    (Store.afterBatch c batch).view = c.view.afterAll (batch.map QueuedPut.toWrite) := by
  have hbase : (batch.foldl Overlay.attempt (.ofBase c)).base = c :=
    Overlay.base_foldl_attempt (.ofBase c) batch
  rw [Store.afterBatch, Overlay.view_result hbase, Overlay.view_foldl_attempt,
    Overlay.view_ofBase]

end ObjectStore
