import Mathlib
import ObjectStore.Proofs.Database.Transactions
import ObjectStore.Proofs.Store.Effects

/-!
# Opening databases and boxes

A database that was just opened holds nothing, and its store knows the entity types of the plan, of
which no ID was issued (`Database.ofPlan_fresh`).  Each registered type has a box as long as the
database is open, and getting it closes no other box (`Database.boxOf_eq`).
-/

namespace ObjectStore

/-! ## Databases -/

/-- Nothing was done with a store but registering types. -/
structure Store.Fresh (s : Store) : Prop where
  closed : s.closed = false
  free : s.writing = false
  committed : s.committed = ∅
  unused : ∀ {type t}, s.types.get? type = some t → t.lastId = 0

/-- The registered types of a store are registered in another one, as they are. -/
def Store.Keeps (s s' : Store) : Prop :=
  ∀ {type t}, s.types.get? type = some t → s'.types.get? type = some t

namespace Store

variable {s s' : Store} {type : TypeId} {name : String}

theorem fresh_new (options : Options) : (new options).Fresh where
  closed := rfl
  free := rfl
  committed := rfl
  unused := by
    intro type t h
    rw [new, SortedMap.get?_empty] at h
    cases h

/-- Registering a type makes it known under its name. -/
theorem Fresh.register (hs : s.Fresh) (h : s.register type name = .ok s') :
    s'.Fresh ∧ s.Keeps s' ∧ s'.types.get? type = some (.named name) := by
  simp only [Store.register, bind_eq_ok] at h
  obtain ⟨_, -, h⟩ := h
  split at h
  · cases h
  split at h
  · cases h
  cases hknown : s.types.get? type with
  | none =>
    simp only [hknown] at h
    cases h
    refine ⟨⟨hs.closed, hs.free, hs.committed, fun {type' t} hget => ?_⟩, fun {type' t} hget => ?_,
      SortedMap.get?_insert_self _ _ _⟩
    · simp only [SortedMap.get?_insert] at hget
      split at hget
      · cases hget
        rfl
      · exact hs.unused hget
    · have hne : type' ≠ type := by
        rintro rfl
        rw [hknown] at hget
        cases hget
      exact (SortedMap.get?_insert _ _ _ _).trans ((if_neg hne).trans hget)
  | some known =>
    simp only [hknown] at h
    split at h
    · -- the type was known already, and no ID of it was issued since
      rename_i hname
      cases h
      refine ⟨hs, id, hknown.trans ?_⟩
      rw [EntityType.named, ← hname, ← hs.unused hknown]
    · cases h

end Store

namespace Database

/-- Registering entity types makes all of them known, by induction on the types. -/
theorem registered_foldlM {entities : List EntityInfo} {s s' : Store} (hs : s.Fresh)
    (h : entities.foldlM register s = .ok s') :
    s'.Fresh ∧ s.Keeps s' ∧ ∀ e ∈ entities, s'.types.get? e.type = some (.named e.name) := by
  induction entities generalizing s with
  | nil =>
    cases h
    exact ⟨hs, id, nofun⟩
  | cons e entities ih =>
    rw [List.foldlM_cons, bind_eq_ok] at h
    obtain ⟨s₁, hone, hrest⟩ := h
    rw [register] at hone
    split at hone
    · cases hone
    cases hregister : s.register e.type e.name with
    | error e' =>
      rw [hregister] at hone
      cases hone
    | ok s₂ =>
      rw [hregister] at hone
      cases hone
      obtain ⟨hs₁, hkeeps, htype⟩ := hs.register hregister
      obtain ⟨hs', hkeeps', htypes⟩ := ih hs₁ hrest
      refine ⟨hs', fun hget => hkeeps' (hkeeps hget), fun e' he' => ?_⟩
      rcases List.mem_cons.1 he' with rfl | he'
      · exact hkeeps' htype
      · exact htypes e' he'

/-- **A database that was just opened** holds nothing and knows its types. -/
theorem ofPlan_fresh {plan : DatabasePlan} {db : Database} (h : ofPlan plan = .ok db) :
    db.store.Fresh ∧ ∀ e ∈ plan.entities, db.store.types.get? e.type = some (.named e.name) := by
  rw [ofPlan, bind_eq_ok] at h
  obtain ⟨s, hs, hdb⟩ := h
  cases hdb
  obtain ⟨hfresh, -, htypes⟩ := registered_foldlM (Store.fresh_new _) hs
  exact ⟨hfresh, htypes⟩

/-! ## Boxes -/

variable {σ α : Type}

theorem isOpen_append {db db' : Database} {box : BoxState} (hboxes : db'.boxes = db.boxes ++ [box])
    {n : BoxNumber} (h : db.isOpen n = true) : db'.isOpen n = true := by
  rw [isOpen] at h ⊢
  cases hget : db.boxes[n]? with
  | none =>
    rw [hget] at h
    cases h
  | some found =>
    obtain ⟨hlt, -⟩ := List.getElem?_eq_some_iff.1 hget
    rw [hboxes, List.getElem?_append_left hlt, hget]
    rw [hget] at h
    exact h

/-- A registered type of an open database has an open box. -/
theorem findOrOpen_eq {db : Database} {type : TypeId} {t : EntityType}
    (hopen : db.store.closed = false) (htype : db.store.types.get? type = some t) :
    ∃ n db', db.findOrOpen type = .ok (n, db') ∧ db'.store = db.store ∧ db'.isOpen n = true ∧
      ∀ n', db.isOpen n' = true → db'.isOpen n' = true := by
  have hnew : ∃ n db', db.openBox type = .ok (n, db') ∧ db'.store = db.store ∧
      db'.isOpen n = true ∧ ∀ n', db.isOpen n' = true → db'.isOpen n' = true := by
    have hrequire : db.store.requireType type = .ok () :=
      Store.requireType_eq_ok.2 ⟨hopen, t, htype⟩
    have hok : db.openBox type = .ok (db.boxes.length,
        { db with
          boxes := db.boxes ++ [⟨type, true, .new⟩]
          current := db.current.insert type db.boxes.length }) := by
      rw [openBox, requireOpen, isClosed, hopen, hrequire]
      rfl
    refine ⟨_, _, hok, rfl, ?_, fun n' hn' => isOpen_append rfl hn'⟩
    simp only [isOpen, List.getElem?_concat_length]
  rw [findOrOpen]
  cases db.current.get? type with
  | none => exact hnew
  | some n =>
    dsimp only
    split
    · rename_i hn
      exact ⟨n, db, rfl, rfl, hn, fun _ => id⟩
    · exact hnew

/-- **A binding whose type is registered gets a box.** -/
theorem boxOf_eq (b : Binding σ α) {ctx : Context σ} {t : EntityType}
    (hopen : ctx.db.store.closed = false) (htype : ctx.db.store.types.get? b.type = some t) :
    ∃ n db', boxOf b ctx = .ok ⟨b, n⟩ { ctx with db := db' } ∧ db'.store = ctx.db.store ∧
      db'.isOpen n = true ∧ ∀ n', ctx.db.isOpen n' = true → db'.isOpen n' = true := by
  obtain ⟨n, db', hfind, hstore, hn, hkept⟩ := findOrOpen_eq hopen htype
  refine ⟨n, db', Operation.update_of_ok ?_, hstore, hn, hkept⟩
  rw [hfind]
  rfl

end Database

end ObjectStore
