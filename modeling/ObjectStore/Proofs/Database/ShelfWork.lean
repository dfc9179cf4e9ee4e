import Mathlib
import ObjectStore.Proofs.Database.Reference
import ObjectStore.Proofs.Database.Transactions
import ObjectStore.Proofs.Store.DirectUpdate
import ObjectStore.Proofs.Store.Ids

/-!
# Putting within a write transaction

`Shelf.Shows s b payloads` ties a shelf to the payloads of its type: they restore to the objects of
the shelf, and no object has an ID above the largest one used.  Putting an object within a write
transaction does to the payloads what `Shelf.putOne` does to the shelf (`TypedBox.putWithin_eq`),
and so does putting several (`TypedBox.putEachWithin_eq`).  Besides, only the last ID of the type
changes in the store (`Context.Issued`), and that stays so if the transaction fails.
-/

namespace ObjectStore

/-! ## IDs -/

namespace Shelf

variable {σ α : Type} {s s' : Shelf α} {b : Binding σ α} {candidate id : ObjectId}

/-- What the store knows of the type of a shelf. -/
def entity (s : Shelf α) (b : Binding σ α) : EntityType := ⟨b.name, s.last⟩

/-- An ID to put under is one that objects can have, and one that was minted is new. -/
theorem idFor_spec (hlast : s.last ≤ highestId) (h : s.idFor b candidate = .ok id) :
    id ≠ 0 ∧ id ≤ highestId ∧ (candidate = 0 → s.last < id) := by
  have htop := toNat_highestId
  rw [UInt64.le_iff_toNat_le] at hlast
  rw [idFor] at h
  split at h
  · rename_i hzero
    split at h
    · cases h
    · rename_i hroom
      cases h
      have hne : s.last.toNat ≠ 2 ^ 64 - 2 := fun heq => hroom (UInt64.toNat_inj.1 heq)
      have hnext : (s.last + 1).toNat = s.last.toNat + 1 := by
        rw [UInt64.toNat_add, UInt64.toNat_one]
        omega
      refine ⟨fun heq => ?_, ?_, fun _ => ?_⟩
      · have hzero' := congrArg UInt64.toNat heq
        rw [hnext] at hzero'
        cases hzero'
      · rw [UInt64.le_iff_toNat_le]
        omega
      · rw [UInt64.lt_iff_toNat_lt]
        omega
  · rename_i hzero
    split at h
    · cases h
    · rename_i hreserved
      cases h
      have hne : candidate.toNat ≠ 2 ^ 64 - 1 := fun heq => hreserved (UInt64.toNat_inj.1 heq)
      have hlt := candidate.toNat_lt
      refine ⟨hzero, ?_, fun heq => absurd heq hzero⟩
      rw [UInt64.le_iff_toNat_le]
      omega

/-- **The store issues the ID** that the shelf says, and keeps the largest one. -/
theorem issue_entity (s : Shelf α) (hlast : s.last ≤ highestId) (b : Binding σ α)
    (candidate : ObjectId) :
    ((s.entity b).issue candidate).mapError .ofStore
      = (s.idFor b candidate).map fun id => (id, ⟨b.name, max s.last id⟩) := by
  have htop := toNat_highestId
  rw [UInt64.le_iff_toNat_le] at hlast
  rw [EntityType.issue, idFor]
  split
  · -- a new object: the ID behind the largest one, if there is one left
    by_cases hroom : s.last = 0xFFFFFFFFFFFFFFFE
    · have hlt : ¬ (s.entity b).lastId < highestId := by
        show ¬ s.last < highestId
        rw [hroom]
        decide
      rw [if_neg hlt, if_pos hroom]
      rfl
    · have hne : s.last.toNat ≠ 2 ^ 64 - 2 := fun heq => hroom (UInt64.toNat_inj.1 heq)
      have hlt : (s.entity b).lastId < highestId := by
        show s.last < highestId
        rw [UInt64.lt_iff_toNat_lt]
        omega
      have hmax : max s.last (s.last + 1) = s.last + 1 := by
        rw [← UInt64.toNat_inj, toNat_max, UInt64.toNat_add, UInt64.toNat_one]
        omega
      rw [if_pos hlt, if_neg hroom]
      simp only [Except.mapError, Except.map, hmax]
      rfl
  · -- an object that brings an ID along: any but the reserved one
    by_cases hreserved : candidate = 0xFFFFFFFFFFFFFFFF
    · have hlt : highestId < candidate := by
        rw [hreserved]
        decide
      rw [if_pos hlt, if_pos hreserved]
      rfl
    · have hne : candidate.toNat ≠ 2 ^ 64 - 1 := fun heq => hreserved (UInt64.toNat_inj.1 heq)
      have hlt : ¬ highestId < candidate := by
        rw [UInt64.lt_iff_toNat_lt]
        have := candidate.toNat_lt
        omega
      have hmax : (if s.last < candidate then candidate else s.last) = max s.last candidate := by
        rw [← UInt64.toNat_inj, toNat_max]
        split
        · rename_i h
          rw [UInt64.lt_iff_toNat_lt] at h
          omega
        · rename_i h
          rw [UInt64.lt_iff_toNat_lt] at h
          omega
      rw [if_neg hlt, if_neg hreserved]
      simp only [Except.mapError, Except.map]
      rw [← hmax]
      rfl

/-! ## The largest ID -/

/-- The largest ID grows, within the IDs that objects can have. -/
structure Later (s s' : Shelf α) : Prop where
  le : s.last ≤ s'.last
  bound : s'.last ≤ highestId

theorem Later.refl (h : s.last ≤ highestId) : Later s s := ⟨UInt64.le_refl _, h⟩

theorem Later.trans {s'' : Shelf α} (h : Later s s') (h' : Later s' s'') : Later s s'' :=
  ⟨UInt64.le_trans h.le h'.le, h'.bound⟩

theorem later_max (objects : SortedMap ObjectId α) (hlast : s.last ≤ highestId)
    (hid : id ≤ highestId) : Later s ⟨objects, max s.last id⟩ := by
  rw [UInt64.le_iff_toNat_le] at hlast hid
  constructor <;> rw [UInt64.le_iff_toNat_le, toNat_max] <;> omega

theorem later_putOne (hlast : s.last ≤ highestId) (object : α) : Later s (s.putOne b object).2 := by
  rw [putOne]
  cases b.idOf object with
  | error e => exact .refl hlast
  | ok candidate =>
    dsimp only
    cases hid : s.idFor b candidate with
    | error e => exact .refl hlast
    | ok id =>
      have hbound := (idFor_spec hlast hid).2.1
      dsimp only
      cases b.flatten object id with
      | error e => exact later_max _ hlast hbound
      | ok bytes => exact later_max _ hlast hbound

theorem later_putEach (hlast : s.last ≤ highestId) (objects : List α) :
    Later s (s.putEach b objects).2 := by
  induction objects generalizing s with
  | nil => exact .refl hlast
  | cons object objects ih =>
    have hone := later_putOne (b := b) hlast object
    rw [putEach]
    cases hput : s.putOne b object with
    | mk outcome s' =>
      rw [hput] at hone
      cases outcome with
      | error e => exact hone
      | ok id =>
        have heach := hone.trans (ih hone.bound)
        dsimp only
        cases hputs : s'.putEach b objects with
        | mk outcome s'' =>
          rw [hputs] at heach
          cases outcome with
          | error e => exact heach
          | ok ids => exact heach

end Shelf

/-! ## Shelves and payloads -/

/-- The payloads of a type are the objects of its shelf. -/
structure Shelf.Shows {σ α : Type} (s : Shelf α) (b : Binding σ α) (payloads : Payloads) :
    Prop where
  objects : payloads.mapValues b.restore = s.objects.mapValues .ok
  le_last : ∀ {id object}, s.objects.get? id = some object → id ≤ s.last
  last_le : s.last ≤ highestId

namespace Shelf.Shows

variable {σ α : Type} {s : Shelf α} {b : Binding σ α} {payloads : Payloads} {id : ObjectId}

/-- What is found under an ID restores to the object. -/
theorem get?_eq (h : s.Shows b payloads) (id : ObjectId) :
    (payloads.get? id).map b.restore = (s.objects.get? id).map .ok := by
  rw [← SortedMap.get?_mapValues, h.objects, SortedMap.get?_mapValues]

theorem contains_eq (h : s.Shows b payloads) (id : ObjectId) :
    payloads.contains id = s.objects.contains id := by
  have hget := congrArg Option.isSome (h.get?_eq id)
  rw [Option.isSome_map, Option.isSome_map] at hget
  exact hget

theorem size_eq (h : s.Shows b payloads) : payloads.size = s.objects.size := by
  rw [← SortedMap.size_mapValues b.restore, h.objects, SortedMap.size_mapValues]

/-- Above the largest ID there is nothing. -/
theorem contains_of_lt (h : s.Shows b payloads) (hid : s.last < id) :
    payloads.contains id = false := by
  rw [h.contains_eq, SortedMap.contains]
  cases hget : s.objects.get? id with
  | none => rfl
  | some object =>
    have hle := h.le_last hget
    rw [UInt64.le_iff_toNat_le] at hle
    rw [UInt64.lt_iff_toNat_lt] at hid
    omega

/-- An object is put on both sides. -/
theorem insert (h : s.Shows b payloads) (hid : id ≤ highestId) {bytes : Bytes} {object : α}
    (hbytes : b.restore bytes = .ok object) :
    (Shelf.mk (s.objects.insert id object) (max s.last id)).Shows b (payloads.insert id bytes) where
  objects := by
    rw [SortedMap.mapValues_insert, SortedMap.mapValues_insert, h.objects, hbytes]
  le_last := by
    intro id' object' hget
    simp only [SortedMap.get?_insert] at hget
    show id' ≤ max s.last id
    rw [UInt64.le_iff_toNat_le, toNat_max]
    split at hget
    · rename_i heq
      rw [heq]
      exact le_max_right _ _
    · have hle := h.le_last hget
      rw [UInt64.le_iff_toNat_le] at hle
      omega
  last_le := (later_max s.objects h.last_le hid).bound

/-- Objects are taken away on both sides. -/
theorem fewer (h : s.Shows b payloads) {payloads' : Payloads} {objects : SortedMap ObjectId α}
    (hobjects : payloads'.mapValues b.restore = objects.mapValues .ok)
    (hsub : ∀ {id object}, objects.get? id = some object → s.objects.get? id = some object) :
    (Shelf.mk objects s.last).Shows b payloads' :=
  ⟨hobjects, fun hget => h.le_last (hsub hget), h.last_le⟩

/-- More IDs may have been used than there are objects. -/
theorem withLast (h : s.Shows b payloads) {s' : Shelf α} (hlater : Later s s') :
    (Shelf.mk s.objects s'.last).Shows b payloads :=
  ⟨h.objects, fun hget => UInt64.le_trans (h.le_last hget) hlater.le, hlater.bound⟩

end Shelf.Shows

/-! ## What a write transaction touches -/

/-- Only what the store knows of one type may be different, and that is `t` now; besides, the user
may have kept something. -/
structure Context.Issued {σ : Type} (type : TypeId) (t : EntityType) (ctx ctx' : Context σ) :
    Prop where
  db : ctx'.db = { ctx.db with store := { ctx.db.store with types := ctx'.db.store.types } }
  here : ctx'.db.store.types.get? type = some t
  others : ∀ other, other ≠ type →
    ctx'.db.store.types.get? other = ctx.db.store.types.get? other

namespace Context.Issued

variable {σ : Type} {type : TypeId} {t t' : EntityType} {ctx ctx' ctx'' : Context σ}

theorem refl (h : ctx.db.store.types.get? type = some t) : ctx.Issued type t ctx :=
  ⟨rfl, h, fun _ _ => rfl⟩

theorem trans (h : ctx.Issued type t ctx') (h' : ctx'.Issued type t' ctx'') :
    ctx.Issued type t' ctx'' where
  db := by
    rw [h'.db, h.db]
  here := h'.here
  others := fun other hother => (h'.others other hother).trans (h.others other hother)

theorem closed_eq (h : ctx.Issued type t ctx') : ctx'.db.store.closed = ctx.db.store.closed := by
  rw [h.db]

theorem committed_eq (h : ctx.Issued type t ctx') :
    ctx'.db.store.committed = ctx.db.store.committed := by
  rw [h.db]

/-- The boxes are no part of the store. -/
theorem boxes_eq (h : ctx.Issued type t ctx') :
    ctx'.db.boxes = ctx.db.boxes ∧ ctx'.db.current = ctx.db.current := by
  rw [h.db]
  exact ⟨rfl, rfl⟩

end Context.Issued

/-- Only the payloads of one type are different. -/
structure Overlay.Wrote (type : TypeId) (changes changes' : Overlay) : Prop where
  base : changes'.base = changes.base
  others : ∀ other, other ≠ type → changes'.payloads other = changes.payloads other

namespace Overlay.Wrote

variable {type : TypeId} {changes changes' changes'' : Overlay}

theorem refl (type : TypeId) (changes : Overlay) : changes.Wrote type changes :=
  ⟨rfl, fun _ _ => rfl⟩

theorem trans (h : changes.Wrote type changes') (h' : changes'.Wrote type changes'') :
    changes.Wrote type changes'' :=
  ⟨h'.base.trans h.base, fun other hother => (h'.others other hother).trans (h.others other hother)⟩

theorem change (type : TypeId) (changes : Overlay) (payloads : Payloads) :
    changes.Wrote type (changes.change type payloads) where
  base := rfl
  others := by
    intro other hother
    have hview := congrFun (Overlay.view_change changes type payloads) other
    rw [View.set_of_ne _ _ hother] at hview
    exact hview

end Overlay.Wrote

theorem Overlay.payloads_change (changes : Overlay) (type : TypeId) (payloads : Payloads) :
    (changes.change type payloads).payloads type = payloads := by
  have hview := congrFun (Overlay.view_change changes type payloads) type
  rw [View.set_self] at hview
  exact hview

/-! ## Putting -/

namespace TypedBox

open Operation

variable {σ α : Type} {b : TypedBox σ α} {Fits : α → Prop} {ctx : Context σ} {s : Shelf α}
  {changes : Overlay}

/-- An ID is issued in an open store as the shelf says. -/
theorem issueId_of_ok (hopen : ctx.db.store.closed = false) (hlast : s.last ≤ highestId)
    (htype : ctx.db.store.types.get? b.binding.type = some (s.entity b.binding))
    {candidate id : ObjectId} (hid : s.idFor b.binding candidate = .ok id) :
    ∃ ctx', b.issueId candidate ctx = .ok id ctx' ∧
      ctx.Issued b.binding.type ⟨b.binding.name, max s.last id⟩ ctx' := by
  have hissue := Shelf.issue_entity s hlast b.binding candidate
  rw [hid] at hissue
  cases hentity : (s.entity b.binding).issue candidate with
  | error e =>
    rw [hentity] at hissue
    cases hissue
  | ok r =>
    rw [hentity] at hissue
    cases hissue
    refine ⟨_, store_of_ok (Store.issueId_eq_ok.2 ⟨hopen, _, _, htype, hentity, rfl⟩), rfl, ?_, ?_⟩
    · exact SortedMap.get?_insert_self _ _ _
    · intro other hother
      exact (SortedMap.get?_insert _ _ _ _).trans (if_neg hother)

/-- An ID is refused in an open store as the shelf says. -/
theorem issueId_of_error (hopen : ctx.db.store.closed = false) (hlast : s.last ≤ highestId)
    (htype : ctx.db.store.types.get? b.binding.type = some (s.entity b.binding))
    {candidate : ObjectId} {e : BoxError} (hid : s.idFor b.binding candidate = .error e) :
    b.issueId candidate ctx = .error e ctx := by
  have hissue := Shelf.issue_entity s hlast b.binding candidate
  rw [hid] at hissue
  cases hentity : (s.entity b.binding).issue candidate with
  | error e' =>
    rw [hentity] at hissue
    cases hissue
    refine store_of_error ?_
    rw [Store.issueId, Store.requireOpen, hopen, Store.findType, htype]
    simp only [bind, Except.bind, Bool.false_eq_true, if_false, hentity]
  | ok r =>
    rw [hentity] at hissue
    cases hissue

/-- What a lawful binding made can be put under the ID that was issued. -/
theorem put_eq_ok (hs : s.Shows b.binding (changes.payloads b.binding.type))
    {candidate id : ObjectId} (hid : s.idFor b.binding candidate = .ok id) {bytes : Bytes}
    (hbytes : bytes ≠ []) :
    changes.put b.binding.type id bytes (candidate ≠ 0) = .ok (changes.change b.binding.type
      ((changes.payloads b.binding.type).insert id bytes)) := by
  obtain ⟨hzero, hbound, hnew⟩ := Shelf.idFor_spec hs.last_le hid
  -- an object without an ID of its own must not meet another one, and under a new ID it does not
  have hfree :
      (!decide (candidate ≠ 0) && (changes.payloads b.binding.type).contains id) = false := by
    by_cases h : candidate = 0
    · rw [hs.contains_of_lt (hnew h), Bool.and_false]
    · simp [h]
  rw [Overlay.put, checkPut_eq_ok hzero hbound hbytes]
  simp only [bind, Except.bind, hfree, Bool.false_eq_true, if_false, pure, Except.pure]

/-- **Putting an object within a write transaction** does what the shelf says. -/
theorem putWithin_eq (hb : b.binding.Lawful Fits) {object : α} (hobject : Fits object)
    (hopen : ctx.db.store.closed = false)
    (htype : ctx.db.store.types.get? b.binding.type = some (s.entity b.binding))
    (hs : s.Shows b.binding (changes.payloads b.binding.type)) {builder : Builder}
    (hidle : builder.isIdle = true) :
    ∃ ctx', ctx.Issued b.binding.type ((s.putOne b.binding object).2.entity b.binding) ctx' ∧
      ((∃ id s' changes' builder', s.putOne b.binding object = (.ok id, s') ∧
          b.putWithin object changes builder ctx = .ok (id, changes', builder') ctx' ∧
          builder'.isIdle = true ∧ changes.Wrote b.binding.type changes' ∧
          s'.Shows b.binding (changes'.payloads b.binding.type)) ∨
        ∃ e s', s.putOne b.binding object = (.error e, s') ∧
          b.putWithin object changes builder ctx = .error e ctx') := by
  rw [Shelf.putOne, putWithin]
  cases hcurrent : b.binding.idOf object with
  | error e => exact ⟨ctx, .refl htype, Or.inr ⟨e, s, rfl, rfl⟩⟩
  | ok candidate =>
    rw [bind_of_ok (lift_ok candidate ctx)]
    dsimp only
    cases hid : s.idFor b.binding candidate with
    | error e =>
      have hissue := issueId_of_error hopen hs.last_le htype hid
      exact ⟨ctx, .refl htype, Or.inr ⟨e, s, rfl, bind_of_error hissue⟩⟩
    | ok id =>
      -- from here on the ID counts as used, whether or not the binding accepts the object
      obtain ⟨ctx₁, hissue, hissued⟩ := issueId_of_ok hopen hs.last_le htype hid
      obtain ⟨builder', user, hserialize⟩ :=
        b.serialize_eq (hb.quiet hobject id) hidle ctx₁
      have hissued' : ctx.Issued b.binding.type ⟨b.binding.name, max s.last id⟩ ⟨ctx₁.db, user⟩ :=
        ⟨hissued.db, hissued.here, hissued.others⟩
      rw [bind_of_ok hissue, bind_of_ok hserialize]
      dsimp only
      cases hflatten : b.binding.flatten object id with
      | error e =>
        exact ⟨_, hissued', Or.inr ⟨e, _, rfl, bind_of_error (lift_error e _)⟩⟩
      | ok bytes =>
        have hput := put_eq_ok hs hid (Binding.flatten_ne_nil hflatten)
        have hwrite : (liftStore (changes.put b.binding.type id bytes (candidate ≠ 0)) :
            Operation σ Overlay) ⟨ctx₁.db, user⟩ = .ok (changes.change b.binding.type
              ((changes.payloads b.binding.type).insert id bytes)) ⟨ctx₁.db, user⟩ := by
          rw [liftStore, hput]
          rfl
        refine ⟨_, hissued', Or.inl ⟨id, _, changes.change b.binding.type
          ((changes.payloads b.binding.type).insert id bytes), builder'.reset, rfl, ?_, rfl,
          .change _ _ _, ?_⟩⟩
        · rw [bind_of_ok (lift_ok bytes _)]
          exact bind_of_ok hwrite
        · rw [Overlay.payloads_change]
          exact hs.insert (Shelf.idFor_spec hs.last_le hid).2.1 (hb.restores hobject hflatten)

/-- **Putting several objects within a write transaction** does what the shelf says, by induction on
the objects. -/
theorem putEachWithin_eq (hb : b.binding.Lawful Fits) {objects : List α}
    (hobjects : ∀ object ∈ objects, Fits object) (hopen : ctx.db.store.closed = false)
    (htype : ctx.db.store.types.get? b.binding.type = some (s.entity b.binding))
    (hs : s.Shows b.binding (changes.payloads b.binding.type)) {builder : Builder}
    (hidle : builder.isIdle = true) :
    ∃ ctx', ctx.Issued b.binding.type ((s.putEach b.binding objects).2.entity b.binding) ctx' ∧
      ((∃ ids s' changes', s.putEach b.binding objects = (.ok ids, s') ∧
          b.putEachWithin objects changes builder ctx = .ok (ids, changes') ctx' ∧
          changes.Wrote b.binding.type changes' ∧
          s'.Shows b.binding (changes'.payloads b.binding.type)) ∨
        ∃ e s', s.putEach b.binding objects = (.error e, s') ∧
          b.putEachWithin objects changes builder ctx = .error e ctx') := by
  induction objects generalizing ctx changes s builder with
  | nil => exact ⟨ctx, .refl htype, Or.inl ⟨[], s, changes, rfl, rfl, .refl _ _, hs⟩⟩
  | cons object objects ih =>
    obtain ⟨ctx₁, hissued, hone⟩ :=
      putWithin_eq hb (hobjects object List.mem_cons_self) hopen htype hs hidle
    rw [Shelf.putEach, putEachWithin]
    rcases hone with ⟨id, s₁, changes₁, builder₁, hput, hwithin, hidle₁, hwrote, hs₁⟩ |
      ⟨e, s₁, hput, hwithin⟩
    · rw [hput] at hissued ⊢
      obtain ⟨ctx₂, hissued₂, heach⟩ :=
        ih (fun o ho => hobjects o (List.mem_cons_of_mem object ho)) (hissued.closed_eq.trans hopen)
          hissued.here hs₁ hidle₁
      rw [bind_of_ok hwithin]
      dsimp only
      rcases heach with ⟨ids, s₂, changes₂, hputs, heachWithin, hwrote₂, hs₂⟩ |
        ⟨e, s₂, hputs, heachWithin⟩
      · rw [hputs] at hissued₂ ⊢
        exact ⟨ctx₂, hissued.trans hissued₂, Or.inl ⟨id :: ids, s₂, changes₂, rfl,
          bind_of_ok heachWithin, hwrote.trans hwrote₂, hs₂⟩⟩
      · rw [hputs] at hissued₂ ⊢
        exact ⟨ctx₂, hissued.trans hissued₂, Or.inr ⟨e, s₂, rfl, bind_of_error heachWithin⟩⟩
    · rw [hput] at hissued ⊢
      exact ⟨ctx₁, hissued, Or.inr ⟨e, s₁, rfl, bind_of_error hwithin⟩⟩

end TypedBox

end ObjectStore
