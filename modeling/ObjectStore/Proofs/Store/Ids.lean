import Mathlib
import ObjectStore.Proofs.Store.Effects

/-!
# Issued IDs

A type issues the ID after its last one, or the ID that a caller brings along, and keeps the largest
(`EntityType.issue_spec`).  `Store.lastId` is the last ID of a type in a store; registering a type
leaves it alone (`Store.register_spec`), and issuing an ID moves that of one type
(`Store.issueId_spec`).
-/

namespace ObjectStore

theorem toNat_highestId : highestId.toNat = 2 ^ 64 - 2 := rfl

theorem toNat_max (a b : UInt64) : (max a b).toNat = max a.toNat b.toNat := by
  show (if a ≤ b then b else a).toNat = max a.toNat b.toNat
  split
  · rename_i h
    rw [UInt64.le_iff_toNat_le] at h
    omega
  · rename_i h
    rw [UInt64.le_iff_toNat_le] at h
    omega

/-- IDs that objects can have and bytes that are not none pass the rules for puts. -/
theorem checkPut_eq_ok {id : ObjectId} {data : Bytes} (hzero : id ≠ 0) (hid : id ≤ highestId)
    (hdata : data ≠ []) : checkPut id data = .ok () := by
  have hvalid : ¬ (id = 0 ∨ highestId < id) := by
    rw [UInt64.le_iff_toNat_le] at hid
    rw [UInt64.lt_iff_toNat_lt]
    rintro (h | h)
    · exact hzero h
    · omega
  rw [checkPut, if_neg hvalid, if_neg hdata]

/-! ## One type -/

/-- The ID for a put, or the status of the failure, where `last` is the last ID. -/
def nextId (last candidate : ObjectId) : Except Status ObjectId :=
  if candidate = 0 then if last = highestId then .error .illegalState else .ok (last + 1)
  else if candidate ≤ highestId then .ok candidate
  else .error .illegalArgument

namespace EntityType

variable {t t' : EntityType} {candidate id : ObjectId}

/-- **A type issues** the next ID or the given one. -/
theorem issue_fst (hlast : t.lastId ≤ highestId) (candidate : ObjectId) :
    ((t.issue candidate).map Prod.fst).mapError StoreError.status = nextId t.lastId candidate := by
  rw [UInt64.le_iff_toNat_le] at hlast
  unfold issue nextId
  by_cases hzero : candidate = 0
  · rw [if_pos hzero, if_pos hzero]
    by_cases hroom : t.lastId < highestId
    · have hne : t.lastId ≠ highestId := by
        rintro heq
        rw [heq, UInt64.lt_iff_toNat_lt] at hroom
        omega
      rw [if_pos hroom, if_neg hne]
      rfl
    · have heq : t.lastId = highestId := by
        rw [UInt64.lt_iff_toNat_lt] at hroom
        exact UInt64.toNat_inj.1 (by omega)
      rw [if_neg hroom, if_pos heq]
      rfl
  · rw [if_neg hzero, if_neg hzero]
    by_cases hreserved : highestId < candidate
    · have hnot : ¬ candidate ≤ highestId := by
        rw [UInt64.lt_iff_toNat_lt] at hreserved
        rw [UInt64.le_iff_toNat_le]
        omega
      rw [if_pos hreserved, if_neg hnot]
      rfl
    · have hle : candidate ≤ highestId := by
        rw [UInt64.lt_iff_toNat_lt] at hreserved
        rw [UInt64.le_iff_toNat_le]
        omega
      rw [if_neg hreserved, if_pos hle]
      rfl

/-- **What was issued** is the largest ID from then on. -/
theorem issue_spec (hlast : t.lastId ≤ highestId) (h : t.issue candidate = .ok (id, t')) :
    t'.name = t.name ∧ t'.lastId = max t.lastId id ∧ id ≠ 0 ∧ id ≤ highestId ∧
      (candidate = 0 → id.toNat = t.lastId.toNat + 1) ∧ (candidate ≠ 0 → id = candidate) := by
  have htop := toNat_highestId
  rw [UInt64.le_iff_toNat_le] at hlast
  unfold issue at h
  split at h
  · rename_i hzero
    split at h
    · rename_i hroom
      cases h
      rw [UInt64.lt_iff_toNat_lt] at hroom
      have hnext : (t.lastId + 1).toNat = t.lastId.toNat + 1 := by
        rw [UInt64.toNat_add, UInt64.toNat_one]
        omega
      -- as there is room, the successor does not wrap around
      refine ⟨rfl, ?_, ?_, ?_, fun _ => hnext, fun h => absurd hzero h⟩
      · show t.lastId + 1 = max t.lastId (t.lastId + 1)
        rw [← UInt64.toNat_inj, toNat_max, hnext]
        omega
      · rw [Ne, ← UInt64.toNat_inj, hnext]
        exact Nat.succ_ne_zero _
      · rw [UInt64.le_iff_toNat_le, hnext]
        omega
    · cases h
  · rename_i hzero
    split at h
    · cases h
    · rename_i hreserved
      cases h
      rw [UInt64.lt_iff_toNat_lt] at hreserved
      refine ⟨rfl, ?_, hzero, ?_, fun h => absurd h hzero, fun _ => rfl⟩
      · show (if t.lastId < candidate then candidate else t.lastId) = max t.lastId candidate
        rw [← UInt64.toNat_inj, toNat_max]
        split
        · rename_i hlt
          rw [UInt64.lt_iff_toNat_lt] at hlt
          omega
        · rename_i hlt
          rw [UInt64.lt_iff_toNat_lt] at hlt
          omega
      · rw [UInt64.le_iff_toNat_le]
        omega

end EntityType

/-! ## Stores -/

namespace Store

variable {s s' : Store} {type other : TypeId}

/-- The last ID of a type, zero for one that is not registered. -/
def lastId (s : Store) (type : TypeId) : ObjectId :=
  match s.types.get? type with
  | some t => t.lastId
  | none => 0

theorem lastId_of_get? {t : EntityType} (h : s.types.get? type = some t) :
    s.lastId type = t.lastId := by
  rw [lastId, h]

/-- The last IDs are those of the registered types. -/
theorem lastId_congr (h : s'.types = s.types) (type : TypeId) : s'.lastId type = s.lastId type := by
  rw [lastId, lastId, h]

/-- Whether a type is registered. -/
def Registered (s : Store) (type : TypeId) : Prop := ∃ t, s.types.get? type = some t

/-- The last IDs where one type has changed or is new. -/
theorem lastId_insert (s : Store) (type other : TypeId) (t : EntityType) :
    lastId { s with types := s.types.insert type t } other
      = if other = type then t.lastId else s.lastId other := by
  unfold lastId
  dsimp only
  rw [SortedMap.get?_insert]
  by_cases h : other = type
  · rw [if_pos h, if_pos h]
  · rw [if_neg h, if_neg h]

theorem registered_insert {t : EntityType} (h : s.Registered other) :
    Registered { s with types := s.types.insert type t } other := by
  obtain ⟨u, hu⟩ := h
  unfold Registered
  dsimp only
  rw [SortedMap.get?_insert]
  split
  · exact ⟨t, rfl⟩
  · exact ⟨u, hu⟩

/-- **Registering a type**, for the first time or again, moves no last ID and takes no type away. -/
theorem register_spec {name : String} (h : s.register type name = .ok s') :
    (∀ other, s'.lastId other = s.lastId other) ∧
      (∀ other, s.Registered other → s'.Registered other) := by
  simp only [register, bind_eq_ok] at h
  obtain ⟨_, -, h⟩ := h
  split at h
  · cases h
  split at h
  · cases h
  cases ht : s.types.get? type with
  | none =>
    simp only [ht] at h
    cases h
    refine ⟨fun other => ?_, fun other => registered_insert⟩
    rw [lastId_insert]
    split
    · rename_i heq
      rw [heq, lastId, ht]
      rfl
    · rfl
  | some known =>
    simp only [ht] at h
    split at h
    · cases h
      exact ⟨fun _ => rfl, fun _ => id⟩
    · cases h

/-- **Issuing an ID** moves the last ID of its type and no other, and takes no type away. -/
theorem issueId_spec {candidate id : ObjectId} (hlast : s.lastId type ≤ highestId)
    (h : s.issueId type candidate = .ok (id, s')) :
    s'.lastId type = max (s.lastId type) id ∧
      (∀ other, other ≠ type → s'.lastId other = s.lastId other) ∧
      (∀ other, s.Registered other → s'.Registered other) ∧ id ≠ 0 ∧ id ≤ highestId ∧
      (candidate = 0 → id.toNat = (s.lastId type).toNat + 1) := by
  obtain ⟨-, t, t', ht, hissue, rfl⟩ := issueId_eq_ok.1 h
  rw [lastId_of_get? ht] at hlast ⊢
  obtain ⟨-, hmax, hne, hle, hnext, -⟩ := EntityType.issue_spec hlast hissue
  refine ⟨?_, fun other hother => ?_, fun other => registered_insert, hne, hle, hnext⟩
  · rw [lastId_insert, if_pos rfl, hmax]
  · rw [lastId_insert, if_neg hother]

/-- **The answer to a request for an ID** of a registered type, with the status of a failure. -/
theorem issueId_fst (hopen : s.closed = false) (htype : s.Registered type)
    (hlast : s.lastId type ≤ highestId) (candidate : ObjectId) :
    ((s.issueId type candidate).map Prod.fst).mapError StoreError.status
      = nextId (s.lastId type) candidate := by
  obtain ⟨t, ht⟩ := htype
  rw [lastId_of_get? ht] at hlast ⊢
  rw [← EntityType.issue_fst hlast candidate]
  unfold issueId requireOpen findType
  rw [hopen, ht]
  simp only [bind, Except.bind, Bool.false_eq_true, if_false]
  cases t.issue candidate <;> rfl

end Store

end ObjectStore
