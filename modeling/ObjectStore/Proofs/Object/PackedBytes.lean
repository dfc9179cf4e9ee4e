import Mathlib
import ObjectStore.Proofs.Except
import ObjectStore.Proofs.Object.RoundTrip

/-!
# The bytes that builders deliver

`Builder.Worked` says which builders there can be: a new one on which calls were made, in any order,
over any number of resets, with any tickets, and also if they failed.  The bytes of such a builder
are the encoding of the object that was started last, with the fields that were added since
(`Builder.Worked.packed`).

Main statement: `packed_bytes_canonical`, two objects have the same bytes exactly if they have the
same ID and the same fields.
-/

namespace ObjectStore

namespace Builder

/-- What calls make of a new builder.  The ID is that of the object that was started last, and the
fields are those that were added since; before the first start there is no such ID, and any one
stands for it. -/
inductive Worked : ObjectId → List (Slot × Value) → Builder → Prop
  | new (id : ObjectId) : Worked id [] Builder.new
  | start {id id' : ObjectId} {fields : List (Slot × Value)} {b b' : Builder}
      (h : Worked id fields b) (hstart : b.start id' = .ok b') : Worked id' [] b'
  | add {id : ObjectId} {fields : List (Slot × Value)} {b b' : Builder} {slot : Slot} {value : Value}
      (h : Worked id fields b) (hadd : b.add slot value = .ok b') :
      Worked id (fields ++ [(slot, value)]) b'
  | complete {id : ObjectId} {fields : List (Slot × Value)} {b : Builder} (h : Worked id fields b) :
      Worked id fields (completeInPlace.left b)
  | pack {id : ObjectId} {fields : List (Slot × Value)} {b : Builder} (h : Worked id fields b)
      (ticket : Ticket) : Worked id fields ((packInPlace ticket).left b)
  | reset {id : ObjectId} {fields : List (Slot × Value)} {b : Builder} (h : Worked id fields b) :
      Worked id fields b.reset

/-- A call that succeeds leaves the builder that it returns. -/
theorem left_of_result {α : Type} {x : BuilderStep α} {a : α} {b b' : Builder}
    (h : x.result b = .ok (a, b')) : x.left b = b' := by
  unfold BuilderStep.result at h
  unfold BuilderStep.left
  split at h
  · cases h
    rfl
  · cases h

/-- A builder is at work on this object, or has none. -/
def WorksOn (o : Object) (b : Builder) : Prop :=
  match b.state with
  | .idle => True
  | .filling object => object = o
  | .complete object => object = o
  | .packed bytes => bytes = o.encode

variable {o : Object} {b b' : Builder} {id id' : ObjectId} {fields fields' : List (Slot × Value)}
  {bytes bytes' : Bytes}

/-- A start takes a new object. -/
theorem worksOn_start (h : b.start id = .ok b') : b'.WorksOn ⟨id, ∅⟩ := by
  unfold start at h
  split at h
  · cases h
    rfl
  · cases h

/-- A slot is added that the object did not have. -/
theorem WorksOn.add (hb : b.WorksOn o) {slot : Slot} {value : Value}
    (h : b.add slot value = .ok b') :
    o.fields.contains slot = false ∧
      b'.WorksOn { o with fields := o.fields.insert slot value } := by
  unfold WorksOn at hb
  unfold Builder.add at h
  split at h
  · rename_i object hstate
    rw [hstate] at hb
    obtain rfl : object = o := hb
    split at h
    · cases h
    · rename_i hfree
      cases h
      exact ⟨Bool.eq_false_iff.2 hfree, rfl⟩
  · cases h

theorem WorksOn.complete (hb : b.WorksOn o) : (completeInPlace.left b).WorksOn o := by
  cases h : b.complete with
  | error e =>
    rw [left_complete h]
    exact hb
  | ok r =>
    have hresult : completeInPlace.result b = .ok (r.1, r.2) := h
    rw [left_of_result hresult]
    unfold WorksOn at hb
    rw [complete_eq] at h
    split at h
    · rename_i object hstate
      rw [hstate] at hb
      cases h
      exact hb
    · cases h

theorem WorksOn.pack (hb : b.WorksOn o) (ticket : Ticket) :
    ((packInPlace ticket).left b).WorksOn o := by
  cases h : b.pack ticket with
  | error e =>
    rw [left_pack h]
    exact hb
  | ok packed =>
    obtain ⟨⟨_, left⟩, hresult, rfl⟩ := map_eq_ok.1 h
    rw [left_of_result hresult]
    unfold WorksOn at hb
    rw [pack_eq] at h
    split at h
    · cases h
    · split at h
      · rename_i object hstate
        rw [hstate] at hb
        obtain rfl : object = o := hb
        cases h
        rfl
      · cases h

namespace Worked

/-- **A builder is at work on the object that was started last**, with the fields that were added
since, which have different slots. -/
theorem worksOn (h : Worked id fields b) :
    (fields.map Prod.fst).Nodup ∧ b.WorksOn ⟨id, .ofList fields⟩ := by
  induction h with
  | new id => exact ⟨List.nodup_nil, trivial⟩
  | start _ hstart ih => exact ⟨List.nodup_nil, worksOn_start hstart⟩
  | add _ hadd ih =>
    rename_i id fields b b' slot value _
    obtain ⟨hslots, hb⟩ := ih
    obtain ⟨hfree, hb'⟩ := hb.add hadd
    have hnew : slot ∉ fields.map Prod.fst := by
      intro hmem
      obtain ⟨⟨_, value'⟩, hf, rfl⟩ := List.mem_map.1 hmem
      rw [SortedMap.contains, (SortedMap.get?_ofList hslots).2 hf] at hfree
      cases hfree
    refine ⟨?_, ?_⟩
    · rw [List.map_append, List.map_singleton]
      exact List.Nodup.append hslots (List.nodup_singleton _) (by simpa using hnew)
    · rw [SortedMap.ofList, List.foldl_concat]
      exact hb'
  | complete _ ih => exact ⟨ih.1, ih.2.complete⟩
  | pack _ ticket ih => exact ⟨ih.1, ih.2.pack ticket⟩
  | reset _ ih => exact ⟨ih.1, trivial⟩

/-- **The bytes that a builder delivers** are the encoding of that object. -/
theorem packed (h : Worked id fields b) (hbytes : b.packedBytes = .ok bytes) :
    (fields.map Prod.fst).Nodup ∧ bytes = (Object.mk id (.ofList fields)).encode := by
  obtain ⟨hslots, hb⟩ := h.worksOn
  refine ⟨hslots, ?_⟩
  unfold WorksOn at hb
  unfold packedBytes at hbytes
  split at hbytes
  · rename_i hstate
    rw [hstate] at hb
    cases hbytes
    exact hb
  · cases hbytes

end Worked

end Builder

/-! ## The canonical form -/

namespace Object

variable {id : ObjectId} {fields : List (Slot × Value)} {o o' : Object}

/-- An object is made of values that a head can spell if its fields hold such values. -/
theorem fits_ofList (hslots : (fields.map Prod.fst).Nodup) (hfits : ∀ f ∈ fields, f.2.Fits) :
    (Object.mk id (.ofList fields)).Fits := by
  rintro ⟨slot, value⟩ hf
  have hmem := SortedMap.mem_entries_iff.1 hf
  exact hfits (slot, value) ((SortedMap.get?_ofList hslots).1 hmem)

/-- **No two objects have the same bytes.** -/
theorem encode_inj (h : o.Fits) (h' : o'.Fits) : o.encode = o'.encode ↔ o = o' := by
  constructor
  · intro heq
    have hdecode := decode_encode h []
    rw [heq, decode_encode h' []] at hdecode
    exact (Except.ok.inj hdecode).symm
  · rintro rfl
    rfl

end Object

/-- **Packed bytes are a canonical form.**  Two objects that were built, with one builder or with
two, new or reset, and with their fields added in any order, have the same bytes exactly if their IDs
are the same and their fields are; numbers in binary format are the same if all their bits are. -/
theorem packed_bytes_canonical {b b' : Builder} {id id' : ObjectId}
    {fields fields' : List (Slot × Value)} {bytes bytes' : Bytes} (h : b.Worked id fields)
    (h' : b'.Worked id' fields') (hbytes : b.packedBytes = .ok bytes)
    (hbytes' : b'.packedBytes = .ok bytes') (hfits : ∀ f ∈ fields, f.2.Fits)
    (hfits' : ∀ f ∈ fields', f.2.Fits) :
    bytes = bytes' ↔ id = id' ∧ ∀ f, f ∈ fields ↔ f ∈ fields' := by
  obtain ⟨hslots, rfl⟩ := h.packed hbytes
  obtain ⟨hslots', rfl⟩ := h'.packed hbytes'
  rw [Object.encode_inj (Object.fits_ofList hslots hfits) (Object.fits_ofList hslots' hfits'),
    Object.mk.injEq, SortedMap.ofList_eq_ofList_iff hslots hslots']

/-- A builder packs an object, is reset, and packs it again with its fields in the other order. -/
theorem packed_bytes_canonical_otherOrder :
    ∃ (b b' : Builder) (bytes bytes' : Bytes),
      b.Worked 7 [(2, .float 0x7FF0000000000001), (1, .null)] ∧
        b'.Worked 7 [(1, .null), (2, .float 0x7FF0000000000001)] ∧ b.packedBytes = .ok bytes ∧
        b'.packedBytes = .ok bytes' ∧ bytes = bytes' := by
  have h : Builder.Worked 7 [(2, .float 0x7FF0000000000001), (1, .null)] _ :=
    .pack (.complete (.add (.add (.start (.new 0) rfl) rfl) rfl)) ⟨0⟩
  have h' : Builder.Worked 7 [(1, .null), (2, .float 0x7FF0000000000001)] _ :=
    .pack (.complete (.add (.add (.start h.reset rfl) rfl) rfl)) ⟨1⟩
  refine ⟨_, _, _, _, h, h', rfl, rfl, ?_⟩
  refine (packed_bytes_canonical h h' rfl rfl (by decide) (by decide)).2 ⟨rfl, ?_⟩
  intro f
  simp only [List.mem_cons, List.not_mem_nil, or_false]
  exact or_comm

end ObjectStore
