import Mathlib
import ObjectStore.Proofs.Object.BuilderCalls
import ObjectStore.Proofs.Cbor.Item
import ObjectStore.Proofs.SortedMap

/-!
# Objects read back

An object is read back from its bytes as it was (`Object.decode_encode`), and a builder makes the
object that it was told to make (`Builder.make_object`).  Together they say that what is packed is
what is read (`packed_object_decodes`), whatever the values are and in whatever order the fields are
added.
-/

namespace ObjectStore

/-! ## Values -/

namespace Value

/-- Texts and bytes whose length a head can spell; the other values always fit. -/
def Fits : Value → Prop
  | text s => (Utf8.encode s.toList).length < 2 ^ 64
  | bytes bs => bs.length < 2 ^ 64
  | _ => True

instance (v : Value) : Decidable v.Fits := by
  cases v <;> (unfold Fits; infer_instance)

/-- The item that a value is written as. -/
def toItem : Value → Cbor.Item
  | null => .null
  | bool b => .bool b
  | int n => .int n.toInt
  | float bits => .float bits.toNat
  | text s => .text s.toList
  | bytes bs => .bytes bs

/-- A value is taken from its item as it was. -/
theorem ofItem?_toItem (v : Value) : ofItem? v.toItem = some v := by
  cases v with
  | int n =>
    have hrange : -0x8000000000000000 ≤ n.toInt ∧ n.toInt < 0x8000000000000000 :=
      ⟨n.le_toInt, n.toInt_lt⟩
    simp only [toItem, ofItem?, hrange, and_self, if_true, Int64.ofInt_toInt]
  | float bits => simp [toItem, ofItem?]
  | text s => simp [toItem, ofItem?]
  | _ => rfl

open Cbor in
/-- An integer is spelled by its encoding, on either side of zero. -/
theorem spells_encodeInt {fuel : Nat} {inner : Except ReadError (BodyReader Item)} {n : Int}
    (hlower : -2 ^ 64 ≤ n) (hupper : n < 2 ^ 64) :
    Spells (readWith fuel inner) (encodeInt n) (.int n) := by
  rw [encodeInt]
  split
  · have hnat : ((n.toNat : Nat) : Int) = n := by omega
    have hspells : Spells (readWith fuel inner) (Head.unsigned n.toNat).write (.int n.toNat) :=
      .unsigned (by omega)
    rwa [hnat] at hspells
  · have hnat : (-1 - ((-1 - n).toNat : Nat) : Int) = n := by omega
    have hspells : Spells (readWith fuel inner) (Head.negative (-1 - n).toNat).write
        (.int (-1 - (-1 - n).toNat)) := .negative (by omega)
    rwa [hnat] at hspells

open Cbor in
/-- **A value is spelled by its encoding.** -/
theorem spells_encode {v : Value} (hv : v.Fits) (fuel : Nat)
    (inner : Except ReadError (BodyReader Item)) :
    Spells (readWith fuel inner) v.encode v.toItem := by
  cases v with
  | null => exact Spells.simple (n := 22) (by omega) rfl
  | bool b =>
    cases b with
    | false => exact Spells.simple (n := 20) (by omega) rfl
    | true => exact Spells.simple (n := 21) (by omega) rfl
  | int n =>
    have hlower := n.le_toInt
    have hupper := n.toInt_lt
    exact spells_encodeInt (by omega) (by omega)
  | float bits => exact .float bits.toNat_lt
  | text s => exact .text hv
  | bytes bs => exact .bytes hv

end Value

/-! ## Objects -/

namespace Object

/-- Objects whose values a head can spell. -/
def Fits (o : Object) : Prop := ∀ f ∈ o.fields.entries, f.2.Fits

/-- The pair of items that a field is written as. -/
def fieldItem (field : Slot × Value) : Cbor.Item × Cbor.Item :=
  (.int field.1.toNat, field.2.toItem)

/-- There are no more slots than numbers of 16 bits. -/
theorem length_slots_le {slots : List Slot} (h : slots.Nodup) : slots.length ≤ 2 ^ 16 := by
  have hnodup : (slots.map UInt16.toNat).Nodup := h.map fun _ _ => UInt16.toNat_inj.1
  have hsub : slots.map UInt16.toNat ⊆ List.range (2 ^ 16) := by
    intro n hn
    obtain ⟨slot, -, rfl⟩ := List.mem_map.1 hn
    exact List.mem_range.2 slot.toNat_lt
  have hlength := (hnodup.subperm hsub).length_le
  rwa [List.length_map, List.length_range] at hlength

/-- There are no more fields than slots. -/
theorem size_fields_le (fields : SortedMap Slot Value) : fields.size ≤ 2 ^ 16 := by
  have hlength := length_slots_le fields.nodup_keys
  rwa [List.length_map] at hlength

section Bytes

open Cbor

/-- A field is spelled by its encoding. -/
theorem spells_encodeField {field : Slot × Value} (h : field.2.Fits) (fuel : Nat)
    (inner : Except ReadError (BodyReader Item)) :
    Spells (readPair (readWith fuel inner)) (encodeField field) (fieldItem field) := by
  have hslot : field.1.toNat < 2 ^ 64 := by
    have := field.1.toNat_lt
    omega
  exact .pair (.unsigned hslot) (Value.spells_encode h fuel inner)

/-- The fields are spelled by their number and their encodings. -/
theorem spells_fields {o : Object} (h : o.Fits) (fuel depth : Nat) :
    Spells (readBody fuel (depth + 1))
      ((Head.map (some o.fields.size)).write ++ o.fields.entries.flatMap encodeField)
      (.map (o.fields.entries.map fieldItem)) := by
  have hsize : o.fields.entries.length < 2 ^ 64 := by
    have := size_fields_le o.fields
    have hlength : o.fields.entries.length = o.fields.size := rfl
    omega
  refine Spells.map hsize fun f hf => ?_
  -- the values hold no further items, so it does not matter whether more depth is left
  cases depth with
  | zero => exact spells_encodeField (h f hf) fuel _
  | succ depth => exact spells_encodeField (h f hf) fuel _

/-- **An object is spelled by its encoding.** -/
theorem spells_encode {o : Object} (h : o.Fits) (fuel depth : Nat) :
    Spells (readBody fuel (depth + 2)) o.encode
      (.array [.int o.id.toNat, .map (o.fields.entries.map fieldItem)]) := by
  have hparts : ∀ part ∈ [((Head.unsigned o.id.toNat).write, Item.int o.id.toNat),
      ((Head.map (some o.fields.size)).write ++ o.fields.entries.flatMap encodeField,
        Item.map (o.fields.entries.map fieldItem))],
      Spells (readBody fuel (depth + 1)) part.1 part.2 := by
    intro part hpart
    simp only [List.mem_cons, List.not_mem_nil, or_false] at hpart
    rcases hpart with rfl | rfl
    · exact .unsigned o.id.toNat_lt
    · exact spells_fields h fuel depth
  have hspells : Spells (readWith fuel (.ok (readBody fuel (depth + 1)))) _ _ :=
    .array (by simp) hparts
  simp only [List.length_cons, List.length_nil, List.flatMap_cons, List.flatMap_nil,
    List.append_nil, List.map_cons, List.map_nil] at hspells
  exact hspells

end Bytes

/-- A slot is taken from its item. -/
theorem slotOfItem_toNat (slot : Slot) : slotOfItem (.int slot.toNat) = .ok slot := by
  have hrange : (0 : Int) ≤ slot.toNat ∧ (slot.toNat : Int) < 0x10000 := by
    have := slot.toNat_lt
    omega
  rw [slotOfItem, if_pos hrange]
  simp

/-- An ID is taken from its item. -/
theorem idOfItem_toNat (id : ObjectId) : idOfItem (.int id.toNat) = .ok id := by
  have hrange : (0 : Int) ≤ id.toNat ∧ (id.toNat : Int) < 0x10000000000000000 := by
    have := id.toNat_lt
    omega
  rw [idOfItem, if_pos hrange]
  simp

/-- An entry is added if its slot is one, its value is one, and the slot is new. -/
theorem addEntry_eq_ok {fields : SortedMap Slot Value} {entry : Cbor.Item × Cbor.Item} {slot : Slot}
    {value : Value} (hslot : slotOfItem entry.1 = .ok slot)
    (hvalue : Value.ofItem? entry.2 = some value) (hnew : fields.get? slot = none) :
    addEntry fields entry = .ok (fields.insert slot value) := by
  have hfree : fields.contains slot = false := by
    rw [SortedMap.contains, hnew]
    rfl
  simp only [addEntry, hslot, hvalue, hfree, bind, Except.bind, Bool.false_eq_true, if_false, pure,
    Except.pure]

/-- Fields with pairwise distinct slots are taken from their items. -/
theorem foldlM_addEntry_ofList {fields : List (Slot × Value)}
    (hslots : (fields.map Prod.fst).Nodup) :
    (fields.map fieldItem).foldlM addEntry ∅ = .ok (.ofList fields) := by
  have hadd : ∀ (m : SortedMap Slot Value) (f : Slot × Value), m.get? f.1 = none →
      addEntry m (fieldItem f) = .ok (m.insert f.1 f.2) := fun m f hnew =>
    addEntry_eq_ok (slotOfItem_toNat f.1) (Value.ofItem?_toItem f.2) hnew
  rw [List.foldlM_map]
  exact SortedMap.foldlM_insert (fun m => m) hadd hslots ∅ fun _ _ => rfl

/-- The fields are taken from their items. -/
theorem foldlM_addEntry (fields : SortedMap Slot Value) :
    (fields.entries.map fieldItem).foldlM addEntry ∅ = .ok fields := by
  rw [foldlM_addEntry_ofList fields.nodup_keys, SortedMap.ofList_entries]

/-- An object is taken from the items of its ID and of its fields. -/
theorem ofItem_eq_ok {first : Cbor.Item} {entries : List (Cbor.Item × Cbor.Item)} {o : Object}
    (hid : idOfItem first = .ok o.id) (hfields : entries.foldlM addEntry ∅ = .ok o.fields) :
    ofItem (.array [first, .map entries]) = .ok o := by
  simp only [ofItem, hid, hfields, bind, Except.bind, pure, Except.pure]

/-- **An object is read back from its bytes**, whatever follows them. -/
theorem decode_encode {o : Object} (h : o.Fits) (rest : Bytes) :
    decode (o.encode ++ rest) = .ok o := by
  have hitem := Cbor.Spells.decode (fun fuel => spells_encode h fuel 254) rest
  rw [decode, hitem]
  exact ofItem_eq_ok (idOfItem_toNat o.id) (foldlM_addEntry o.fields)

end Object

/-! ## Builders -/

namespace Builder

/-- Adds fields one after the other. -/
def addAll (b : Builder) (fields : List (Slot × Value)) : Except ObjectError Builder :=
  fields.foldlM (fun b f => b.add f.1 f.2) b

/-- Fields with distinct slots are all added, in whatever order they come. -/
theorem addAll_filling (id : ObjectId) (generation : UInt64) {fields : List (Slot × Value)}
    (hslots : (fields.map Prod.fst).Nodup) :
    addAll ⟨.filling ⟨id, ∅⟩, generation⟩ fields
      = .ok ⟨.filling ⟨id, .ofList fields⟩, generation⟩ := by
  refine SortedMap.foldlM_insert (fun m => Builder.mk (.filling ⟨id, m⟩) generation) ?_ hslots ∅
    fun _ _ => rfl
  intro m f hnew
  have hfree : m.contains f.1 = false := by
    rw [SortedMap.contains, hnew]
    rfl
  simp only [add, hfree, Bool.false_eq_true, if_false]

/-- **An idle builder makes the object** that it is told to make, and delivers its bytes. -/
theorem make_object {b : Builder} (hidle : b.isIdle = true) (id : ObjectId)
    {fields : List (Slot × Value)} (hslots : (fields.map Prod.fst).Nodup) :
    ∃ started filled ticket completed packed,
      b.start id = .ok started ∧
        started.addAll fields = .ok filled ∧
        filled.complete = .ok (ticket, completed) ∧ completed.pack ticket = .ok packed ∧
        packed.packedBytes = .ok (Object.mk id (.ofList fields)).encode := by
  obtain ⟨state, generation⟩ := b
  cases state with
  | idle =>
    refine ⟨_, _, _, _, ⟨.packed (Object.mk id (.ofList fields)).encode, generation⟩, rfl,
      addAll_filling id generation hslots, rfl, ?_, rfl⟩
    rw [pack_eq, if_neg (not_not.2 rfl)]
  | filling object => cases hidle
  | complete object => cases hidle
  | packed bytes => cases hidle

end Builder

/-! ## The round trip -/

/-- **What is packed is what is read.**  An idle builder, new or reset, accepts any fields with
distinct slots in any order, whatever their values, and delivers bytes that decode to the object
with exactly these fields; numbers in binary format keep every bit. -/
theorem packed_object_decodes {b : Builder} (hidle : b.isIdle = true) (id : ObjectId)
    {fields : List (Slot × Value)} (hslots : (fields.map Prod.fst).Nodup)
    (hfits : ∀ f ∈ fields, f.2.Fits) :
    ∃ started filled ticket completed packed bytes object,
      b.start id = .ok started ∧
        started.addAll fields = .ok filled ∧
        filled.complete = .ok (ticket, completed) ∧ completed.pack ticket = .ok packed ∧
        packed.packedBytes = .ok bytes ∧ Object.decode bytes = .ok object ∧ object.id = id ∧
        ∀ slot value, object.fields.get? slot = some value ↔ (slot, value) ∈ fields := by
  obtain ⟨started, filled, ticket, completed, packed, hstart, hadd, hcomplete, hpack, hbytes⟩ :=
    Builder.make_object hidle id hslots
  have hobject : (Object.mk id (.ofList fields)).Fits := by
    rintro ⟨slot, value⟩ hf
    have hmem := SortedMap.mem_entries_iff.1 hf
    exact hfits (slot, value) ((SortedMap.get?_ofList hslots).1 hmem)
  have hdecode := Object.decode_encode hobject []
  rw [List.append_nil] at hdecode
  exact ⟨started, filled, ticket, completed, packed, _, _, hstart, hadd, hcomplete, hpack, hbytes,
    hdecode, rfl, fun slot value => SortedMap.get?_ofList hslots⟩

/-- Fields out of order, with a signalling NaN, a negative integer and a text beyond ASCII. -/
def mixedFields : List (Slot × Value) :=
  [(300, .int (-129)), (2, .float 0x7FF0000000000001), (65535, .text "é"), (0, .null)]

/-- The fields of `mixedFields` come back from a new builder. -/
theorem packed_object_decodes_mixedFields :
    ∃ started filled ticket completed packed bytes object,
      Builder.new.start 7 = .ok started ∧ started.addAll mixedFields = .ok filled ∧
        filled.complete = .ok (ticket, completed) ∧ completed.pack ticket = .ok packed ∧
        packed.packedBytes = .ok bytes ∧ Object.decode bytes = .ok object ∧ object.id = 7 ∧
        object.fields.get? 2 = some (.float 0x7FF0000000000001) ∧
        object.fields.get? 65535 = some (.text "é") ∧ object.fields.get? 1 = none := by
  have hidle : Builder.new.isIdle = true := rfl
  have hslots : (mixedFields.map Prod.fst).Nodup := by decide
  have hfits : ∀ f ∈ mixedFields, f.2.Fits := by decide +kernel
  obtain ⟨started, filled, ticket, completed, packed, bytes, object, hstart, hadd, hcomplete, hpack,
    hbytes, hdecode, hid, hfields⟩ := packed_object_decodes hidle 7 hslots hfits
  refine ⟨started, filled, ticket, completed, packed, bytes, object, hstart, hadd, hcomplete, hpack,
    hbytes, hdecode, hid, (hfields _ _).2 (by decide), (hfields _ _).2 (by decide), ?_⟩
  refine Option.eq_none_iff_forall_ne_some.2 fun value hvalue => ?_
  have hmem := (hfields 1 value).1 hvalue
  simp [mixedFields] at hmem

end ObjectStore
