import Mathlib
import ObjectStore.Proofs.Object.Grammar

/-!
# Entries at fault

The fields of an object are read from the entries of a map, one after the other.  `Object.Fault` lists
what can be wrong with an entry that stands behind others: its key is no slot, its value is none that
fields hold, or, where both are in order, the slot was there before.

Main statement: `reading_drops_no_field`.  Entries without a fault all become fields, one field for
each entry; otherwise the first entry with a fault decides the error.
-/

namespace ObjectStore

open Cbor

namespace Object

/-! ## Entries in order -/

/-- An item that a field can hold.  Integers have 64 signed bits. -/
inductive Scalar : Item → Prop
  | null : Scalar .null
  | bool (b : Bool) : Scalar (.bool b)
  | int {n : Int} (hlower : -0x8000000000000000 ≤ n) (hupper : n < 0x8000000000000000) :
      Scalar (.int n)
  | float (bits : Nat) : Scalar (.float bits)
  | text (cs : List Char) : Scalar (.text cs)
  | bytes (bs : Bytes) : Scalar (.bytes bs)

/-- Entries that are read without a fault: every key is a slot, every value is one that fields hold,
and no slot occurs twice. -/
structure Readable (entries : List (Item × Item)) : Prop where
  slots : ∀ entry ∈ entries, ∃ n : Int, entry.1 = .int n ∧ 0 ≤ n ∧ n < 0x10000
  values : ∀ entry ∈ entries, Scalar entry.2
  distinct : (entries.map Prod.fst).Nodup

/-- What is wrong with an entry that stands behind the entries `earlier`.  Only an entry with a slot
and a value can repeat a slot.  An integer beyond 64 bits is no integer item. -/
inductive Fault (earlier : List (Item × Item)) : Item × Item → ObjectError → Prop
  | slotNotInteger {key value : Item} (hkey : ∀ n, key ≠ .int n) :
      Fault earlier (key, value) (.invalidStructure .slotNotInteger)
  | slotOutOfRange {n : Int} {value : Item} (hkey : ¬ (0 ≤ n ∧ n < 0x10000)) :
      Fault earlier (.int n, value) (.invalidStructure .slotOutOfRange)
  | unsupportedValue {slot : Slot} {value : Item} (hvalue : ¬ Scalar value) :
      Fault earlier (.int slot.toNat, value) (.invalidStructure (.unsupportedValue slot))
  | repeated {slot : Slot} {value : Item} (hvalue : Scalar value)
      (hslot : .int slot.toNat ∈ earlier.map Prod.fst) :
      Fault earlier (.int slot.toNat, value) (.duplicateSlot slot)

/-- The items that fields hold are those that a value is taken from. -/
theorem scalar_iff {item : Item} : Scalar item ↔ ∃ value, Value.ofItem? item = some value := by
  constructor
  · rintro (_ | b | ⟨hlower, hupper⟩ | bits | cs | bs)
    · exact ⟨_, rfl⟩
    · exact ⟨_, rfl⟩
    · exact ⟨_, if_pos ⟨hlower, hupper⟩⟩
    · exact ⟨_, rfl⟩
    · exact ⟨_, rfl⟩
    · exact ⟨_, rfl⟩
  · rintro ⟨value, hvalue⟩
    cases item with
    | null => exact .null
    | bool b => exact .bool b
    | int n =>
      simp only [Value.ofItem?] at hvalue
      split at hvalue
      · rename_i hrange
        exact .int hrange.1 hrange.2
      · simp at hvalue
    | float bits => exact .float bits
    | text cs => exact .text cs
    | bytes bs => exact .bytes bs
    | _ => simp [Value.ofItem?] at hvalue

theorem ofItem?_eq_none_iff {item : Item} : Value.ofItem? item = none ↔ ¬ Scalar item := by
  rw [scalar_iff, ← Option.isSome_iff_exists, Bool.not_eq_true, Option.isSome_eq_false_iff,
    Option.isNone_iff_eq_none]

/-- A number in the range of slots is one. -/
theorem exists_slot {n : Int} (hlower : 0 ≤ n) (hupper : n < 0x10000) :
    ∃ slot : Slot, n = slot.toNat := by
  refine ⟨.ofNat n.toNat, ?_⟩
  rw [UInt16.toNat_ofNat_of_lt' (by simp only [UInt16.size]; omega)]
  omega

/-- Different slots are different items. -/
theorem item_slot_injective : Function.Injective fun slot : Slot => Item.int slot.toNat := by
  intro slot slot' h
  simpa [UInt16.toNat_inj] using h

/-- The keys of entries that stand for fields are the slots of these fields. -/
theorem keys_of_denotes {entries : List (Item × Item)} {fields : List (Slot × Value)}
    (h : List.Forall₂ Denotes entries fields) :
    entries.map Prod.fst = (fields.map Prod.fst).map fun slot => .int slot.toNat := by
  induction h with
  | nil => rfl
  | cons hfield _ ih =>
    rw [List.map_cons, List.map_cons, List.map_cons, ih, slotOfItem_eq_ok_iff.1 hfield.1]

/-- **The entries that are read without a fault** are those that stand for fields with pairwise
distinct slots. -/
theorem readable_iff {entries : List (Item × Item)} :
    Readable entries ↔
      ∃ fields, List.Forall₂ Denotes entries fields ∧ (fields.map Prod.fst).Nodup := by
  constructor
  · intro h
    have hfields : ∃ fields, List.Forall₂ Denotes entries fields := by
      have hslots := h.slots
      have hvalues := h.values
      clear h
      induction entries with
      | nil => exact ⟨[], .nil⟩
      | cons entry entries ih =>
        obtain ⟨n, hkey, hlower, hupper⟩ := hslots entry List.mem_cons_self
        obtain ⟨slot, rfl⟩ := exists_slot hlower hupper
        obtain ⟨value, hvalue⟩ := scalar_iff.1 (hvalues entry List.mem_cons_self)
        obtain ⟨fields, hfields⟩ := ih (fun e he => hslots e (List.mem_cons_of_mem entry he))
          (fun e he => hvalues e (List.mem_cons_of_mem entry he))
        exact ⟨(slot, value) :: fields, .cons ⟨slotOfItem_eq_ok_iff.2 hkey, hvalue⟩ hfields⟩
    obtain ⟨fields, hfields⟩ := hfields
    have hdistinct := h.distinct
    rw [keys_of_denotes hfields] at hdistinct
    exact ⟨fields, hfields, hdistinct.of_map⟩
  · rintro ⟨fields, hfields, hdistinct⟩
    have hentry : ∀ entry ∈ entries, ∃ field, Denotes entry field := by
      intro entry hmem
      obtain ⟨i, hi, rfl⟩ := List.mem_iff_getElem.1 hmem
      exact ⟨_, hfields.get hi (hfields.length_eq ▸ hi)⟩
    refine ⟨fun entry hmem => ?_, fun entry hmem => ?_, ?_⟩
    · obtain ⟨field, hslot, -⟩ := hentry entry hmem
      have hlt := field.1.toNat_lt
      exact ⟨field.1.toNat, slotOfItem_eq_ok_iff.1 hslot, by omega, by omega⟩
    · obtain ⟨field, -, hvalue⟩ := hentry entry hmem
      exact scalar_iff.2 ⟨field.2, hvalue⟩
    · rw [keys_of_denotes hfields]
      exact hdistinct.map item_slot_injective

/-! ## Reading entries -/

/-- A key is refused if it is no integer, or one that is no slot. -/
theorem slotOfItem_eq_error_iff {key : Item} {e : ObjectError} :
    slotOfItem key = .error e ↔
      (∀ n, key ≠ .int n) ∧ e = .invalidStructure .slotNotInteger ∨
      ∃ n, key = .int n ∧ ¬ (0 ≤ n ∧ n < 0x10000) ∧ e = .invalidStructure .slotOutOfRange := by
  constructor
  · intro h
    cases key with
    | int n =>
      simp only [slotOfItem] at h
      split at h
      · cases h
      · rename_i hrange
        exact .inr ⟨n, rfl, hrange, (Except.error.inj h).symm⟩
    | _ =>
      refine .inl ⟨fun n hkey => ?_, (Except.error.inj h).symm⟩
      cases hkey
  · rintro (⟨hkey, rfl⟩ | ⟨n, rfl, hrange, rfl⟩)
    · cases key with
      | int n => exact absurd rfl (hkey n)
      | _ => rfl
    · rw [slotOfItem, if_neg hrange]

/-- **An entry is refused** for what is wrong with it, where the slots so far are those of the entries
before it. -/
theorem addEntry_eq_error_iff {m : SortedMap Slot Value} {earlier : List (Item × Item)}
    (hm : ∀ slot : Slot, m.contains slot = true ↔ .int slot.toNat ∈ earlier.map Prod.fst)
    {entry : Item × Item} {e : ObjectError} :
    addEntry m entry = .error e ↔ Fault earlier entry e := by
  obtain ⟨key, value⟩ := entry
  rw [addEntry, bind_eq_error]
  constructor
  · rintro (hkey | ⟨slot, hslot, h⟩)
    · rcases slotOfItem_eq_error_iff.1 hkey with ⟨hnot, rfl⟩ | ⟨n, rfl, hrange, rfl⟩
      · exact .slotNotInteger hnot
      · exact .slotOutOfRange hrange
    · obtain rfl := slotOfItem_eq_ok_iff.1 hslot
      split at h
      · rename_i hvalue
        cases h
        exact .unsupportedValue (ofItem?_eq_none_iff.1 hvalue)
      · rename_i v hvalue
        split at h
        · rename_i hold
          cases h
          exact .repeated (scalar_iff.2 ⟨v, hvalue⟩) ((hm slot).1 hold)
        · cases h
  · rintro (⟨hkey⟩ | ⟨hrange⟩ | @⟨slot, _, hvalue⟩ | @⟨slot, _, hvalue, hslot⟩)
    · exact .inl (slotOfItem_eq_error_iff.2 (.inl ⟨hkey, rfl⟩))
    · exact .inl (slotOfItem_eq_error_iff.2 (.inr ⟨_, rfl, hrange, rfl⟩))
    · refine .inr ⟨slot, slotOfItem_toNat slot, ?_⟩
      rw [ofItem?_eq_none_iff.2 hvalue]
      rfl
    · obtain ⟨v, hv⟩ := scalar_iff.1 hvalue
      refine .inr ⟨slot, slotOfItem_toNat slot, ?_⟩
      simp only [hv, (hm slot).2 hslot, if_true]
      rfl

/-- **Entries become fields**, one for each, if they are readable. -/
theorem foldlM_addEntry_of_readable {entries : List (Item × Item)} (h : Readable entries) :
    ∃ m, entries.foldlM addEntry ∅ = .ok m ∧ m.size = entries.length ∧
      (∀ slot : Slot, m.contains slot = true ↔ .int slot.toNat ∈ entries.map Prod.fst) ∧
      ∀ entry ∈ entries, ∃ field, Denotes entry field ∧ m.get? field.1 = some field.2 := by
  obtain ⟨fields, hdenotes, hslots⟩ := readable_iff.1 h
  have hget : ∀ slot value, (SortedMap.ofList fields).get? slot = some value ↔
      (slot, value) ∈ fields := fun _ _ => SortedMap.get?_ofList hslots
  refine ⟨.ofList fields, foldlM_addEntry_eq_ok_iff.2 ⟨fields, hdenotes, hslots, ?_, rfl⟩, ?_,
    fun slot => ?_, fun entry hmem => ?_⟩
  · exact fun f _ => SortedMap.get?_empty f.1
  · exact (SortedMap.entries_perm hslots hget).length_eq.trans hdenotes.length_eq.symm
  · rw [keys_of_denotes hdenotes, List.mem_map_of_injective item_slot_injective,
      SortedMap.contains, Option.isSome_iff_exists]
    simp [hget]
  · obtain ⟨i, hi, rfl⟩ := List.mem_iff_getElem.1 hmem
    have hi' : i < fields.length := hdenotes.length_eq ▸ hi
    exact ⟨fields[i], hdenotes.get hi hi', (hget _ _).2 (List.getElem_mem hi')⟩

/-- Entries that are read have no fault. -/
theorem readable_of_foldlM_addEntry {entries : List (Item × Item)} {m : SortedMap Slot Value}
    (h : entries.foldlM addEntry ∅ = .ok m) : Readable entries := by
  obtain ⟨fields, hdenotes, hslots, -, -⟩ := foldlM_addEntry_eq_ok_iff.1 h
  exact readable_iff.2 ⟨fields, hdenotes, hslots⟩

/-- **The first entry with a fault decides the error.** -/
theorem foldlM_addEntry_eq_error_iff {entries : List (Item × Item)} {e : ObjectError} :
    entries.foldlM addEntry ∅ = .error e ↔ ∃ before entry after,
      entries = before ++ entry :: after ∧ Readable before ∧ Fault before entry e := by
  rw [foldlM_eq_error]
  constructor
  · rintro ⟨before, entry, after, m, hsplit, hbefore, hentry⟩
    have hreadable := readable_of_foldlM_addEntry hbefore
    obtain ⟨m', hm', -, hslots, -⟩ := foldlM_addEntry_of_readable hreadable
    obtain rfl : m' = m := Except.ok.inj (hm'.symm.trans hbefore)
    exact ⟨before, entry, after, hsplit, hreadable, (addEntry_eq_error_iff hslots).1 hentry⟩
  · rintro ⟨before, entry, after, hsplit, hreadable, hfault⟩
    obtain ⟨m, hbefore, -, hslots, -⟩ := foldlM_addEntry_of_readable hreadable
    exact ⟨before, entry, after, m, hsplit, hbefore, (addEntry_eq_error_iff hslots).2 hfault⟩

/-- What is decoded to an array of an ID and a map depends on the entries of the map alone. -/
theorem decode_of_pair {bs : Bytes} {id : ObjectId} {entries : List (Item × Item)}
    (hitem : Item.decode bs = .ok (.array [.int id.toNat, .map entries])) :
    decode bs = (entries.foldlM addEntry ∅).map (Object.mk id) := by
  rw [decode, hitem]
  cases hfields : entries.foldlM addEntry ∅ with
  | error e =>
    refine bind_eq_error.2 (.inr ⟨id, idOfItem_toNat id, ?_⟩)
    exact bind_eq_error.2 (.inl hfields)
  | ok m => exact ofItem_eq_ok (o := ⟨id, m⟩) (idOfItem_toNat id) hfields

end Object

open Object

/-- **No field is dropped or overwritten on reading.**  Bytes that are decoded to an array of an ID
and a map

* are an object exactly if every key of the map is a slot, every value is one that fields hold, and
  no slot occurs twice;
* then have as many fields as the map has entries, and every entry is found in its slot;
* otherwise are refused for the first entry in their order with a fault. -/
theorem reading_drops_no_field {bs : Bytes} {n : Int} {entries : List (Item × Item)}
    (hitem : Item.decode bs = .ok (.array [.int n, .map entries]))
    (hid : 0 ≤ n ∧ n < 0x10000000000000000) :
    ((∃ o, decode bs = .ok o) ↔ Readable entries) ∧
      (∀ o, decode bs = .ok o → o.id.toNat = n ∧ o.fields.size = entries.length ∧
        ∀ entry ∈ entries, ∃ (slot : Slot) (value : Value), entry.1 = .int slot.toNat ∧
          Value.ofItem? entry.2 = some value ∧ o.field slot = .ok value) ∧
      ∀ e, decode bs = .error e ↔ ∃ before entry after,
        entries = before ++ entry :: after ∧ Readable before ∧ Fault before entry e := by
  obtain ⟨id, rfl⟩ : ∃ id : ObjectId, n = id.toNat := by
    refine ⟨.ofNat n.toNat, ?_⟩
    rw [UInt64.toNat_ofNat_of_lt' (by simp only [UInt64.size]; omega)]
    omega
  have hdecode := decode_of_pair hitem
  refine ⟨⟨?_, fun hreadable => ?_⟩, ?_, fun e => ?_⟩
  · rintro ⟨o, ho⟩
    obtain ⟨m, hm, -⟩ := map_eq_ok.1 (hdecode.symm.trans ho)
    exact readable_of_foldlM_addEntry hm
  · obtain ⟨m, hm, -⟩ := foldlM_addEntry_of_readable hreadable
    exact ⟨⟨id, m⟩, by rw [hdecode, hm]; rfl⟩
  · intro o ho
    obtain ⟨m, hm, rfl⟩ := map_eq_ok.1 (hdecode.symm.trans ho)
    obtain ⟨m', hm', hsize, -, hfields⟩ :=
      foldlM_addEntry_of_readable (readable_of_foldlM_addEntry hm)
    obtain rfl : m' = m := Except.ok.inj (hm'.symm.trans hm)
    refine ⟨rfl, hsize, fun entry hmem => ?_⟩
    obtain ⟨⟨slot, value⟩, ⟨hslot, hvalue⟩, hget⟩ := hfields entry hmem
    refine ⟨slot, value, slotOfItem_eq_ok_iff.1 hslot, hvalue, ?_⟩
    simp [field, hget]
  · rw [← foldlM_addEntry_eq_error_iff, hdecode]
    cases entries.foldlM addEntry ∅ with
    | error e' => simp [Except.map]
    | ok m => simp [Except.map]

/-- The ID 7 with four entries.  The second has a value that a field holds in a slot that is new, the
third repeats the slot of the first in a wider head, and the last one has a text for a key. -/
def repeatedSlot : Bytes :=
  [0x82, 0x07, 0xA4, 0x05, 0xF7, 0x06, 0x20, 0x19, 0x00, 0x05, 0x01, 0x61, 0x78, 0x02]

def entriesRepeatedSlot : List (Item × Item) :=
  [(.int 5, .null), (.int 6, .int (-1)), (.int 5, .int 1), (.text ['x'], .int 2)]

theorem decode_repeatedSlot :
    Item.decode repeatedSlot = .ok (.array [.int 7, .map entriesRepeatedSlot]) := by
  with_unfolding_all rfl

/-- The third of the four entries is the first with a fault. -/
theorem reading_drops_no_field_repeatedSlot :
    Item.decode repeatedSlot = .ok (.array [.int 7, .map entriesRepeatedSlot]) ∧
      Readable (entriesRepeatedSlot.take 2) ∧ ¬ Readable entriesRepeatedSlot ∧
      decode repeatedSlot = .error (.duplicateSlot 5) := by
  obtain ⟨hreads, -, hfails⟩ := reading_drops_no_field decode_repeatedSlot (by decide)
  have hbefore : Readable (entriesRepeatedSlot.take 2) := by
    refine ⟨?_, ?_, ?_⟩
    · simp [entriesRepeatedSlot]
    · simpa [entriesRepeatedSlot] using ⟨Scalar.null, Scalar.int (by decide) (by decide)⟩
    · simp [entriesRepeatedSlot]
  have hrepeated : Fault (entriesRepeatedSlot.take 2) (.int (5 : Slot).toNat, .int 1)
      (.duplicateSlot 5) := .repeated (.int (by decide) (by decide)) List.mem_cons_self
  have herror := (hfails (.duplicateSlot 5)).2 ⟨_, _, _, rfl, hbefore, hrepeated⟩
  refine ⟨decode_repeatedSlot, hbefore, fun hreadable => ?_, herror⟩
  obtain ⟨o, ho⟩ := hreads.2 hreadable
  simp [herror] at ho

end ObjectStore
