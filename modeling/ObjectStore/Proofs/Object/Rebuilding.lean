import Mathlib
import ObjectStore.Proofs.Cbor.Shortest
import ObjectStore.Proofs.Object.Grammar
import ObjectStore.Proofs.Object.PackedBytes

/-!
# Objects that are built again

An object that was read can be given to a builder, which writes it in its own form.  That form is
not the shortest one for every object: there are integers and huge strings that a spelling may save
a byte or two on, and so may the map of the fields up to a break (`Object.Saving`).  Nothing else is
ever shorter than what the builder writes.

Main statement: `rebuilding_grows_little`.
-/

namespace ObjectStore

open Cbor

/-! ## What spellings save -/

/-- The bytes of a value, and how many bytes they may be shorter than its encoding. -/
inductive Value.Saving : Bytes → Value → Nat → Prop
  | null {bs : Bytes} (h : Value.Spelled bs .null) : Saving bs .null 0
  | bool {bs : Bytes} {b : Bool} (h : Value.Spelled bs (.bool b)) : Saving bs (.bool b) 0
  | int {bs : Bytes} {n : Int64} {saved : Nat} (h : IntegerSaving bs n.toInt saved) :
      Saving bs (.int n) saved
  | float {bs : Bytes} {bits : UInt64} (h : Floating bs bits.toNat) : Saving bs (.float bits) 0
  | text {bs : Bytes} {s : String} {saved : Nat} (h : StrSaving .text bs s.toList saved) :
      Saving bs (.text s) saved
  | bytes {bs xs : Bytes} {saved : Nat} (h : StrSaving .bytes bs xs saved) :
      Saving bs (.bytes xs) saved

/-- The bytes of a field, and how many bytes they may be shorter than its encoding; nothing is saved
on a slot. -/
def FieldSaving : Grammar ((Slot × Value) × Nat) := fun bs field =>
  ∃ p q, Integer p field.1.1.toNat ∧ Value.Saving q field.1.2 field.2 ∧ bs = p ++ q

/-- The bytes of a map of `count` fields, and how many bytes they may be shorter than with the number
in the shortest head: none if a head says the number, and up to a break, which takes two bytes with
its head, what the shortest head has beyond two. -/
inductive MapSaving (count : Nat) (content : Bytes) : Bytes → Nat → Prop
  | definite {head : Bytes} (h : Argument 5 head count) : MapSaving count content (head ++ content) 0
  | indefinite : MapSaving count content (opening 5 ++ (content ++ closing))
      ((Head.argument 5 count).length - 2)

/-- The bytes of an object, and how many bytes they may be shorter than its encoding. -/
inductive Object.Saving : Bytes → Object → Nat → Prop
  | intro {o : Object} {fields : List ((Slot × Value) × Nat)} {bs idBytes entries fieldBytes : Bytes}
      {idSaved mapSaved : Nat} (hid : IntegerSaving idBytes o.id.toNat idSaved)
      (hentries : Sequence FieldSaving entries fields)
      (hmap : MapSaving fields.length entries fieldBytes mapSaved)
      (hpair : Enclosed 4 2 (idBytes ++ fieldBytes) bs)
      (hslots : ((fields.map Prod.fst).map Prod.fst).Nodup)
      (hfields : ∀ slot value,
        o.fields.get? slot = some value ↔ (slot, value) ∈ fields.map Prod.fst) :
      Saving bs o (idSaved + mapSaved + (fields.map Prod.snd).sum)

/-! ## Every spelling saves something or nothing -/

section Spellings

variable {bs content : Bytes}

theorem valueSpelled_iff_saving {value : Value} :
    Value.Spelled bs value ↔ ∃ saved, Value.Saving bs value saved := by
  constructor
  · intro h
    cases value with
    | null => exact ⟨0, .null h⟩
    | bool b => exact ⟨0, .bool h⟩
    | int n =>
      cases h with
      | int h =>
        obtain ⟨saved, h⟩ := integer_iff_saving.1 h
        exact ⟨saved, .int h⟩
    | float bits =>
      cases h with
      | float h => exact ⟨0, .float h⟩
    | text s =>
      cases h with
      | text h =>
        obtain ⟨saved, h⟩ := str_iff_saving.1 h
        exact ⟨saved, .text h⟩
    | bytes xs =>
      cases h with
      | bytes h =>
        obtain ⟨saved, h⟩ := str_iff_saving.1 h
        exact ⟨saved, .bytes h⟩
  · rintro ⟨saved, h⟩
    cases h with
    | null h => exact h
    | bool h => exact h
    | int h => exact .int (integer_iff_saving.2 ⟨saved, h⟩)
    | float h => exact .float h
    | text h => exact .text (str_iff_saving.2 ⟨saved, h⟩)
    | bytes h => exact .bytes (str_iff_saving.2 ⟨saved, h⟩)

theorem fieldSpelled_iff_saving {field : Slot × Value} :
    FieldSpelled bs field ↔ ∃ saving, FieldSaving bs saving ∧ saving.1 = field := by
  constructor
  · rintro ⟨p, q, slot, value, hslot, hvalue, rfl, rfl⟩
    obtain ⟨saved, hvalue⟩ := valueSpelled_iff_saving.1 hvalue
    exact ⟨((slot, value), saved), ⟨p, q, hslot, hvalue, rfl⟩, rfl⟩
  · rintro ⟨⟨⟨slot, value⟩, saved⟩, ⟨p, q, hslot, hvalue, rfl⟩, rfl⟩
    exact ⟨p, q, slot, value, hslot, valueSpelled_iff_saving.2 ⟨saved, hvalue⟩, rfl, rfl⟩

theorem sequence_iff_saving {fields : List (Slot × Value)} :
    Sequence FieldSpelled bs fields ↔
      ∃ savings, Sequence FieldSaving bs savings ∧ savings.map Prod.fst = fields := by
  have hfield : FieldSpelled = fun bs field => ∃ saving, FieldSaving bs saving ∧ saving.1 = field := by
    funext bs field
    exact propext fieldSpelled_iff_saving
  have hmap : ∀ savings : List ((Slot × Value) × Nat),
      List.Forall₂ (fun saving field => saving.1 = field) savings fields
        ↔ savings.map Prod.fst = fields := by
    intro savings
    rw [← List.forall₂_map_left_iff, List.forall₂_eq_eq_eq]
  rw [hfield, ← sequence_forall₂_iff]
  simp only [hmap]

theorem enclosed_iff_saving {count : Nat} :
    Enclosed 5 count content bs ↔ ∃ saved, MapSaving count content bs saved := by
  constructor
  · intro h
    cases h with
    | definite h => exact ⟨_, .definite h⟩
    | indefinite => exact ⟨_, .indefinite⟩
  · rintro ⟨saved, h⟩
    cases h with
    | definite h => exact .definite h
    | indefinite => exact .indefinite

/-- **Every spelling of an object** saves something or nothing. -/
theorem Object.spelled_iff_saving {o : Object} :
    o.Spelled bs ↔ ∃ saved, Object.Saving bs o saved := by
  constructor
  · rintro ⟨hid, hentries, hmap, hpair, hslots, hfields⟩
    obtain ⟨idSaved, hid⟩ := integer_iff_saving.1 hid
    obtain ⟨savings, hsavings, rfl⟩ := sequence_iff_saving.1 hentries
    rw [List.length_map] at hmap
    obtain ⟨mapSaved, hmap⟩ := enclosed_iff_saving.1 hmap
    exact ⟨_, .intro hid hsavings hmap hpair hslots hfields⟩
  · rintro ⟨_, hid, hentries, hmap, hpair, hslots, hfields⟩
    refine .intro (integer_iff_saving.2 ⟨_, hid⟩) (sequence_iff_saving.2 ⟨_, hentries, rfl⟩) ?_ hpair
      hslots hfields
    rw [List.length_map]
    exact enclosed_iff_saving.2 ⟨_, hmap⟩

end Spellings

/-! ## What builders write -/

section Lengths

variable {bs content : Bytes} {saved : Nat}

theorem Value.length_encodeInt (n : Int) :
    (encodeInt n).length = (Head.argument 0 (Item.magnitude n)).length := by
  unfold encodeInt Item.magnitude
  split
  · rfl
  · rw [Head.write, length_argument, ← length_argument 0]

/-- **A value is no shorter** than its encoding, except for what its spelling saves. -/
theorem Value.Saving.length_le {value : Value} (h : Value.Saving bs value saved) :
    value.encode.length ≤ bs.length + saved := by
  cases h with
  | null h =>
    cases h with
    | null h => exact h.length_le
    | undefined h => exact h.length_le
  | bool h =>
    cases h with
    | false h => exact h.length_le
    | true h => exact h.length_le
  | int h =>
    rw [encode, length_encodeInt]
    exact h.length_le 0
  | float h => exact h.length_le
  | text h =>
    rw [encode, List.length_append]
    exact h.length_le 3
  | bytes h =>
    rw [encode, List.length_append]
    exact h.length_le 2

theorem FieldSaving.length_le {field : (Slot × Value) × Nat} (h : FieldSaving bs field) :
    (Object.encodeField field.1).length ≤ bs.length + field.2 := by
  obtain ⟨p, q, hslot, hvalue, rfl⟩ := h
  obtain ⟨saved, hslot⟩ := integer_iff_saving.1 hslot
  have hsmall : Item.magnitude field.1.1.toNat < 0x100000000 := by
    have hslot := field.1.1.toNat_lt
    rw [Item.magnitude_natCast]
    omega
  have hnone := hslot.eq_zero hsmall
  have hfirst := hslot.length_le 0
  have hsecond := hvalue.length_le
  rw [Item.magnitude_natCast] at hfirst
  rw [Object.encodeField, Head.write, List.length_append, List.length_append]
  omega

/-- The fields one after the other. -/
theorem length_flatMap_encodeField_le {fields : List ((Slot × Value) × Nat)}
    (h : Sequence FieldSaving bs fields) :
    ((fields.map Prod.fst).flatMap Object.encodeField).length
      ≤ bs.length + (fields.map Prod.snd).sum := by
  induction h with
  | nil => exact Nat.zero_le _
  | cons hx hxs ih =>
    have hfield := FieldSaving.length_le hx
    simp only [List.map_cons, List.flatMap_cons, List.sum_cons, List.length_append] at ih ⊢
    omega

theorem MapSaving.length_le {count : Nat} (h : MapSaving count content bs saved) :
    (Head.argument 5 count).length + content.length ≤ bs.length + saved := by
  cases h with
  | definite h =>
    have hhead := h.length_le
    rw [List.length_append]
    omega
  | indefinite =>
    simp only [List.length_append, opening, closing, List.length_singleton]
    omega

/-- **An object is no shorter** than its encoding, except for what its spelling saves. -/
theorem Object.Saving.length_le {o : Object} (h : Object.Saving bs o saved) :
    o.encode.length ≤ bs.length + saved := by
  obtain ⟨hid, hentries, hmap, hpair, hslots, hfields⟩ := h
  rename_i fields _ _ _ _ _
  have hperm := SortedMap.entries_perm hslots hfields
  have hsize : o.fields.size = fields.length := hperm.length_eq.trans (List.length_map _)
  have hfieldBytes : (o.fields.entries.flatMap encodeField).length
      = ((fields.map Prod.fst).flatMap encodeField).length :=
    (hperm.flatMap_right encodeField).length_eq
  have hfirst := hid.length_le 0
  have hlater := length_flatMap_encodeField_le hentries
  have hsecond := hmap.length_le
  have hwhole := hpair.length_lt
  have hpairHead : (Head.write (.array (some 2))).length = 1 := rfl
  rw [Item.magnitude_natCast] at hfirst
  rw [List.length_append] at hwhole
  rw [encode, List.length_append, List.length_append, List.length_append, hsize, hfieldBytes,
    hpairHead, Head.write, Head.write, Head.sized]
  omega

end Lengths

/-! ## Building again -/

/-- What is decoded to an object is a spelling of it, up to where the reader stopped. -/
theorem Object.exists_read_of_decode {bs : Bytes} {o : Object} (h : Object.decode bs = .ok o) :
    ∃ item last, Item.read (.ofBytes bs) = .ok (item, last) ∧ last.offset ≤ bs.length ∧
      o.Spelled (bs.take last.offset) := by
  unfold Object.decode at h
  cases hitem : Item.decode bs with
  | error e =>
    rw [hitem] at h
    cases h
  | ok item =>
    rw [hitem] at h
    obtain ⟨⟨_, last⟩, hread, heq⟩ := bind_eq_ok.1 hitem
    cases heq
    obtain ⟨hwhole, hlength⟩ := Item.whole_of_read hread
    exact ⟨item, last, hread, by omega, (Object.spelled_iff 253).1 ⟨item, hwhole, h⟩⟩

/-- **Building an object again hardly makes it larger.**  Bytes of any form are decoded to an object,
and a builder that is given its ID and its fields, in any order, delivers bytes that are no longer
than those that were read and what their spelling saves.  That is, for each integer of more than 32
bits behind a tag, what it takes less than nine bytes; one byte for each string of `2 ^ 32` bytes or
more in segments whose heads take six bytes; and, for a map up to a break, what the number of its
fields takes more than two bytes.  All heads that a builder writes are the shortest ones, and numbers
in binary format are in the narrowest one that keeps their bits. -/
theorem rebuilding_grows_little :
    (∀ head : Head, head.Fits →
      Head.Spelled head.write head ∧ ∀ p, Head.Spelled p head → head.write.length ≤ p.length) ∧
    ∀ bs o, Object.decode bs = .ok o →
      ∃ item last, Item.read (.ofBytes bs) = .ok (item, last) ∧
        (∃ saved, Object.Saving (bs.take last.offset) o saved) ∧
        ∀ saved, Object.Saving (bs.take last.offset) o saved →
          ∀ (b : Builder) (fields : List (Slot × Value)), b.isIdle = true →
            fields.Perm o.fields.entries →
            ∃ started filled ticket completed packed bytes, b.start o.id = .ok started ∧
              started.addAll fields = .ok filled ∧ filled.complete = .ok (ticket, completed) ∧
              completed.pack ticket = .ok packed ∧ packed.packedBytes = .ok bytes ∧
              bytes.length ≤ last.offset + saved := by
  refine ⟨fun head => Head.write_shortest, fun bs o hdecode => ?_⟩
  obtain ⟨item, last, hread, htaken, hspelled⟩ := Object.exists_read_of_decode hdecode
  refine ⟨item, last, hread, Object.spelled_iff_saving.1 hspelled, ?_⟩
  intro saved hsaving b fields hidle hperm
  have hslots : (fields.map Prod.fst).Nodup :=
    (hperm.map Prod.fst).nodup_iff.2 o.fields.nodup_keys
  have hsame : SortedMap.ofList fields = o.fields := by
    rw [← SortedMap.ofList_entries o.fields]
    exact (SortedMap.ofList_eq_ofList_iff hslots o.fields.nodup_keys).2 fun f => hperm.mem_iff
  obtain ⟨started, filled, ticket, completed, packed, hstart, hadd, hcomplete, hpack, hbytes⟩ :=
    Builder.make_object hidle o.id hslots
  refine ⟨started, filled, ticket, completed, packed, _, hstart, hadd, hcomplete, hpack, hbytes, ?_⟩
  have hlength := hsaving.length_le
  rw [List.length_take, min_eq_left htaken] at hlength
  rw [hsame]
  exact hlength

/-- An object whose ID, `2 ^ 32`, takes seven bytes behind a tag. -/
def fiveByteId : Bytes := [0x82, 0xC2, 0x45, 0x01, 0x00, 0x00, 0x00, 0x00, 0xA0]

theorem decode_fiveByteId : Object.decode fiveByteId = .ok ⟨0x100000000, ∅⟩ := by
  decide +kernel

theorem read_fiveByteId : ∃ item, Item.read (.ofBytes fiveByteId) = .ok (item, ⟨9, []⟩) := by
  have hlast : (Item.read (.ofBytes fiveByteId)).map Prod.snd = .ok ⟨9, []⟩ := by decide +kernel
  obtain ⟨⟨item, _⟩, hread, rfl⟩ := map_eq_ok.1 hlast
  exact ⟨item, hread⟩

/-- The ID saves two bytes, and the map, with the number of its fields in its head, none. -/
theorem saving_fiveByteId : Object.Saving fiveByteId ⟨0x100000000, ∅⟩ 2 := by
  have htag : Argument 6 [0xC2] 2 := .short (by omega : 2 < 24)
  have hhead : Argument 2 [0x45] [(0x01 : UInt8), 0x00, 0x00, 0x00, 0x00].length :=
    .short (by omega : 5 < 24)
  have hid := IntegerSaving.big htag hhead (by decide)
  have hvalue : ofBigEndian [0x01, 0x00, 0x00, 0x00, 0x00] = (0x100000000 : ObjectId).toNat := by
    decide
  rw [hvalue] at hid
  have hmap : MapSaving 0 [] [0xA0] 0 := .definite (.short (by decide))
  have hpair : Enclosed 4 2 [0xC2, 0x45, 0x01, 0x00, 0x00, 0x00, 0x00, 0xA0] fiveByteId :=
    .definite (.short (by decide))
  exact .intro hid .nil hmap hpair List.nodup_nil fun _ _ => ⟨nofun, nofun⟩

/-- The object is read from nine bytes, with the number of its fields in the head of the map, and a
builder delivers eleven. -/
theorem rebuilding_grows_fiveByteId :
    Object.decode fiveByteId = .ok ⟨0x100000000, ∅⟩ ∧
      (∃ item, Item.read (.ofBytes fiveByteId) = .ok (item, ⟨9, []⟩)) ∧
      fiveByteId = [0x82] ++ ([0xC2, 0x45, 0x01, 0x00, 0x00, 0x00, 0x00] ++ [0xA0]) ∧
      Head.Spelled [0xA0] (.map (some 0)) ∧
      ∃ started filled ticket completed packed bytes, Builder.new.start 0x100000000 = .ok started ∧
        started.addAll [] = .ok filled ∧ filled.complete = .ok (ticket, completed) ∧
        completed.pack ticket = .ok packed ∧ packed.packedBytes = .ok bytes ∧
        ¬ bytes.length ≤ 9 := by
  obtain ⟨started, filled, ticket, completed, packed, hstart, hadd, hcomplete, hpack, hbytes⟩ :=
    @Builder.make_object .new rfl 0x100000000 [] List.nodup_nil
  refine ⟨decode_fiveByteId, read_fiveByteId, rfl, .map (.definite (.short (by omega : 0 < 24))),
    started, filled, ticket, completed, packed, _, hstart, hadd, hcomplete, hpack, hbytes, ?_⟩
  decide +kernel

/-- Two bytes more are what the spelling of the ID had saved. -/
theorem rebuilding_grows_little_fiveByteId :
    ∃ started filled ticket completed packed bytes, Builder.new.start 0x100000000 = .ok started ∧
      started.addAll [] = .ok filled ∧ filled.complete = .ok (ticket, completed) ∧
      completed.pack ticket = .ok packed ∧ packed.packedBytes = .ok bytes ∧
      bytes.length ≤ 9 + 2 := by
  obtain ⟨_, last, hread, -, hbuild⟩ := rebuilding_grows_little.2 _ _ decode_fiveByteId
  obtain ⟨item, hall⟩ := read_fiveByteId
  rw [hall] at hread
  cases hread
  exact hbuild 2 saving_fiveByteId .new [] rfl .nil

end ObjectStore
