import Mathlib
import ObjectStore.Proofs.Cbor.Spelling
import ObjectStore.Proofs.Object.RoundTrip

/-!
# The objects that are read

An object is spelled by an array of two items, an integer and a map, in any of the forms that CBOR
has for them (`Object.Spelled`): lengths announced in any width or left to a break, integers as
heads or as tags with bytes, texts and byte strings in one piece or in segments.

Main statement: `Object.decode_eq_ok_iff_spelled`, the bytes that are decoded to an object are exactly those
that begin with a spelling of it.
-/

namespace ObjectStore

open Cbor

/-! ## The grammar -/

/-- The bytes of a value. -/
inductive Value.Spelled : Bytes → Value → Prop
  | null {bs : Bytes} (h : Simple bs 22) : Spelled bs .null
  | undefined {bs : Bytes} (h : Simple bs 23) : Spelled bs .null
  | false {bs : Bytes} (h : Simple bs 20) : Spelled bs (.bool false)
  | true {bs : Bytes} (h : Simple bs 21) : Spelled bs (.bool true)
  | int {bs : Bytes} {n : Int64} (h : Integer bs n.toInt) : Spelled bs (.int n)
  | float {bs : Bytes} {bits : UInt64} (h : Floating bs bits.toNat) : Spelled bs (.float bits)
  | text {bs : Bytes} {s : String} (h : Str .text bs s.toList) : Spelled bs (.text s)
  | bytes {bs xs : Bytes} (h : Str .bytes bs xs) : Spelled bs (.bytes xs)

/-- The bytes of a field: its slot and its value. -/
def FieldSpelled : Grammar (Slot × Value) :=
  .both Prod.mk (fun bs slot => Integer bs slot.toNat) Value.Spelled

/-- The bytes of an object: an array of its ID and of a map with its fields, in any order and with
pairwise distinct slots. -/
inductive Object.Spelled : Bytes → Object → Prop
  | intro {o : Object} {fields : List (Slot × Value)} {bs idBytes entries fieldBytes : Bytes}
      (hid : Integer idBytes o.id.toNat) (hentries : Sequence FieldSpelled entries fields)
      (hmap : Enclosed 5 fields.length entries fieldBytes)
      (hpair : Enclosed 4 2 (idBytes ++ fieldBytes) bs)
      (hslots : (fields.map Prod.fst).Nodup)
      (hfields : ∀ slot value, o.fields.get? slot = some value ↔ (slot, value) ∈ fields) :
      Spelled bs o

/-! ## Values -/

/-- A number in binary format has 64 bits when it is widened. -/
theorem floating_lt {bs : Bytes} {bits : Nat} (h : Floating bs bits) : bits < 2 ^ 64 := by
  cases h with
  | half h =>
    rename_i seg
    have hlt := ofBigEndian_lt seg
    have hsign := FloatFormat.sign_widen FloatFormat.half_narrow (ofBigEndian seg)
    rw [h] at hlt
    simp only [FloatFormat.half] at hsign ⊢
    omega
  | single h =>
    rename_i seg
    have hlt := ofBigEndian_lt seg
    have hsign := FloatFormat.sign_widen FloatFormat.single_narrow (ofBigEndian seg)
    rw [h] at hlt
    simp only [FloatFormat.single] at hsign ⊢
    omega
  | double h =>
    have hlt := ofBigEndian_lt ‹Bytes›
    rw [h] at hlt
    omega

section Values

variable {G? : Option (BodyGrammar Item)} {bs : Bytes} {item : Item}

/-- **A value is read** from the bytes that spell it. -/
theorem valueSpelled_iff {value : Value} :
    (∃ item, Spelling G? bs item ∧ Value.ofItem? item = some value) ↔ value.Spelled bs := by
  constructor
  · rintro ⟨item, hitem, hvalue⟩
    cases hitem with
    | int h hlower hupper =>
      simp only [Value.ofItem?] at hvalue
      split at hvalue
      · rename_i hrange
        cases hvalue
        refine .int ?_
        rwa [Int64.toInt_ofInt_of_le hrange.1 hrange.2]
      · cases hvalue
    | bytes h =>
      cases hvalue
      exact .bytes h
    | text h =>
      cases hvalue
      refine .text ?_
      rwa [String.toList_ofList]
    | false h =>
      cases hvalue
      exact .false h
    | true h =>
      cases hvalue
      exact .true h
    | null h =>
      cases hvalue
      rcases h with h | h
      · exact .null h
      · exact .undefined h
    | float h =>
      cases hvalue
      refine .float ?_
      rwa [UInt64.toNat_ofNat_of_lt' (floating_lt h)]
    | _ => cases hvalue
  · intro h
    -- the item that the value is written as
    refine ⟨value.toItem, ?_, value.ofItem?_toItem⟩
    cases h with
    | null h => exact .null (.inl h)
    | undefined h => exact .null (.inr h)
    | false h => exact .false h
    | true h => exact .true h
    | int h =>
      rename_i n
      have hlower := n.le_toInt
      have hupper := n.toInt_lt
      exact .int h (by omega) (by omega)
    | float h => exact .float h
    | text h => exact .text h
    | bytes h => exact .bytes h

/-! ## Fields -/

/-- An entry of a decoded map stands for a field. -/
def Denotes (entry : Item × Item) (field : Slot × Value) : Prop :=
  Object.slotOfItem entry.1 = .ok field.1 ∧ Value.ofItem? entry.2 = some field.2

/-- A slot is an integer item of that number. -/
theorem slotOfItem_eq_ok_iff {slot : Slot} :
    Object.slotOfItem item = .ok slot ↔ item = .int slot.toNat := by
  constructor
  · intro h
    cases item with
    | int n =>
      simp only [Object.slotOfItem] at h
      split at h
      · cases h
        rw [UInt16.toNat_ofNat_of_lt' (by simp only [UInt16.size]; omega),
          Int.toNat_of_nonneg (by omega)]
      · cases h
    | _ => cases h
  · rintro rfl
    exact Object.slotOfItem_toNat slot

/-- An ID is an integer item of that number. -/
theorem idOfItem_eq_ok_iff {id : ObjectId} :
    Object.idOfItem item = .ok id ↔ item = .int id.toNat := by
  constructor
  · intro h
    cases item with
    | int n =>
      simp only [Object.idOfItem] at h
      split at h
      · cases h
        rw [UInt64.toNat_ofNat_of_lt' (by simp only [UInt64.size]; omega),
          Int.toNat_of_nonneg (by omega)]
      · cases h
    | _ => cases h
  · rintro rfl
    exact Object.idOfItem_toNat id

/-- An integer item is spelled as an integer. -/
theorem spelling_int_iff {n : Int} (hlower : -0x10000000000000000 ≤ n)
    (hupper : n < 0x10000000000000000) : Spelling G? bs (.int n) ↔ Integer bs n := by
  constructor
  · rintro ⟨⟩
    assumption
  · exact fun h => .int h hlower hupper

/-- **An entry is added** if it stands for a field whose slot is new. -/
theorem addEntry_eq_ok_iff {m m' : SortedMap Slot Value} {entry : Item × Item} :
    Object.addEntry m entry = .ok m' ↔
      ∃ field, Denotes entry field ∧ m.get? field.1 = none ∧ m' = m.insert field.1 field.2 := by
  constructor
  · intro h
    obtain ⟨slot, hslot, h⟩ := bind_eq_ok.1 h
    split at h
    · cases h
    · rename_i value hvalue
      split at h
      · cases h
      · rename_i hfree
        cases h
        refine ⟨(slot, value), ⟨hslot, hvalue⟩, ?_, rfl⟩
        rwa [SortedMap.contains, Bool.not_eq_true, Option.isSome_eq_false_iff,
          Option.isNone_iff_eq_none] at hfree
  · rintro ⟨field, ⟨hslot, hvalue⟩, hnew, rfl⟩
    exact Object.addEntry_eq_ok hslot hvalue hnew

/-- **All entries are added** if they stand for fields with pairwise distinct slots. -/
theorem foldlM_addEntry_eq_ok_iff {entries : List (Item × Item)} {m m' : SortedMap Slot Value} :
    entries.foldlM Object.addEntry m = .ok m' ↔
      ∃ fields, List.Forall₂ Denotes entries fields ∧ (fields.map Prod.fst).Nodup ∧
        (∀ f ∈ fields, m.get? f.1 = none) ∧
        m' = fields.foldl (fun m f => m.insert f.1 f.2) m := by
  induction entries generalizing m with
  | nil =>
    rw [List.foldlM_nil, pure_eq_ok]
    constructor
    · rintro rfl
      exact ⟨[], .nil, List.nodup_nil, by simp, rfl⟩
    · rintro ⟨fields, ⟨⟩, -, -, rfl⟩
      rfl
  | cons entry entries ih =>
    rw [List.foldlM_cons, bind_eq_ok]
    constructor
    · rintro ⟨m₁, hadd, hrest⟩
      obtain ⟨field, hfield, hnew, rfl⟩ := addEntry_eq_ok_iff.1 hadd
      obtain ⟨fields, hdenotes, hnodup, hfree, rfl⟩ := ih.1 hrest
      -- a slot that is free later on is none of those filled before
      have hother : ∀ f ∈ fields, f.1 ≠ field.1 ∧ m.get? f.1 = none := by
        intro f hf
        have hnone := hfree f hf
        rw [SortedMap.get?_insert] at hnone
        split at hnone
        · cases hnone
        · rename_i hne
          exact ⟨hne, hnone⟩
      refine ⟨field :: fields, .cons hfield hdenotes, ?_, ?_, rfl⟩
      · rw [List.map_cons, List.nodup_cons]
        refine ⟨fun hmem => ?_, hnodup⟩
        obtain ⟨f, hf, heq⟩ := List.mem_map.1 hmem
        exact (hother f hf).1 heq
      · intro f hf
        rcases List.mem_cons.1 hf with rfl | hf
        · exact hnew
        · exact (hother f hf).2
    · rintro ⟨fields, hdenotes, hnodup, hfree, rfl⟩
      cases hdenotes with
      | cons hfield hdenotes =>
        rename_i field fields
        rw [List.map_cons, List.nodup_cons] at hnodup
        have hnew := hfree field List.mem_cons_self
        refine ⟨_, addEntry_eq_ok_iff.2 ⟨field, hfield, hnew, rfl⟩, ih.2 ?_⟩
        refine ⟨fields, hdenotes, hnodup.2, fun f hf => ?_, rfl⟩
        have hne : f.1 ≠ field.1 := fun heq =>
          hnodup.1 (List.mem_map.2 ⟨f, hf, heq⟩)
        rw [SortedMap.get?_insert, if_neg hne]
        exact hfree f (List.mem_cons_of_mem field hf)

/-- The bytes of entries that stand for fields, one by one. -/
theorem sequence_forall₂_iff {α β : Type} {G : Grammar α} {R : α → β → Prop} {ys : List β} :
    (∃ xs, Sequence G bs xs ∧ List.Forall₂ R xs ys) ↔
      Sequence (fun bs y => ∃ x, G bs x ∧ R x y) bs ys := by
  constructor
  · rintro ⟨xs, hxs, hR⟩
    induction hxs generalizing ys with
    | nil =>
      cases hR
      exact .nil
    | cons hx hxs ih =>
      cases hR with
      | cons hxy hR => exact .cons ⟨_, hx, hxy⟩ (ih hR)
  · intro h
    induction h with
    | nil => exact ⟨[], .nil, .nil⟩
    | cons hx hxs ih =>
      obtain ⟨x, hx, hxy⟩ := hx
      obtain ⟨xs, hxs, hR⟩ := ih
      exact ⟨x :: xs, .cons hx hxs, .cons hxy hR⟩

/-- A pair is its two parts one behind the other. -/
theorem whole_pairContent_iff {G : BodyGrammar Item} {entry : Item × Item} :
    Whole (PairContent G) bs entry ↔ Grammar.both Prod.mk (Whole G) (Whole G) bs entry := by
  constructor
  · rintro ⟨head, p, _, hhead, ⟨q, r, key, value, hkey, hvalue, rfl, rfl⟩, rfl⟩
    exact ⟨p ++ q, r, key, value, ⟨head, p, q, hhead, hkey, rfl⟩, hvalue,
      (List.append_assoc p q r).symm, rfl⟩
  · rintro ⟨_, r, key, value, ⟨head, p, q, hhead, hkey, rfl⟩, hvalue, rfl, rfl⟩
    exact ⟨head, p, q ++ r, hhead, ⟨q, r, key, value, hkey, hvalue, rfl, rfl⟩,
      List.append_assoc p q r⟩

/-- **A field is read** from the bytes that spell it. -/
theorem fieldSpelled_iff {field : Slot × Value} :
    (∃ entry, Whole (PairContent (Content G?)) bs entry ∧ Denotes entry field) ↔
      FieldSpelled bs field := by
  constructor
  · rintro ⟨entry, hentry, hslotItem, hvalueItem⟩
    obtain ⟨p, q, key, value, hkey, hvalue, rfl, rfl⟩ := whole_pairContent_iff.1 hentry
    obtain rfl : key = .int field.1.toNat := slotOfItem_eq_ok_iff.1 hslotItem
    have hslot := field.1.toNat_lt
    rw [whole_iff] at hkey
    exact ⟨p, q, field.1, field.2, (spelling_int_iff (by omega) (by omega)).1 hkey,
      valueSpelled_iff.1 ⟨value, whole_iff.1 hvalue, hvalueItem⟩, rfl, rfl⟩
  · rintro ⟨p, q, slot, value, hkey, hvalue, rfl, rfl⟩
    obtain ⟨item, hitem, hvalueItem⟩ := valueSpelled_iff.2 hvalue
    have hslot := slot.toNat_lt
    refine ⟨(.int slot.toNat, item), whole_pairContent_iff.2 ⟨p, q, _, item, whole_iff.2 ?_,
      whole_iff.2 hitem, rfl, rfl⟩, slotOfItem_eq_ok_iff.2 rfl, hvalueItem⟩
    exact (spelling_int_iff (by omega) (by omega)).2 hkey

end Values

/-! ## Objects -/

namespace Object

variable {o : Object} {item : Item}

/-- An object is taken from an array of an ID and of entries that stand for its fields. -/
theorem ofItem_eq_ok_iff :
    ofItem item = .ok o ↔
      ∃ entries fields, item = .array [.int o.id.toNat, .map entries] ∧
        List.Forall₂ Denotes entries fields ∧ (fields.map Prod.fst).Nodup ∧
        o.fields = .ofList fields := by
  constructor
  · intro h
    unfold ofItem at h
    split at h
    · rename_i first second
      obtain ⟨id, hid, h⟩ := bind_eq_ok.1 h
      cases second with
      | map entries =>
        obtain ⟨m, hentries, h⟩ := bind_eq_ok.1 h
        cases h
        obtain ⟨fields, hdenotes, hslots, -, hm⟩ := foldlM_addEntry_eq_ok_iff.1 hentries
        rw [idOfItem_eq_ok_iff.1 hid]
        exact ⟨entries, fields, rfl, hdenotes, hslots, hm⟩
      | _ => cases h
    · cases h
  · rintro ⟨entries, fields, rfl, hdenotes, hslots, hfields⟩
    refine ofItem_eq_ok (idOfItem_eq_ok_iff.2 rfl) (foldlM_addEntry_eq_ok_iff.2 ?_)
    exact ⟨fields, hdenotes, hslots, fun f _ => SortedMap.get?_empty f.1, hfields⟩

/-- The fields of an object, listed in any order. -/
theorem fields_eq_ofList_iff {fields : List (Slot × Value)} (hslots : (fields.map Prod.fst).Nodup) :
    o.fields = .ofList fields ↔
      ∀ slot value, o.fields.get? slot = some value ↔ (slot, value) ∈ fields := by
  constructor
  · intro h slot value
    rw [h, SortedMap.get?_ofList hslots]
  · intro h
    refine SortedMap.ext_get? fun slot => Option.ext fun value => ?_
    rw [h slot value, SortedMap.get?_ofList hslots]

/-- Two items in an array. -/
theorem sequence_pair_iff {G : Grammar Item} {bs : Bytes} {first second : Item} :
    Sequence G bs [first, second] ↔ ∃ p q, G p first ∧ G q second ∧ bs = p ++ q := by
  constructor
  · rintro ⟨⟩
    rename_i p q hp hq
    cases hq with
    | cons hq hnil =>
      cases hnil
      rename_i q
      exact ⟨p, q, hp, hq, by rw [List.append_nil]⟩
  · rintro ⟨p, q, hp, hq, rfl⟩
    rw [← List.append_nil q]
    exact .cons hp (.cons hq .nil)

/-- **The items that objects are taken from** are those that spell them, where three levels are
left. -/
theorem spelled_iff {bs : Bytes} (depth : Nat) :
    (∃ item, Whole (ContentWithin (depth + 3)) bs item ∧ ofItem item = .ok o) ↔ Spelled bs o := by
  have hid := o.id.toNat_lt
  -- the entries of the map are fields, whatever levels are left for their values
  have hentry : (fun bs field => ∃ entry, Whole (PairContent (ContentWithin (depth + 1))) bs entry ∧
      Denotes entry field) = FieldSpelled := by
    funext bs field
    exact propext fieldSpelled_iff
  constructor
  · rintro ⟨item, hitem, hobject⟩
    obtain ⟨entries, fields, rfl, hdenotes, hslots, hfields⟩ := ofItem_eq_ok_iff.1 hobject
    cases whole_iff.1 hitem with
    | array hinner hitems hpair =>
      cases hinner
      obtain ⟨p, q, hp, hq, rfl⟩ := sequence_pair_iff.1 hitems
      have hfirst := (spelling_int_iff (by omega) (by omega)).1 (whole_iff.1 hp)
      cases whole_iff.1 hq with
      | map hinner hentries hmap =>
        cases hinner
        have hsequence := sequence_forall₂_iff.1 ⟨entries, hentries, hdenotes⟩
        rw [hdenotes.length_eq] at hmap
        rw [hentry] at hsequence
        exact .intro hfirst hsequence hmap hpair hslots ((fields_eq_ofList_iff hslots).1 hfields)
  · rintro ⟨hfirst, hsequence, hmap, hpair, hslots, hfields⟩
    rename_i fields idBytes entryBytes fieldBytes
    rw [← hentry] at hsequence
    obtain ⟨entries, hentries, hdenotes⟩ := sequence_forall₂_iff.2 hsequence
    rw [← hdenotes.length_eq] at hmap
    have hp : Whole (ContentWithin (depth + 2)) idBytes (.int o.id.toNat) :=
      whole_iff.2 ((spelling_int_iff (by omega) (by omega)).2 hfirst)
    have hq : Whole (ContentWithin (depth + 2)) fieldBytes (.map entries) :=
      whole_iff.2 (.map rfl hentries hmap)
    have hitems := sequence_pair_iff.2 ⟨idBytes, fieldBytes, hp, hq, rfl⟩
    refine ⟨.array [.int o.id.toNat, .map entries], whole_iff.2 (.array rfl hitems hpair), ?_⟩
    refine ofItem_eq_ok_iff.2 ⟨entries, fields, rfl, hdenotes, hslots, ?_⟩
    exact (fields_eq_ofList_iff hslots).2 hfields

/-! ## Reading and judging -/

/-- What is judged was read: it does not fail as reading does. -/
def Judged {α : Type} (x : Except ObjectError α) : Prop := ∀ cause, x ≠ .error (.decodingFailed cause)

theorem Judged.bind {α β : Type} {x : Except ObjectError α} {f : α → Except ObjectError β}
    (h : Judged x) (hrest : ∀ a, Judged (f a)) : Judged (x >>= f) := by
  cases x with
  | error e =>
    rintro cause ⟨⟩
    exact h cause rfl
  | ok a => exact hrest a

theorem judged_ok {α : Type} (a : α) : Judged (.ok a) := nofun

theorem judged_invalidStructure {α : Type} (cause : ShapeError) :
    Judged (.error (.invalidStructure cause) : Except ObjectError α) := nofun

theorem judged_duplicateSlot {α : Type} (slot : Slot) :
    Judged (.error (.duplicateSlot slot) : Except ObjectError α) := nofun

theorem judged_idOfItem (item : Item) : Judged (idOfItem item) := by
  unfold idOfItem
  split
  · split
    · exact judged_ok _
    · exact judged_invalidStructure _
  · exact judged_invalidStructure _

theorem judged_slotOfItem (item : Item) : Judged (slotOfItem item) := by
  unfold slotOfItem
  split
  · split
    · exact judged_ok _
    · exact judged_invalidStructure _
  · exact judged_invalidStructure _

theorem judged_addEntry (m : SortedMap Slot Value) (entry : Item × Item) :
    Judged (addEntry m entry) := by
  refine (judged_slotOfItem entry.1).bind fun slot => ?_
  split
  · exact judged_invalidStructure _
  · split
    · exact judged_duplicateSlot slot
    · exact judged_ok _

theorem judged_foldlM_addEntry (entries : List (Item × Item)) (m : SortedMap Slot Value) :
    Judged (entries.foldlM addEntry m) := by
  induction entries generalizing m with
  | nil => exact judged_ok m
  | cons entry entries ih =>
    rw [List.foldlM_cons]
    exact (judged_addEntry m entry).bind ih

theorem judged_ofItem (item : Item) : Judged (ofItem item) := by
  unfold ofItem
  split
  · refine (judged_idOfItem _).bind fun id => ?_
    split
    · exact (judged_foldlM_addEntry _ ∅).bind fun fields => judged_ok _
    · exact judged_invalidStructure _
  · exact judged_invalidStructure _

/-- **Bytes are unreadable** exactly if there is no reading the item at their front. -/
theorem decode_eq_unreadable_iff {bs : Bytes} {cause : ReadError} :
    decode bs = .error (.decodingFailed (.unreadable cause)) ↔ Item.decode bs = .error cause := by
  unfold decode
  cases Item.decode bs with
  | error e =>
    constructor
    · rintro ⟨⟩
      rfl
    · rintro ⟨⟩
      rfl
  | ok item =>
    constructor
    · intro h
      exact absurd h (judged_ofItem item _)
    · exact nofun

/-- **The bytes that are decoded to an object** are those that begin with a spelling of it. -/
theorem decode_eq_ok_iff_spelled {bs : Bytes} :
    decode bs = .ok o ↔ ∃ p, p <+: bs ∧ Spelled p o := by
  have hitem : decode bs = .ok o ↔ ∃ item, Item.decode bs = .ok item ∧ ofItem item = .ok o := by
    unfold decode
    cases Item.decode bs with
    | ok item => simp
    | error e => simp
  rw [hitem]
  constructor
  · rintro ⟨item, hdecode, hobject⟩
    obtain ⟨p, hp, hwhole⟩ := Item.decode_eq_ok_iff.1 hdecode
    exact ⟨p, hp, (spelled_iff 253).1 ⟨item, hwhole, hobject⟩⟩
  · rintro ⟨p, hp, hspelled⟩
    obtain ⟨item, hwhole, hobject⟩ := (spelled_iff 253).2 hspelled
    exact ⟨item, Item.decode_eq_ok_iff.2 ⟨p, hp, hwhole⟩, hobject⟩

/-- An array and a map up to a break, an ID of one byte under tag 2, a slot in a wider head, and
undefined for null; the byte behind them is not looked at. -/
example : decode [0x9F, 0xC2, 0x41, 0x07, 0xBF, 0x19, 0x00, 0x05, 0xF7, 0xFF, 0xFF, 0x00]
    = .ok ⟨7, .ofList [(5, .null)]⟩ := by
  decide +kernel

end Object

end ObjectStore
