import ObjectStore.Object.Error
import ObjectStore.Object.Value
import ObjectStore.SortedMap

/-!
# Objects

An object is an ID and a finite map from slots to values.  Its bytes are an array of the ID and
the map, slots ascending, everything in its shortest form (`Object.encode`).  `Object.decode`
reads every spelling of such an array.
-/

namespace ObjectStore

/-- The number of an object within its entity type. -/
abbrev ObjectId := UInt64

/-- An ID with scalar fields in numbered slots. -/
structure Object where
  /-- The object's ID. -/
  id : ObjectId
  /-- The values by slot. -/
  fields : SortedMap Slot Value
  deriving DecidableEq

namespace Object

/-! ## Encoding -/

/-- The encoding of one field. -/
def encodeField (field : Slot × Value) : Bytes :=
  Cbor.Head.write (.unsigned field.1.toNat) ++ field.2.encode

/-- The bytes of an object. -/
def encode (o : Object) : Bytes :=
  Cbor.Head.write (.array (some 2)) ++
    (Cbor.Head.write (.unsigned o.id.toNat) ++
      (Cbor.Head.write (.map (some o.fields.size)) ++ o.fields.entries.flatMap encodeField))

/-! ## Decoding -/

/-- The ID that an item stands for. -/
def idOfItem : Cbor.Item → Except ObjectError ObjectId
  | .int n =>
    if 0 ≤ n ∧ n < 0x10000000000000000 then .ok (UInt64.ofNat n.toNat)
    else .error (.invalidStructure .idOutOfRange)
  | _ => .error (.invalidStructure .idNotInteger)

/-- The slot that an item stands for. -/
def slotOfItem : Cbor.Item → Except ObjectError Slot
  | .int n =>
    if 0 ≤ n ∧ n < 0x10000 then .ok (UInt16.ofNat n.toNat)
    else .error (.invalidStructure .slotOutOfRange)
  | _ => .error (.invalidStructure .slotNotInteger)

/-- Adds one entry of the field map: first its slot is judged, then its value, then whether the slot
was there before. -/
def addEntry (fields : SortedMap Slot Value) (entry : Cbor.Item × Cbor.Item) :
    Except ObjectError (SortedMap Slot Value) := do
  let slot ← slotOfItem entry.1
  match Value.ofItem? entry.2 with
  | none => throw (.invalidStructure (.unsupportedValue slot))
  | some value =>
    if fields.contains slot then throw (.duplicateSlot slot)
    else return fields.insert slot value

/-- The object that a decoded item stands for. -/
def ofItem : Cbor.Item → Except ObjectError Object
  | .array [first, second] => do
    let id ← idOfItem first
    match second with
    | .map entries =>
      let fields ← entries.foldlM addEntry ∅
      return ⟨id, fields⟩
    | _ => throw (.invalidStructure .fieldsNotMap)
  | _ => .error (.invalidStructure .notPair)

/-- Reads an object from the front of some bytes. -/
def decode (bs : Bytes) : Except ObjectError Object :=
  match Cbor.Item.decode bs with
  | .ok item => ofItem item
  | .error cause => .error (.decodingFailed (.unreadable cause))

/-! ## Fields -/

/-- Whether an object has no fields. -/
def isEmpty (o : Object) : Bool := o.fields.size == 0

/-- The value in a slot. -/
def field (o : Object) (slot : Slot) : Except ObjectError Value :=
  match o.fields.get? slot with
  | some value => .ok value
  | none => .error (.missingField slot)

/-- The value in a slot, taken as one of the given kind. -/
def fieldAs {α : Type} (kind : FieldKind) (as? : Value → Option α) (o : Object) (slot : Slot) :
    Except ObjectError α := do
  match as? (← o.field slot) with
  | some a => return a
  | none => throw (.typeMismatch slot kind)

/-- The text in a slot. -/
def text (o : Object) (slot : Slot) : Except ObjectError String :=
  o.fieldAs .text Value.asText? slot

/-- The integer in a slot. -/
def int (o : Object) (slot : Slot) : Except ObjectError Int64 :=
  o.fieldAs .int Value.asInt? slot

/-- The truth value in a slot. -/
def bool (o : Object) (slot : Slot) : Except ObjectError Bool :=
  o.fieldAs .bool Value.asBool? slot

/-- The bits of the number in binary format in a slot. -/
def float (o : Object) (slot : Slot) : Except ObjectError UInt64 :=
  o.fieldAs .float Value.asFloat? slot

/-- The bytes in a slot. -/
def bytes (o : Object) (slot : Slot) : Except ObjectError Bytes :=
  o.fieldAs .bytes Value.asBytes? slot

/-- The field in a slot, which has to be of the given kind. -/
def fieldOfKind (o : Object) (slot : Slot) : FieldKind → Except ObjectError Value
  | .text => (o.text slot).map .text
  | .int => (o.int slot).map .int
  | .bool => (o.bool slot).map .bool
  | .float => (o.float slot).map .float
  | .bytes => (o.bytes slot).map .bytes

/-- Equality of objects with numbers in binary format compared as numbers. -/
def numEq (a b : Object) : Bool :=
  a.id == b.id && a.fields.keys == b.fields.keys &&
    (a.fields.values.zip b.fields.values).all fun (v, w) => v.numEq w

end Object

end ObjectStore
