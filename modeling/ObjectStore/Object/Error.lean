import ObjectStore.Cbor.Input

/-!
# Errors of objects

What can go wrong while an object is built or read, as causes; `ObjectError.message` words them.
-/

namespace ObjectStore

/-- The number of a field within an object. -/
abbrev Slot := UInt16

/-- A builder call out of order. -/
inductive Misuse
  /-- An object is started while another one is in progress. -/
  | objectInProgress
  /-- A field is added where no object is in progress. -/
  | noObjectInProgress
  /-- An object is completed that was not started. -/
  | notStarted
  /-- A ticket is used after the builder was reset. -/
  | staleTicket
  /-- An object is encoded that is not complete. -/
  | notComplete
  /-- The bytes of an object are asked for that was not encoded. -/
  | notPacked
  /-- A misuse in the caller's words. -/
  | described (text : String)
  deriving DecidableEq, Repr

/-- The wording of a misuse. -/
def Misuse.message : Misuse → String
  | .objectInProgress => "start_object called while another object is in progress"
  | .noObjectInProgress => "add_field called outside start_object/end_object"
  | .notStarted => "end_object called without start_object"
  | .staleTicket => "object handle belongs to a previous builder generation"
  | .notComplete => "finish called before end_object"
  | .notPacked => "no finished object"
  | .described text => text

/-- Why a decoded item is no object. -/
inductive ShapeError
  /-- The item is no array of two items. -/
  | notPair
  /-- The ID is an integer outside its range. -/
  | idOutOfRange
  /-- The ID is no integer. -/
  | idNotInteger
  /-- The fields are no map. -/
  | fieldsNotMap
  /-- A slot is an integer outside its range. -/
  | slotOutOfRange
  /-- A slot is no integer. -/
  | slotNotInteger
  /-- The value in this slot is of no kind that fields have. -/
  | unsupportedValue (slot : Slot)
  /-- A wrong shape in the caller's words. -/
  | described (text : String)
  deriving DecidableEq, Repr

/-- The wording of a wrong shape. -/
def ShapeError.message : ShapeError → String
  | .notPair => "expected [id, fields]"
  | .idOutOfRange => "object ID out of range"
  | .idNotInteger => "object ID must be an integer"
  | .fieldsNotMap => "fields must be a map"
  | .slotOutOfRange => "field slot out of range"
  | .slotNotInteger => "field slot must be an integer"
  | .unsupportedValue slot => "unsupported value in slot " ++ toString slot
  | .described text => text

/-- Why bytes could not be decoded. -/
inductive DecodeError
  /-- The bytes are not an encoded item. -/
  | unreadable (cause : Cbor.ReadError)
  /-- A cause in the caller's words. -/
  | described (text : String)
  deriving DecidableEq, Repr

/-- The wording of a decoding error. -/
def DecodeError.message : DecodeError → String
  | .unreadable cause => cause.message
  | .described text => text

/-- The kinds of values that can be asked for. -/
inductive FieldKind
  | text
  | int
  | bool
  | float
  | bytes
  deriving DecidableEq, Repr

/-- The name of a kind. -/
def FieldKind.name : FieldKind → String
  | .text => "text"
  | .int => "int"
  | .bool => "bool"
  | .float => "float"
  | .bytes => "bytes"

/-- What can go wrong while an object is built or read. -/
inductive ObjectError
  /-- The builder was used out of order. -/
  | invalidState (cause : Misuse)
  /-- A slot was written twice for one object. -/
  | duplicateSlot (slot : Slot)
  /-- The object could not be encoded. -/
  | encodingFailed (text : String)
  /-- The bytes could not be decoded. -/
  | decodingFailed (cause : DecodeError)
  /-- The decoded item is no object. -/
  | invalidStructure (cause : ShapeError)
  /-- The field is absent. -/
  | missingField (slot : Slot)
  /-- The field holds a value of another kind. -/
  | typeMismatch (slot : Slot) (expected : FieldKind)
  deriving DecidableEq, Repr

/-- The wording of an error. -/
def ObjectError.message : ObjectError → String
  | .invalidState cause => "invalid builder state: " ++ cause.message
  | .duplicateSlot slot => "field slot " ++ toString slot ++ " written twice"
  | .encodingFailed text => "encoding failed: " ++ text
  | .decodingFailed cause => "decoding failed: " ++ cause.message
  | .invalidStructure cause => "invalid object structure: " ++ cause.message
  | .missingField slot => "missing field in slot " ++ toString slot
  | .typeMismatch slot expected =>
    "field in slot " ++ toString slot ++ " is not " ++ expected.name

end ObjectStore
