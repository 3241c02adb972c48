import Custody.Decimal.Binary64
import Custody.Handle
import Custody.Status

namespace Custody

/-!
# Calls to the host

The library acts on resources only by calling entries of the host's tables.

* `Call` -- the calls it can make, with their arguments; `Call.entry` is the table entry
  through which each of them goes.
* `Shape` -- what an entry answers with; `Call.Answer` is the type of a call's answer.
* `Reply`, `Refusal`, `Shape.granted` -- the handle that an answer grants, or why it grants none.
-/

/-- An entry of one of the host's tables. -/
structure Entry where
  table : Kind
  function : String
  deriving DecidableEq, Repr

/-- Whole-number facts that the host tells about a container. -/
inductive Query where
  | shareCount
  | type
  | rank
  | flattenedLength
  | rowCount
  | columnCount
  | sliceCount
  | channels
  | alphaChannel
  | interleaved
  | colorSpace
  | length
  deriving DecidableEq, Repr

/-- The entry that answers a query, by the table it stands in. -/
def Query.function (k : Kind) : Query → String
  | shareCount => "share_count"
  | type => if k = .image then "get_data_type" else "get_type"
  | rank => "get_rank"
  | flattenedLength => "get_flattened_length"
  | rowCount => "get_row_count"
  | columnCount => "get_column_count"
  | sliceCount => "get_slice_count"
  | channels => "get_channels"
  | alphaChannel => "alpha_channel_q"
  | interleaved => "interleaved_q"
  | colorSpace => "get_color_space"
  | length => "get_length"

/-- Whether a query is answered in 32 bits: codes of types and color spaces, and truth values.
    Tensor types and all counts have 64. -/
def Query.isNarrow (k : Kind) : Query → Bool
  | type => k = .numericArray ∨ k = .image
  | alphaChannel | interleaved | colorSpace => true
  | _ => false

/-- A number as the word of an answer holds it. -/
def Query.word (k : Kind) (q : Query) (n : Int) : Int :=
  if q.isNarrow k then n.bmod Int32.size else n

/-- The tensors inside a sparse array. -/
inductive Member where
  | implicitValue
  | explicitValues
  deriving DecidableEq, Repr

/-- The member as it is written in messages. -/
def Member.name : Member → String
  | implicitValue => "implicit_value"
  | explicitValues => "explicit_values"

/-- The member that a name stands for, if it is one. -/
def Member.ofName? (text : String) : Option Member :=
  [implicitValue, explicitValues].find? (·.name == text)

/-- Values that a data store copies. -/
inductive Plain where
  | boolean (value : Bool)
  | integer (value : Int)
  | real (value : Binary64)
  | complex (re im : Binary64)
  | string (value : String)
  deriving DecidableEq, Repr

/-- The type of the value as it names an entry of the data store table. -/
def Plain.typeName : Plain → String
  | boolean _ => "boolean"
  | integer _ => "integer"
  | real _ => "real"
  | complex .. => "complex"
  | string _ => "string"

/-- What an entry adds to a data store: a value, or a container that the store takes over. -/
inductive Item where
  | plain (value : Plain)
  | container (kind : Kind) (handle : Handle)
  deriving DecidableEq, Repr

/-- The type of the item as it names an entry of the data store table. -/
def Item.typeName : Item → String
  | plain value => value.typeName
  | container kind _ => kind.tableName

/-- The calls that the library makes. -/
inductive Call where
  | newTensor (type : Int) (dims : List Int)
  | newNumericArray (type : Int) (dims : List Int)
  | newFlatImage (width height channels type colorSpace : Int) (interleaved : Bool)
  | newSlicedImage (slices width height channels type colorSpace : Int) (interleaved : Bool)
  | createStore
  | clone (kind : Kind) (source : Handle)
  | convertNumericArray (source : Handle) (type method : Int) (tolerance : Binary64)
  | convertImage (source : Handle) (type : Int) (interleaved : Bool)
  | sparseFromTensor (data implicit : Handle)
  | sparseFromPositions (positions values extent implicit : Handle)
  | resetImplicit (array implicit : Handle)
  | explicitPositions (array : Handle)
  | toTensor (array : Handle)
  | read (kind : Kind) (query : Query) (handle : Handle)
  | dimensions (kind : Kind) (handle : Handle)
  | member (member : Member) (array : Handle)
  | free (kind : Kind) (handle : Handle)
  | disown (kind : Kind) (handle : Handle)
  | add (store : Handle) (name : Option String) (item : Item)
  deriving DecidableEq, Repr

/-! ### Entries -/

/-- The entry that copies a container. -/
def Entry.clone (k : Kind) : Entry := ⟨k, if k = .dataStore then "copy" else "clone"⟩

/-- The entry that destroys a container. -/
def Entry.free (k : Kind) : Entry := ⟨k, if k = .dataStore then "delete" else "free"⟩

/-- The entry that gives up a share of a container. -/
def Entry.disown (k : Kind) : Entry := ⟨k, "disown"⟩

/-- The entry that answers a query. -/
def Entry.read (k : Kind) (q : Query) : Entry := ⟨k, q.function k⟩

/-- The entry that gives the dimensions of a container. -/
def Entry.dimensions (k : Kind) : Entry := ⟨k, "get_dimensions"⟩

/-- The entry that gives a tensor inside a sparse array. -/
def Entry.member (m : Member) : Entry := ⟨.sparseArray, "get_" ++ m.name⟩

/-- The entry that adds an item to a data store, with or without a name. -/
def Entry.add (named : Bool) (typeName : String) : Entry :=
  ⟨.dataStore, (if named then "add_named_" else "add_") ++ typeName⟩

/-- The entry through which a call goes. -/
def Call.entry : Call → Entry
  | newTensor .. => ⟨.tensor, "new"⟩
  | newNumericArray .. => ⟨.numericArray, "new"⟩
  | newFlatImage .. => ⟨.image, "new_2d"⟩
  | newSlicedImage .. => ⟨.image, "new_3d"⟩
  | createStore => ⟨.dataStore, "create"⟩
  | clone kind _ => .clone kind
  | convertNumericArray .. => ⟨.numericArray, "convert_type"⟩
  | convertImage .. => ⟨.image, "convert_type"⟩
  | sparseFromTensor .. => ⟨.sparseArray, "from_tensor"⟩
  | sparseFromPositions .. => ⟨.sparseArray, "from_explicit_positions"⟩
  | resetImplicit .. => ⟨.sparseArray, "reset_implicit_value"⟩
  | explicitPositions _ => ⟨.sparseArray, "get_explicit_positions"⟩
  | toTensor _ => ⟨.sparseArray, "to_tensor"⟩
  | read kind query _ => .read kind query
  | dimensions kind _ => .dimensions kind
  | member m _ => .member m
  | free kind _ => .free kind
  | disown kind _ => .disown kind
  | add _ name item => .add name.isSome item.typeName

/-! ### Answers -/

/-- What an entry answers with. -/
inductive Shape where
  /-- A status, and a slot for a handle that the entry may fill. -/
  | outcome
  /-- A handle. -/
  | handle
  /-- A whole number. -/
  | integer
  /-- A list of dimensions, or nothing. -/
  | dimensions
  /-- A slot inside a container that holds a handle, or nothing. -/
  | slot
  | nothing
  deriving DecidableEq, Repr

/-- The answer of an entry that reports a status.  An empty slot was left as it was. -/
structure Reply where
  status : Int
  slot : Option Handle
  deriving DecidableEq, Repr

/-- The answers of a shape. -/
abbrev Shape.Answer : Shape → Type
  | outcome => Reply
  | handle => Handle
  | integer => Int
  | dimensions => Option (List Int)
  | slot => Option Handle
  | nothing => Unit

/-- What the entry of a call answers with.  Data stores are created and copied, and images
    converted, by entries that give a handle without a status. -/
abbrev Call.shape : Call → Shape
  | newTensor .. | newNumericArray .. | newFlatImage .. | newSlicedImage .. => .outcome
  | createStore => .handle
  | clone kind _ => if kind = .dataStore then .handle else .outcome
  | convertNumericArray .. => .outcome
  | convertImage .. => .handle
  | sparseFromTensor .. | sparseFromPositions .. | resetImplicit .. => .outcome
  | explicitPositions _ | toTensor _ => .outcome
  | read .. => .integer
  | dimensions .. => .dimensions
  | member .. => .slot
  | free .. | disown .. | add .. => .nothing

/-- A number as the word of the call's answer holds it. -/
def Call.word : Call → Int → Int
  | read kind query _, n => query.word kind n
  | _, n => n

/-- The type of a call's answer. -/
abbrev Call.Answer (c : Call) : Type := c.shape.Answer

/-- Why an answer grants no handle. -/
inductive Refusal where
  | status (code : Int)
  | nullHandle
  deriving DecidableEq, Repr

namespace Refusal

/-- The status that the caller is told: the host's own, or the memory code where the host
    reported success or nothing and still gave no handle. -/
def code : Refusal → Int
  | status code => code
  | nullHandle => Status.memoryError

end Refusal

/-- A handle as a grant, unless it is null. -/
def Handle.granted (h : Handle) : Except Refusal Handle :=
  if h.isNull then .error .nullHandle else .ok h

/-- The handle that an answer grants, where `initial` stood in the slot before the call. -/
def Shape.granted (initial : Handle) : (s : Shape) → s.Answer → Except Refusal Handle
  | .outcome, reply =>
    if reply.status = Status.noError then (reply.slot.getD initial).granted
    else .error (.status reply.status)
  | .handle, h => h.granted
  | .integer, _ | .dimensions, _ | .slot, _ | .nothing, _ => .error .nullHandle

/-! ### Recorded form -/

/-- An argument of a call as it is recorded. -/
inductive Argument where
  | number (value : Int)
  | numbers (values : List Int)
  | bits (value : Binary64)
  | text (value : String)
  deriving DecidableEq, Repr

namespace Argument

/-- A handle is recorded by the number of its resource. -/
def handle (h : Handle) : Argument := .number h.number

/-- A truth value is recorded as 0 or 1. -/
def flag (b : Bool) : Argument := .number (if b then 1 else 0)

end Argument

/-- The arguments that an added item is recorded with. -/
def Item.arguments : Item → List Argument
  | .plain (.boolean b) => [.flag b]
  | .plain (.integer n) => [.number n]
  | .plain (.real x) => [.bits x]
  | .plain (.complex re im) => [.bits re, .bits im]
  | .plain (.string s) => [.text s]
  | .container _ h => [.handle h]

/-- The arguments of a call in the order of the table, less the slot for the result. -/
def Call.arguments : Call → List Argument
  | newTensor type dims | newNumericArray type dims =>
      [.number type, .number dims.length, .numbers dims]
  | newFlatImage width height channels type colorSpace interleaved =>
      [.number width, .number height, .number channels, .number type, .number colorSpace,
        .flag interleaved]
  | newSlicedImage slices width height channels type colorSpace interleaved =>
      [.number slices, .number width, .number height, .number channels, .number type,
        .number colorSpace, .flag interleaved]
  | createStore => []
  | clone _ source => [.handle source]
  | convertNumericArray source type method tolerance =>
      [.handle source, .number type, .number method, .bits tolerance]
  | convertImage source type interleaved => [.handle source, .number type, .flag interleaved]
  | sparseFromTensor data implicit => [.handle data, .handle implicit]
  | sparseFromPositions positions values extent implicit =>
      [.handle positions, .handle values, .handle extent, .handle implicit]
  | resetImplicit array implicit => [.handle array, .handle implicit]
  | explicitPositions array | toTensor array => [.handle array]
  | read _ _ h | dimensions _ h | member _ h | free _ h | disown _ h => [.handle h]
  | add store name item => .handle store :: (name.map .text).toList ++ item.arguments

end Custody
