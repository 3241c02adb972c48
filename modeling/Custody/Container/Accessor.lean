import Custody.DataStore
import Custody.Image
import Custody.NumericArray
import Custody.SparseArray

namespace Custody

/-!
# Accessors by name

Everything that can be read from a container, under one name each.

* `Accessor` -- what can be read; `Accessor.ofKind` lists what a kind has, and
  `Accessor.ofName?` finds it there by name.
* `Reading` -- what reading gives.
* `Container.get` -- reads one accessor.
* `Container.describe` -- reads all accessors of the kind, in their order.
-/

/-- What can be read from a container. -/
inductive Accessor where
  | shareCount
  | queryType
  | rank
  | dimensions
  | flattenedLength
  | dataType
  | rows
  | columns
  | slices
  | channels
  | isSliced
  | hasAlphaChannel
  | isInterleaved
  | colorSpace
  | length
  | isEmpty
  deriving DecidableEq, Repr

namespace Accessor

/-- The accessor as it is written. -/
def name : Accessor → String
  | shareCount => "share_count"
  | queryType => "query_type"
  | rank => "rank"
  | dimensions => "dimensions"
  | flattenedLength => "flattened_length"
  | dataType => "data_type"
  | rows => "rows"
  | columns => "columns"
  | slices => "slices"
  | channels => "channels"
  | isSliced => "is_3d"
  | hasAlphaChannel => "has_alpha_channel"
  | isInterleaved => "is_interleaved"
  | colorSpace => "color_space"
  | length => "len"
  | isEmpty => "is_empty"

/-- The accessors of a kind, in the order in which a description reads them. -/
def ofKind : Kind → List Accessor
  | .tensor | .numericArray =>
      [.shareCount, .queryType, .rank, .dimensions, .flattenedLength, .dataType]
  | .image =>
      [.shareCount, .queryType, .rank, .rows, .columns, .slices, .channels, .isSliced,
        .hasAlphaChannel, .isInterleaved, .colorSpace, .dataType, .flattenedLength]
  | .sparseArray => [.shareCount, .queryType, .rank, .dimensions]
  | .dataStore => [.shareCount, .queryType, .length, .isEmpty]

/-- The accessor of a kind that a name stands for, if the kind has one of that name. -/
def ofName? (k : Kind) (text : String) : Option Accessor := (ofKind k).find? (·.name == text)

end Accessor

/-- What an accessor gives. -/
inductive Reading where
  | number (value : Int)
  | code (value : Option Int)
  | numbers (values : List Int)
  | flag (value : Bool)
  | word (value : Option String)
  deriving DecidableEq, Repr

namespace Container

/-- The name of the element type, if the kind has element types and the host reports a known
    one. -/
def typeName (ctx : Context) : {k : Kind} → Container k → Dialogue (Option String)
  | .tensor, c => do return (← Tensor.dataType ctx c).map HostCode.name
  | .numericArray, c => do return (← NumericArray.dataType ctx c).map HostCode.name
  | .image, c => do return (← Image.dataType ctx c).map HostCode.name
  | .sparseArray, _ => return none
  | .dataStore, _ => return none

/-- Reads one accessor of a container.  Accessors that the kind lacks read as for an empty
    container. -/
def get (ctx : Context) : {k : Kind} → Accessor → Container k → Dialogue Reading
  | _, .shareCount, c => do return .number (← c.shareCount ctx)
  | _, .queryType, c => do return .code (← c.queryType ctx)
  | _, .rank, c => do return .number (← c.rank ctx)
  | _, .dimensions, c => do return .numbers (← c.dimensions ctx)
  | _, .flattenedLength, c => do return .number (← c.flattenedLength ctx)
  | _, .dataType, c => do return .word (← c.typeName ctx)
  | .image, .rows, c => do return .number (← Image.rows ctx c)
  | .image, .columns, c => do return .number (← Image.columns ctx c)
  | .image, .slices, c => do return .number (← Image.slices ctx c)
  | .image, .channels, c => do return .number (← Image.channels ctx c)
  | .image, .isSliced, c => do return .flag (← Image.isSliced ctx c)
  | .image, .hasAlphaChannel, c => do return .flag (← Image.hasAlphaChannel ctx c)
  | .image, .isInterleaved, c => do return .flag (← Image.isInterleaved ctx c)
  | .image, .colorSpace, c => do
    return .word ((← Image.colorSpace ctx c).map HostCode.name)
  | .dataStore, .length, c => do return .number (← DataStore.length ctx c)
  | .dataStore, .isEmpty, c => do return .flag (← DataStore.isEmpty ctx c)
  | _, .rows, _ | _, .columns, _ | _, .slices, _ | _, .channels, _ | _, .length, _ =>
      return .number 0
  | _, .isSliced, _ | _, .hasAlphaChannel, _ | _, .isInterleaved, _ => return .flag false
  | _, .isEmpty, _ => return .flag true
  | _, .colorSpace, _ => return .word none

/-- Reads all accessors of the kind, in their order. -/
def describe {k : Kind} (ctx : Context) (c : Container k) :
    Dialogue (List (Accessor × Reading)) :=
  (Accessor.ofKind k).mapM fun a => do return (a, ← c.get ctx a)

end Container

end Custody
