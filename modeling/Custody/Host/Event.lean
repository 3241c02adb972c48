import Custody.Host.Call
import Custody.Options
import Custody.Ownership

namespace Custody

/-!
# The log

Each thing worth telling is an event of its own type; its level, its sentence and its fields
are functions of it.

* `Event` -- what the library logs.
* `Event.line` -- the event as one line.
-/

/-- How much an event matters. -/
inductive Level where
  | trace
  | debug
  | warn
  deriving DecidableEq, Repr

/-- The level as it stands in a line. -/
def Level.name : Level → String
  | trace => "TRACE"
  | debug => "DEBUG"
  | warn => "WARN"

/-- What the library logs. -/
inductive Event where
  /-- A context was opened; the list says which tables the host has. -/
  | opened (tables : List (Kind × Bool))
  | wrapping (kind : Kind) (handle : Handle) (ownership : Ownership)
  | cloned (kind : Kind) (source copy : Handle)
  | relinquishing (kind : Kind) (handle : Handle) (ownership : Ownership)
  | passed (kind : Kind) (handle : Handle) (ownership : Ownership)
  | noResultSlot (kind : Kind) (handle : Handle)
  | destroying (kind : Kind) (handle : Handle)
  | givingUpShare (kind : Kind) (handle : Handle)
  | cleanupMissing (kind : Kind) (function : String)
  | storeNeverShared (handle : Handle)
  | allocatedTensor (handle : Handle) (type : TensorType) (dims : List Int)
  | allocatedNumericArray (handle : Handle) (type : NumericArrayType) (dims : List Int)
  | allocatedImage (handle : Handle) (options : ImageOptions)
  | createdStore (handle : Handle)
  | convertedNumericArray (source handle : Handle) (type : NumericArrayType)
      (method : ConversionMethod)
  | convertedImage (source handle : Handle) (type : ImageDataType) (interleaved : Bool)
  | builtFromTensor (handle source : Handle)
  | builtFromPositions (handle : Handle)
  | computed (operation : String) (array tensor : Handle)
  | implicitReset (old new : Handle) (ownership : Ownership)
  | pushingCopy (kind : Kind) (handle : Handle)
  | pushed (store : Handle) (name : Option String) (typeName : String)
  deriving DecidableEq, Repr

namespace Event

/-- How much the event matters. -/
def level : Event → Level
  | wrapping .. | relinquishing .. | passed .. | storeNeverShared .. => .trace
  | pushingCopy .. | pushed .. => .trace
  | cleanupMissing .. => .warn
  | _ => .debug

/-- The event in words. -/
def message : Event → String
  | opened _ => "host context initialized"
  | wrapping .. => "wrapping container"
  | cloned .. => "cloned container"
  | relinquishing .. => "relinquishing container"
  | passed .. => "passed container to host"
  | noResultSlot .. => "result slot is null, container kept"
  | destroying .. => "destroying container"
  | givingUpShare .. => "relinquishing shared container"
  | cleanupMissing .. => "host cleanup function unavailable, resource left to the host"
  | storeNeverShared _ => "data stores are never shared, nothing to relinquish"
  | allocatedTensor .. => "allocated tensor"
  | allocatedNumericArray .. => "allocated numeric array"
  | allocatedImage .. => "allocated image"
  | createdStore _ => "created data store"
  | convertedNumericArray .. => "converted numeric array"
  | convertedImage .. => "converted image"
  | builtFromTensor .. => "built sparse array from tensor"
  | builtFromPositions _ => "built sparse array from explicit positions"
  | computed .. => "computed tensor from sparse array"
  | implicitReset .. => "reset sparse array implicit value"
  | pushingCopy .. => "pushing a copy of a container the caller does not own"
  | pushed .. => "pushed value"

/-- Dimensions as they are shown in a field. -/
def shownDims (dims : List Int) : String := "[" ++ ", ".intercalate (dims.map toString) ++ "]"

/-- A name that may be missing, as it is shown in a field. -/
def shownName : Option String → String
  | none => "None"
  | some name => "Some(" ++ Text.quoted name ++ ")"

/-- The details of the event, by name. -/
def fields : Event → List (String × String)
  | opened tables => tables.map fun (kind, present) => (kind.tableName, toString present)
  | wrapping kind handle ownership | passed kind handle ownership =>
      [("kind", kind.name), ("raw", handle.shown kind), ("ownership", ownership.name)]
  | cloned kind source copy =>
      [("kind", kind.name), ("source", source.shown kind), ("copy", copy.shown kind)]
  | relinquishing kind handle ownership =>
      [("kind", kind.name), ("raw", handle.shown kind), ("from", ownership.name)]
  | noResultSlot kind handle | destroying kind handle | givingUpShare kind handle =>
      [("kind", kind.name), ("raw", handle.shown kind)]
  | cleanupMissing kind function => [("kind", kind.name), ("function", function)]
  | storeNeverShared handle => [("raw", handle.shown .dataStore)]
  | allocatedTensor handle type dims =>
      [("raw", handle.shown .tensor), ("ty", HostCode.name type), ("dims", shownDims dims)]
  | allocatedNumericArray handle type dims =>
      [("raw", handle.shown .numericArray), ("ty", HostCode.name type),
        ("dims", shownDims dims)]
  | allocatedImage handle options =>
      [("raw", handle.shown .image), ("options", options.shown)]
  | createdStore handle => [("raw", handle.shown .dataStore)]
  | convertedNumericArray source handle type method =>
      [("source", source.shown .numericArray), ("raw", handle.shown .numericArray),
        ("ty", HostCode.name type), ("method", HostCode.name method)]
  | convertedImage source handle type interleaved =>
      [("source", source.shown .image), ("raw", handle.shown .image),
        ("ty", HostCode.name type), ("interleaved", toString interleaved)]
  | builtFromTensor handle source =>
      [("raw", handle.shown .sparseArray), ("source", source.shown .tensor)]
  | builtFromPositions handle => [("raw", handle.shown .sparseArray)]
  | computed operation array tensor =>
      [("op", operation), ("sparse", array.shown .sparseArray), ("tensor", tensor.shown .tensor)]
  | implicitReset old new ownership =>
      [("old", old.shown .sparseArray), ("new", new.shown .sparseArray),
        ("ownership", ownership.name)]
  | pushingCopy kind handle => [("kind", kind.name), ("raw", handle.shown kind)]
  | pushed store name typeName =>
      [("raw", store.shown .dataStore), ("name", shownName name), ("kind", typeName)]

/-- The event as one line: level, sentence and fields, separated by bars. -/
def line (e : Event) : String :=
  "|".intercalate
    (e.level.name :: e.message :: e.fields.map fun (name, value) => name ++ "=" ++ value)

end Event

end Custody
