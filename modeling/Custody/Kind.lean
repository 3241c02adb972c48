namespace Custody

/-!
# Kinds of container

A host keeps containers of five kinds.  The kind decides which table of host entries serves
the container, how its handles are written, and whether the host may share it.

* `Kind.name` -- the kind as it is written in messages.
* `Kind.tableName` -- the kind as it names a table of host entries.
* `Kind.supportsSharing` -- every kind but the data store can be shared.
-/

/-- The kinds of container a host can hold. -/
inductive Kind where
  | tensor
  | numericArray
  | image
  | sparseArray
  | dataStore
  deriving DecidableEq, Repr

namespace Kind

/-- All kinds, in the order in which they are listed in reports. -/
def all : List Kind := [.tensor, .numericArray, .image, .sparseArray, .dataStore]

/-- The list of the kinds leaves none out. -/
theorem mem_all (k : Kind) : k ∈ all := by cases k <;> simp [all]

/-- The kind as it is written in messages. -/
def name : Kind → String
  | .tensor => "Tensor"
  | .numericArray => "NumericArray"
  | .image => "Image"
  | .sparseArray => "SparseArray"
  | .dataStore => "DataStore"

/-- The kind as it names a table of host entries. -/
def tableName : Kind → String
  | .tensor => "tensor"
  | .numericArray => "numeric_array"
  | .image => "image"
  | .sparseArray => "sparse_array"
  | .dataStore => "data_store"

/-- The kind that a name stands for, if it is one. -/
def ofName? (text : String) : Option Kind := all.find? (·.name == text)

/-- The place of the kind in `all`. -/
def index (k : Kind) : Nat := all.idxOf k

/-- Whether the host can hold a container of this kind together with its callers. -/
def supportsSharing : Kind → Bool
  | .dataStore => false
  | _ => true

/-- A kind is found under its own name. -/
theorem ofName?_name (k : Kind) : ofName? k.name = some k := by cases k <;> decide

end Kind

end Custody
