import Custody.Container.Reading

namespace Custody

/-!
# Tensors

Dense arrays of integers, reals or complex numbers.

* `Tensor.new` -- a new tensor of a type and dimensions.
* `Tensor.dataType` -- its element type.
-/

/-- A dense array. -/
abbrev Tensor : Type := Container .tensor

/-- Refuses dimensions of which one is negative, naming the first such. -/
def checkDims (k : Kind) (dims : List Int) : Except Error Unit :=
  match dims.find? (· < 0) with
  | some d => .error (.invalidArgument (.negativeDimension k d))
  | none => .ok ()

namespace Tensor

/-- Makes a tensor, which belongs to the caller. -/
def new (ctx : Context) (type : TensorType) (dims : List Int) : Attempt Tensor := do
  checkDims .tensor dims
  Container.obtain ctx (.newTensor (HostCode.code type) dims)
    (fun refusal => .newFailed .tensor refusal.code)
    (.allocatedTensor · type dims)

/-- The element type, if the host reports a known one. -/
def dataType (ctx : Context) (t : Tensor) : Dialogue (Option TensorType) :=
  t.typeAs TensorType ctx

end Tensor

end Custody
