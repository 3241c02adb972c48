import Custody.Tensor

namespace Custody

/-!
# Sparse arrays

An array of which only the elements that differ from an implicit value are stored.  It holds
two tensors, the implicit value and the explicit values.

* `SparseArray.ofTensor`, `SparseArray.ofPositions` -- new arrays.
* `SparseArray.member` -- a view of one of the two tensors.
* `SparseArray.explicitPositions`, `SparseArray.toTensor` -- tensors computed from an array.
* `SparseArray.setImplicitValue` -- an array with another implicit value, in place or anew.
-/

/-- An array of explicit elements over an implicit value. -/
abbrev SparseArray : Type := Container .sparseArray

namespace SparseArray

/-- The handle of a tensor that may be left out. -/
def handleOrNull (t : Option Tensor) : Handle := (t.map (·.handle)).getD .null

/-- The error of an operation to which the host granted no container. -/
def failed (operation : String) (refusal : Refusal) : Error := .sparseFailed operation refusal.code

/-- Makes a sparse array from a dense one.  Without an implicit value the host picks one. -/
def ofTensor (ctx : Context) (data : Tensor) (implicit : Option Tensor) : Attempt SparseArray :=
  Container.obtain ctx (.sparseFromTensor data.handle (handleOrNull implicit))
    (failed "from_tensor") (.builtFromTensor · data.handle)

/-- Makes a sparse array of given size from positions and the values that stand there. -/
def ofPositions (ctx : Context) (positions values size : Tensor) (implicit : Option Tensor) :
    Attempt SparseArray :=
  Container.obtain ctx
    (.sparseFromPositions positions.handle values.handle size.handle (handleOrNull implicit))
    (failed "from_positions") .builtFromPositions

/-- A view of one of the tensors inside the array. -/
def member (ctx : Context) (m : Member) (a : SparseArray) : Attempt Tensor := do
  ctx.require (.member m)
  let failure : Error := .sparseFailed m.name Status.functionError
  if a.isNull then throw failure
  match ← a.memberSlot m with
  | none => throw failure
  | some h => Container.wrap h .hostManaged

/-- Makes a tensor computed from the array, which belongs to the caller. -/
def computed (ctx : Context) (operation : String) (call : Call) (a : SparseArray) :
    Attempt Tensor := do
  ctx.require call.entry
  if a.isNull then throw (.sparseFailed operation Status.functionError)
  Container.adopt call (failed operation) (.computed operation a.handle)

/-- The positions of the explicit elements, one row each. -/
def explicitPositions (ctx : Context) (a : SparseArray) : Attempt Tensor :=
  computed ctx "explicit_positions" (.explicitPositions a.handle) a

/-- The dense form of the array. -/
def toTensor (ctx : Context) (a : SparseArray) : Attempt Tensor :=
  computed ctx "to_tensor" (.toTensor a.handle) a

/-- Changes the implicit value in place; without one, drops the explicit elements that equal the
    present value.  The host answers with the array itself, which keeps its tag, or with a new one,
    which belongs to the caller and replaces the old.  The wrapper is there after every exit. -/
def setImplicitValue (ctx : Context) (a : SparseArray) (implicit : Option Tensor) :
    Dialogue (Except Error Unit × SparseArray) := do
  if a.isNull then return (.error (.invalidArgument .emptyArray), a)
  let call : Call := .resetImplicit a.handle (handleOrNull implicit)
  match ctx.require call.entry with
  | .error e => return (.error e, a)
  | .ok _ =>
    match ← Dialogue.request call a.handle with
    | .error refusal => return (.error (failed "set_implicit_value" refusal), a)
    | .ok h =>
      let ownership := if h = a.handle then a.ownership else .callerOwned
      .tell (.implicitReset a.handle h ownership)
      return (.ok (), ← a.reset ctx h ownership)

/-- Drops the explicit elements that equal the implicit value. -/
def resparsify (ctx : Context) (a : SparseArray) : Dialogue (Except Error Unit × SparseArray) :=
  setImplicitValue ctx a none

end SparseArray

end Custody
