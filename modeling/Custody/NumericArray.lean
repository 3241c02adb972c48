import Custody.Tensor

namespace Custody

/-!
# Numeric arrays

Buffers of numbers of one of twelve machine types.

* `NumericArray.new` -- a new array of a type and dimensions.
* `NumericArray.convert` -- a copy with elements of another type.
-/

/-- A typed buffer of numbers. -/
abbrev NumericArray : Type := Container .numericArray

namespace NumericArray

/-- Makes a numeric array, which belongs to the caller. -/
def new (ctx : Context) (type : NumericArrayType) (dims : List Int) : Attempt NumericArray := do
  checkDims .numericArray dims
  Container.obtain ctx (.newNumericArray (HostCode.code type) dims)
    (fun refusal => .newFailed .numericArray refusal.code)
    (.allocatedNumericArray · type dims)

/-- The element type, if the host reports a known one. -/
def dataType (ctx : Context) (a : NumericArray) : Dialogue (Option NumericArrayType) :=
  a.typeAs NumericArrayType ctx

/-- Why a conversion gave no array. -/
def conversionFault (type : NumericArrayType) (method : ConversionMethod) :
    Refusal → ConversionFault
  | .status code => .refused type method code
  | .nullHandle => .noArray type

/-- Makes a copy with elements of another type, which belongs to the caller. -/
def convert (ctx : Context) (a : NumericArray) (type : NumericArrayType)
    (options : ConversionOptions) : Attempt NumericArray := do
  if a.isNull then throw (.invalidArgument (.emptySource .numericArray))
  Container.obtain ctx
    (.convertNumericArray a.handle (HostCode.code type) (HostCode.code options.method)
      options.tolerance)
    (fun refusal => .conversionFailed .numericArray (conversionFault type options.method refusal))
    (.convertedNumericArray a.handle · type options.method)

end NumericArray

end Custody
