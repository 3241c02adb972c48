import Custody.Handle
import Custody.HostCode
import Custody.Status
import Custody.Text.Quoted

namespace Custody

/-!
# Errors

An error names its cause; the wording and the code reported to the host are functions of it.

* `ArgumentFault`, `ConversionFault` -- what was wrong with an argument or a conversion.
* `Error` -- everything an operation of the library can fail with.
* `Error.message`, `Error.code`, `Error.shown` -- the sentence for the caller, the code for
  the host, and the form in reports.
-/

/-- What makes an argument unusable. -/
inductive ArgumentFault where
  | unknownCode (subject : String) (code : Int)
  | negativeDimension (kind : Kind) (dimension : Int)
  | imageGeometry (width height slices channels : Int)
  | emptySource (kind : Kind)
  | emptyArray
  | emptyStore
  | emptyValue (kind : Kind)
  | nulByte (offset : Nat)
  | other (text : String)
  deriving DecidableEq, Repr

namespace ArgumentFault

/-- The fault in words. -/
def text : ArgumentFault → String
  | unknownCode subject code => s!"unknown {subject} code {code}"
  | negativeDimension kind dimension =>
      s!"{kind.name} dimension must not be negative, got {dimension}"
  | imageGeometry width height slices channels =>
      s!"invalid image geometry: {width}x{height}x{slices} with {channels} channels"
  | emptySource kind => s!"cannot convert an empty {kind.name}"
  | emptyArray => "cannot set the implicit value of an empty SparseArray"
  | emptyStore => "cannot push to an empty DataStore"
  | emptyValue kind => s!"cannot push an empty {kind.name} to a DataStore"
  | nulByte offset =>
      s!"string contains a NUL byte: nul byte found in provided data at position: {offset}"
  | other text => text

end ArgumentFault

/-- Why a conversion gave no container. -/
inductive ConversionFault where
  | refused (type : NumericArrayType) (method : ConversionMethod) (code : Int)
  | noArray (type : NumericArrayType)
  | noImage (type : ImageDataType) (interleaved : Bool)
  | other (text : String)
  deriving DecidableEq, Repr

namespace ConversionFault

/-- The fault in words. -/
def text : ConversionFault → String
  | refused type method code =>
      "to " ++ HostCode.name type ++ " using " ++ HostCode.name method ++ " (" ++
        Status.name code ++ ")"
  | noArray type => "to " ++ HostCode.name type ++ ": host returned no array"
  | noImage type interleaved =>
      "to " ++ HostCode.name type ++ s!" (interleaved: {interleaved})"
  | other text => text

end ConversionFault

/-- Everything an operation of the library can fail with. -/
inductive Error where
  | createFromNull (kind : Kind)
  | hostUnavailable
  | missingFunction (kind : Kind) (function : String)
  | versionMismatch (expected found : Int)
  | newFailed (kind : Kind) (code : Int)
  | cloneFailed (kind : Kind) (code : Int)
  | conversionFailed (kind : Kind) (fault : ConversionFault)
  | sparseFailed (operation : String) (code : Int)
  | unknownPassingMode (text : String)
  | invalidArgument (fault : ArgumentFault)
  deriving DecidableEq, Repr

namespace Error

/-- The sentence for the caller. -/
def message : Error → String
  | createFromNull kind => s!"cannot create a generic {kind.name} container from a null handle"
  | hostUnavailable => "host context unavailable"
  | missingFunction kind function => s!"host does not provide {function} for {kind.name}"
  | versionMismatch expected found =>
      s!"host library version mismatch: expected {expected}, found {found}"
  | newFailed kind code => s!"failed to create new {kind.name} (" ++ Status.name code ++ ")"
  | cloneFailed kind code => s!"failed to clone {kind.name} (" ++ Status.name code ++ ")"
  | conversionFailed kind fault => s!"failed to convert {kind.name}: " ++ fault.text
  | sparseFailed operation code =>
      s!"sparse array {operation} failed (" ++ Status.name code ++ ")"
  | unknownPassingMode text => "unknown passing mode: " ++ text
  | invalidArgument fault => "invalid argument: " ++ fault.text

/-- The code reported to the host: its own status where it gave one, otherwise the code of
    the cause. -/
def code : Error → Int
  | newFailed _ code => code
  | cloneFailed _ code => code
  | sparseFailed _ code => code
  | versionMismatch .. => Status.versionError
  | createFromNull _ => Status.memoryError
  | _ => Status.functionError

/-- The name of the cause. -/
def name : Error → String
  | createFromNull _ => "CreateFromNull"
  | hostUnavailable => "HostContextUnavailable"
  | missingFunction .. => "MissingHostFunction"
  | versionMismatch .. => "VersionMismatch"
  | newFailed .. => "NewFailed"
  | cloneFailed .. => "CloneFailed"
  | conversionFailed .. => "ConversionFailed"
  | sparseFailed .. => "SparseArrayFailed"
  | unknownPassingMode _ => "UnknownPassingMode"
  | invalidArgument _ => "InvalidArgument"

/-- The details of the cause as they follow its name in reports. -/
def details : Error → String
  | createFromNull kind => s!"({kind.name})"
  | hostUnavailable => ""
  | missingFunction kind function =>
      s!" \x7b kind: {kind.name}, function: " ++ Text.quoted function ++ " \x7d"
  | versionMismatch expected found => s!" \x7b expected: {expected}, found: {found} \x7d"
  | newFailed kind code => s!" \x7b kind: {kind.name}, code: {code} \x7d"
  | cloneFailed kind code => s!" \x7b kind: {kind.name}, code: {code} \x7d"
  | conversionFailed kind fault =>
      s!" \x7b kind: {kind.name}, reason: " ++ Text.quoted fault.text ++ " \x7d"
  | sparseFailed operation code =>
      " \x7b op: " ++ Text.quoted operation ++ s!", code: {code} \x7d"
  | unknownPassingMode text => "(" ++ Text.quoted text ++ ")"
  | invalidArgument fault => "(" ++ Text.quoted fault.text ++ ")"

/-- The error as it is shown in reports. -/
def shown (e : Error) : String := e.name ++ e.details

/-- Whether a wrapper was asked for a null handle. -/
def isCreateFromNull : Error → Bool
  | createFromNull _ => true
  | _ => false

/-- Whether the host lacks what the operation needs. -/
def isHostUnavailable : Error → Bool
  | hostUnavailable => true
  | missingFunction .. => true
  | _ => false

/-- Whether the host could not make a container. -/
def isAllocationFailure : Error → Bool
  | newFailed .. => true
  | cloneFailed .. => true
  | _ => false

end Error

end Custody
