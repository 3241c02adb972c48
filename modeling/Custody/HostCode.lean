namespace Custody

/-!
# Host codes

The host encodes element types, conversion methods and color spaces as integers.

* `HostCode` -- an enumeration whose members have a code and a name.
* `HostCode.ofCode?` -- the member with a given code; `ofCode?_code` says that reading a
  written code gives the member back.
-/

/-- An enumeration that the host writes as integers. -/
class HostCode (α : Type) where
  /-- What the codes stand for, as said in messages. -/
  subject : String
  all : List α
  code : α → Int
  name : α → String

namespace HostCode

/-- The member with this code, if there is one. -/
def ofCode? {α : Type} [HostCode α] (n : Int) : Option α :=
  (all : List α).find? fun a => code a == n

end HostCode

/-- Element types of a tensor. -/
inductive TensorType where
  | integer
  | real
  | complex
  deriving DecidableEq, Repr

/-- The codes and names of the element types of a tensor. -/
instance : HostCode TensorType where
  subject := "tensor type"
  all := [.integer, .real, .complex]
  code
    | .integer => 2
    | .real => 3
    | .complex => 4
  name
    | .integer => "Integer"
    | .real => "Real"
    | .complex => "Complex"

/-- Element types of a numeric array. -/
inductive NumericArrayType where
  | bit8
  | ubit8
  | bit16
  | ubit16
  | bit32
  | ubit32
  | bit64
  | ubit64
  | real32
  | real64
  | complexReal32
  | complexReal64
  deriving DecidableEq, Repr

/-- The codes and names of the element types of a numeric array. -/
instance : HostCode NumericArrayType where
  subject := "numeric array type"
  all := [.bit8, .ubit8, .bit16, .ubit16, .bit32, .ubit32, .bit64, .ubit64, .real32, .real64,
    .complexReal32, .complexReal64]
  code
    | .bit8 => 1
    | .ubit8 => 2
    | .bit16 => 3
    | .ubit16 => 4
    | .bit32 => 5
    | .ubit32 => 6
    | .bit64 => 7
    | .ubit64 => 8
    | .real32 => 9
    | .real64 => 10
    | .complexReal32 => 11
    | .complexReal64 => 12
  name
    | .bit8 => "Bit8"
    | .ubit8 => "UBit8"
    | .bit16 => "Bit16"
    | .ubit16 => "UBit16"
    | .bit32 => "Bit32"
    | .ubit32 => "UBit32"
    | .bit64 => "Bit64"
    | .ubit64 => "UBit64"
    | .real32 => "Real32"
    | .real64 => "Real64"
    | .complexReal32 => "ComplexReal32"
    | .complexReal64 => "ComplexReal64"

/-- Ways to convert the elements of a numeric array. -/
inductive ConversionMethod where
  | check
  | clipCheck
  | coerce
  | clipCoerce
  | round
  | clipRound
  | scale
  | clipScale
  deriving DecidableEq, Repr

/-- The codes and names of the methods of conversion. -/
instance : HostCode ConversionMethod where
  subject := "conversion method"
  all := [.check, .clipCheck, .coerce, .clipCoerce, .round, .clipRound, .scale, .clipScale]
  code
    | .check => 1
    | .clipCheck => 2
    | .coerce => 3
    | .clipCoerce => 4
    | .round => 5
    | .clipRound => 6
    | .scale => 7
    | .clipScale => 8
  name
    | .check => "Check"
    | .clipCheck => "ClipCheck"
    | .coerce => "Coerce"
    | .clipCoerce => "ClipCoerce"
    | .round => "Round"
    | .clipRound => "ClipRound"
    | .scale => "Scale"
    | .clipScale => "ClipScale"

/-- Pixel types of an image. -/
inductive ImageDataType where
  | bit
  | byte
  | bit16
  | real32
  | real64
  deriving DecidableEq, Repr

/-- The codes and names of the element types of an image. -/
instance : HostCode ImageDataType where
  subject := "image data type"
  all := [.bit, .byte, .bit16, .real32, .real64]
  code
    | .bit => 1
    | .byte => 2
    | .bit16 => 3
    | .real32 => 4
    | .real64 => 5
  name
    | .bit => "Bit"
    | .byte => "Byte"
    | .bit16 => "Bit16"
    | .real32 => "Real32"
    | .real64 => "Real64"

/-- Color spaces of an image. -/
inductive ColorSpace where
  | undefined
  | gray
  | rgb
  | hsb
  | cmyk
  | xyz
  | luv
  | lab
  | lch
  | automatic
  deriving DecidableEq, Repr

/-- The codes and names of the color spaces. -/
instance : HostCode ColorSpace where
  subject := "color space"
  all := [.undefined, .gray, .rgb, .hsb, .cmyk, .xyz, .luv, .lab, .lch, .automatic]
  code
    | .undefined => -1
    | .gray => 0
    | .rgb => 1
    | .hsb => 2
    | .cmyk => 3
    | .xyz => 4
    | .luv => 5
    | .lab => 6
    | .lch => 7
    | .automatic => 8
  name
    | .undefined => "Undefined"
    | .gray => "Gray"
    | .rgb => "Rgb"
    | .hsb => "Hsb"
    | .cmyk => "Cmyk"
    | .xyz => "Xyz"
    | .luv => "Luv"
    | .lab => "Lab"
    | .lch => "Lch"
    | .automatic => "Automatic"

namespace HostCode

/-! ### Reading a written code gives the member back -/

/-- The code of an element type of a tensor stands for that type. -/
theorem TensorType.ofCode?_code (t : TensorType) : ofCode? (code t) = some t := by
  cases t <;> rfl

/-- The same of the element types of a numeric array. -/
theorem NumericArrayType.ofCode?_code (t : NumericArrayType) : ofCode? (code t) = some t := by
  cases t <;> rfl

/-- The same of the methods of conversion. -/
theorem ConversionMethod.ofCode?_code (m : ConversionMethod) : ofCode? (code m) = some m := by
  cases m <;> rfl

/-- The same of the element types of an image. -/
theorem ImageDataType.ofCode?_code (t : ImageDataType) : ofCode? (code t) = some t := by
  cases t <;> rfl

/-- The same of the color spaces. -/
theorem ColorSpace.ofCode?_code (s : ColorSpace) : ofCode? (code s) = some s := by
  cases s <;> rfl

end HostCode

end Custody
