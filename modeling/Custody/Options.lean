import Custody.Decimal.Shortest
import Custody.Decoding

namespace Custody

/-!
# Options of new images and of conversions

* `ImageOptions` -- geometry, pixel type and color space of a new image.
* `ImageRequest` -- the same as a caller gives it: every part may be left out, and types are
  still codes; `ImageRequest.options` fills in the standard values and decodes.
* `ConversionOptions` -- how the elements of a numeric array are converted.
-/

/-- Geometry, pixel type and color space of a new image.  An image without slices is flat. -/
structure ImageOptions where
  slices : Int := 0
  width : Int := 1
  height : Int := 1
  channels : Int := 1
  dataType : ImageDataType := .byte
  colorSpace : ColorSpace := .automatic
  interleaved : Bool := true
  deriving DecidableEq, Repr

namespace ImageOptions

/-- The options as they are shown in reports. -/
def shown (o : ImageOptions) : String :=
  s!"ImageOptions \x7b slices: {o.slices}, width: {o.width}, height: {o.height}, " ++
    s!"channels: {o.channels}, data_type: " ++ HostCode.name o.dataType ++ ", color_space: " ++
    HostCode.name o.colorSpace ++ s!", interleaved: {o.interleaved} \x7d"

/-- The error that the geometry of the image causes, if it has one. -/
def fault? (o : ImageOptions) : Option Error :=
  if o.width < 0 ∨ o.height < 0 ∨ o.slices < 0 ∨ o.channels ≤ 0 then
    some (.invalidArgument (.imageGeometry o.width o.height o.slices o.channels))
  else none

end ImageOptions

/-- Image options as a caller gives them: parts may be left out, types are codes. -/
structure ImageRequest where
  slices : Option Int := none
  width : Option Int := none
  height : Option Int := none
  channels : Option Int := none
  dataType : Option Int := none
  colorSpace : Option Int := none
  interleaved : Option Bool := none
  deriving DecidableEq, Repr

/-- Decodes a code that may be left out. -/
def HostCode.decodeOr {α : Type} [HostCode α] (standard : α) : Option Int → Except Error α
  | none => .ok standard
  | some n => HostCode.decode α n

/-- The options that the caller asks for.  Of two unknown codes that of the color space is
    reported. -/
def ImageRequest.options (r : ImageRequest) : Except Error ImageOptions := do
  let standard : ImageOptions := {}
  let colorSpace ← HostCode.decodeOr standard.colorSpace r.colorSpace
  let dataType ← HostCode.decodeOr standard.dataType r.dataType
  return { slices := r.slices.getD standard.slices
           width := r.width.getD standard.width
           height := r.height.getD standard.height
           channels := r.channels.getD standard.channels
           dataType
           colorSpace
           interleaved := r.interleaved.getD standard.interleaved }

/-- How the elements of a numeric array are converted. -/
structure ConversionOptions where
  method : ConversionMethod := .clipRound
  tolerance : Binary64 := .zero
  deriving DecidableEq, Repr

/-- The options as they are shown in reports. -/
def ConversionOptions.shown (o : ConversionOptions) : String :=
  "ConversionOptions \x7b method: " ++ HostCode.name o.method ++ ", tolerance: " ++
    o.tolerance.text .report ++ " \x7d"

end Custody
