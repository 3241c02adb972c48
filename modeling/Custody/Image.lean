import Custody.Container.Reading

namespace Custody

/-!
# Images

Flat images, and images made of slices.

* `Image.new` -- a new image; whether it has slices decides which entry makes it.
* `Image.convert` -- a copy with another pixel type.
* `Image.rows`, `Image.columns`, ... -- what the host tells about one.
-/

/-- A flat or sliced image. -/
abbrev Image : Type := Container .image

namespace Image

/-- The call that makes an image with these options. -/
def newCall (o : ImageOptions) : Call :=
  if o.slices = 0 then
    .newFlatImage o.width o.height o.channels (HostCode.code o.dataType)
      (HostCode.code o.colorSpace) o.interleaved
  else
    .newSlicedImage o.slices o.width o.height o.channels (HostCode.code o.dataType)
      (HostCode.code o.colorSpace) o.interleaved

/-- Makes an image, which belongs to the caller. -/
def new (ctx : Context) (o : ImageOptions) : Attempt Image := do
  if let some fault := o.fault? then throw fault
  Container.obtain ctx (newCall o) (fun refusal => .newFailed .image refusal.code)
    (.allocatedImage · o)

/-- The number of rows. -/
def rows (ctx : Context) (i : Image) : Dialogue Int := i.number ctx .rowCount

/-- The number of columns. -/
def columns (ctx : Context) (i : Image) : Dialogue Int := i.number ctx .columnCount

/-- The number of slices; a flat image has none. -/
def slices (ctx : Context) (i : Image) : Dialogue Int := i.number ctx .sliceCount

/-- The number of values per pixel. -/
def channels (ctx : Context) (i : Image) : Dialogue Int := i.number ctx .channels

/-- Whether the image is made of slices. -/
def isSliced (ctx : Context) (i : Image) : Dialogue Bool := do return (← i.rank ctx) == 3

/-- Whether the last channel is an alpha channel. -/
def hasAlphaChannel (ctx : Context) (i : Image) : Dialogue Bool := do
  return (← i.number ctx .alphaChannel) != 0

/-- Whether the values of a pixel are stored together. -/
def isInterleaved (ctx : Context) (i : Image) : Dialogue Bool := do
  return (← i.number ctx .interleaved) != 0

/-- The color space, if there is an image and the number read for it is a known code. -/
def colorSpace (ctx : Context) (i : Image) : Dialogue (Option ColorSpace) := do
  if i.isNull then return none
  return HostCode.ofCode? (← i.number ctx .colorSpace)

/-- The pixel type, if the host reports a known one. -/
def dataType (ctx : Context) (i : Image) : Dialogue (Option ImageDataType) :=
  i.typeAs ImageDataType ctx

/-- Makes a copy with another pixel type, which belongs to the caller. -/
def convert (ctx : Context) (i : Image) (type : ImageDataType) (interleaved : Bool) :
    Attempt Image := do
  if i.isNull then throw (.invalidArgument (.emptySource .image))
  Container.obtain ctx (.convertImage i.handle (HostCode.code type) interleaved)
    (fun _ => .conversionFailed .image (.noImage type interleaved))
    (.convertedImage i.handle · type interleaved)

end Image

end Custody
