import Custody.Depot.Lifetime
import Custody.Host.Dialogue

namespace Custody

/-!
# The depot as a host

How a depot with every entry in place answers the calls of the library.

* `Depot.make` -- the calls that make a resource.
* `Depot.number`, `Depot.dims`, `Depot.member` -- the calls that read one.
* `Depot.post` -- the calls that add to a data store.
* `Depot.host` -- all of them together.
* `Posting.text` -- an entry of a data store in words.
-/

/-! ### Texts of entries -/

/-- A stored item in words. -/
def Item.text : Item → String
  | .plain (.boolean b) => s!"boolean:{b}"
  | .plain (.integer n) => s!"integer:{n}"
  | .plain (.real x) => "real:" ++ x.text .entry
  | .plain (.complex re im) => "complex:" ++ re.text .entry ++ "+" ++ im.text .entry ++ "i"
  | .plain (.string s) => "string:" ++ s
  | .container kind h => s!"{kind.tableName}:{h.number}"

/-- An entry of a data store in words: its name, if it has one, and its item. -/
def Posting.text (p : Posting) : String :=
  match p.name with
  | none => p.item.text
  | some name => name ++ "=" ++ p.item.text

namespace Depot

/-! ### Making resources -/

/-- Makes a resource, unless a failure was asked for. -/
def create (d : Depot) (r : Resource) : Except Int Handle × Depot :=
  match d.failNew with
  | some code => (.error code, { d with failNew := none })
  | none =>
    let (h, d) := d.alloc r
    (.ok h, d)

/-- Copies a resource for an entry, which fails if the source is not alive. -/
def copied (d : Depot) (operation : String) (source : Handle) : Except Int Handle × Depot :=
  match d.duplicate operation source with
  | (none, d) => (.error Status.functionError, d)
  | (some h, d) => (.ok h, d)

/-- Copies a resource, unless a failure was asked for. -/
def clone (d : Depot) (source : Handle) : Except Int Handle × Depot :=
  match d.failClone with
  | some code => (.error code, { d with failClone := none })
  | none => d.copied "clone" source

/-- Copies a resource with changes, unless a failure was asked for. -/
def convert (d : Depot) (source : Handle) (change : Resource → Resource) :
    Except Int Handle × Depot :=
  match d.failConvert with
  | some code => (.error code, { d with failConvert := none })
  | none =>
    match d.copied "convert" source with
    | (.error code, d) => (.error code, d)
    | (.ok h, d) => (.ok h, d.modify h change)

/-- The element type of a resource that an entry reads from. -/
def typeOf (d : Depot) (operation : String) (h : Handle) : Except Int Int × Depot :=
  match d.live? h with
  | none => (.error Status.functionError, d.use operation h)
  | some r => (.ok r.typeCode, d)

/-- Makes a sparse array with the element type of the implicit value if there is one, otherwise
    with that of the source. -/
def createSparse (d : Depot) (operation : String) (source : Handle) (dims : List Int)
    (implicit : Handle) : Except Int Handle × Depot :=
  match d.failNew with
  | some code => (.error code, { d with failNew := none })
  | none =>
    match d.typeOf operation source with
    | (.error code, d) => (.error code, d)
    | (.ok sourceType, d) =>
      let (type, d) :=
        if implicit.isNull then (.ok sourceType, d) else d.typeOf operation implicit
      match type with
      | .error code => (.error code, d)
      | .ok type =>
        let (h, d) := d.allocSparse type dims
        (.ok h, d)

/-- Gives a sparse array and its implicit value another element type. -/
def retype (d : Depot) (h : Handle) (type : Int) : Depot :=
  match d.find? h with
  | none => d
  | some r =>
    let d := d.modify h fun r => { r with typeCode := type }
    match r.members with
    | none => d
    | some (implicit, _) => d.modify implicit fun r => { r with typeCode := type }

/-- Changes the implicit value of a sparse array, in the array itself or in a copy. -/
def resetImplicit (d : Depot) (array implicit : Handle) : Except Int Handle × Depot :=
  let operation := "reset_implicit_value"
  let (type, d) : Except Int (Option Int) × Depot :=
    if implicit.isNull then (.ok none, d)
    else
      let (type, d) := d.typeOf operation implicit
      (type.map some, d)
  match type with
  | .error code => (.error code, d)
  | .ok type =>
    let (target, d) : Except Int Handle × Depot :=
      if d.updatesInPlace then
        match d.live? array with
        | none => (.error Status.functionError, d.use operation array)
        | some _ => (.ok array, d)
      else d.copied operation array
    match target with
    | .error code => (.error code, d)
    | .ok h =>
      match type with
      | none => (.ok h, d)
      | some type => (.ok h, d.retype h type)

/-- Makes a tensor computed from a sparse array. -/
def compute (d : Depot) (operation : String) (array : Handle) (tensor : Resource → Resource) :
    Except Int Handle × Depot :=
  match d.live? array with
  | none => (.error Status.functionError, d.use operation array)
  | some r =>
    let (h, d) := d.alloc (tensor r)
    (.ok h, d)

/-- What an entry that only reads a resource takes from it, or the standard value if it is not
    alive. -/
def peek {α : Type} (d : Depot) (operation : String) (h : Handle) (standard : α)
    (f : Resource → α) : α × Depot :=
  match d.live? h with
  | none => (standard, d.use operation h)
  | some r => (f r, d)

/-- Answers the calls that make a resource. -/
def make (d : Depot) : Call → Except Int Handle × Depot
  | .newTensor type dims => d.create { kind := .tensor, typeCode := type, dims }
  | .newNumericArray type dims => d.create { kind := .numericArray, typeCode := type, dims }
  | .newFlatImage width height channels type colorSpace interleaved =>
      d.create { kind := .image, typeCode := type, dims := [height, width], channels,
                 colorSpace, interleaved }
  | .newSlicedImage slices width height channels type colorSpace interleaved =>
      d.create { kind := .image, typeCode := type, dims := [slices, height, width], channels,
                 colorSpace, interleaved }
  | .createStore => d.create { kind := .dataStore, typeCode := 0, dims := [] }
  | .clone _ source => d.clone source
  | .convertNumericArray source type _ _ =>
      d.convert source fun r => { r with typeCode := type }
  | .convertImage source type interleaved =>
      d.convert source fun r => { r with typeCode := type, interleaved }
  | .sparseFromTensor data implicit =>
      let (dims, d) := d.peek "from_tensor" data [] (·.dims)
      d.createSparse "from_tensor" data dims implicit
  | .sparseFromPositions _ values extent implicit =>
      -- No elements are kept, so every dimension is 1.
      let (rank, d) := d.peek "from_explicit_positions" extent 0 (·.flattenedLength)
      d.createSparse "from_explicit_positions" values (List.replicate rank.toNat 1) implicit
  | .resetImplicit array implicit => d.resetImplicit array implicit
  | .explicitPositions array =>
      d.compute "get_explicit_positions" array fun r =>
        { kind := .tensor, typeCode := HostCode.code TensorType.integer,
          dims := [1, r.dims.length] }
  | .toTensor array =>
      d.compute "to_tensor" array fun r =>
        { kind := .tensor, typeCode := r.typeCode, dims := r.dims }
  | _ => (.error Status.functionError, d)

/-! ### Reading resources -/

/-- The answer to a query about a resource. -/
def fact (r : Resource) : Query → Int
  | .shareCount => r.shareCount
  | .type => r.typeCode
  | .rank => r.dims.length
  | .flattenedLength => r.flattenedLength
  | .rowCount => (r.dims.reverse[1]?).getD 0
  | .columnCount => (r.dims.reverse[0]?).getD 0
  | .sliceCount => if r.dims.length = 3 then (r.dims[0]?).getD 0 else 0
  | .channels => r.channels
  -- Gray with alpha has two channels, and RGB with alpha four.
  | .alphaChannel => if r.channels = 2 ∨ r.channels = 4 then 1 else 0
  | .interleaved => if r.interleaved then 1 else 0
  | .colorSpace => r.colorSpace
  | .length => r.postings.length

/-- Answers a query. -/
def number (d : Depot) (k : Kind) (q : Query) (h : Handle) : Int × Depot :=
  d.peek (q.function k) h 0 fun r => q.word k (fact r q)

/-- Answers with the dimensions of a resource. -/
def dims (d : Depot) (h : Handle) : Option (List Int) × Depot :=
  d.peek "get_dimensions" h none fun r => some r.dims

/-- The tensor inside a sparse array that a member names. -/
def memberOf (r : Resource) (m : Member) : Option Handle :=
  r.members.map fun (implicit, explicit) =>
    match m with
    | .implicitValue => implicit
    | .explicitValues => explicit

/-- Answers with a tensor inside a sparse array. -/
def member (d : Depot) (m : Member) (h : Handle) : Option Handle × Depot :=
  d.peek ("get_" ++ m.name) h none fun r => memberOf r m

/-! ### Adding to a store -/

/-- Adds an entry to a data store that is alive, and what the store holds for it. -/
def postTo (d : Depot) (store : Handle) (held : List Handle) (p : Posting) : Depot :=
  match d.live? store with
  | none => d.use "add" store
  | some _ => d.modify store fun r =>
      { r with postings := r.postings ++ [p], children := r.children ++ held }

/-- Adds an item to a data store.  A container has to be alive, and the store holds it from then
    on. -/
def post (d : Depot) (store : Handle) (name : Option String) (item : Item) : Depot :=
  match item with
  | .plain _ => d.postTo store [] ⟨name, item⟩
  | .container _ child =>
    match d.live? child with
    | none => d.use "add" child
    | some _ => d.postTo store [child] ⟨name, item⟩

end Depot

/-- A granted handle or a status, as an answer of a shape that can carry it. -/
def Shape.deliver : (s : Shape) → Except Int Handle → s.Answer
  | .outcome, .ok h => ⟨Status.noError, some h⟩
  | .outcome, .error code => ⟨code, none⟩
  | .handle, .ok h => h
  | .handle, .error _ => .null
  | .integer, _ => (0 : Int)
  | .dimensions, _ => none
  | .slot, _ => none
  | .nothing, _ => ()

namespace Depot

/-- The answer to a call, and the depot afterwards. -/
def answer (d : Depot) : (c : Call) → c.Answer × Depot
  | .read k q h => d.number k q h
  | .dimensions _ h => d.dims h
  | .member m h => d.member m h
  | .free k h => ((), d.retire (Entry.free k).function h)
  | .disown _ h => ((), d.disown h)
  | .add store name item => ((), d.post store name item)
  | c =>
    let (granted, d) := d.make c
    (c.shape.deliver granted, d)

/-- The depot as a host. -/
def host : Host Depot := ⟨fun c d => d.answer c⟩

end Depot

end Custody
