import Custody.Session.Workspace

namespace Custody

/-!
# Operations on a workspace

The operations of the library, applied to named variables.

* `Operation` -- an operation and the variables it works on.
* `Answer`, `Failure` -- what it gives, or why it gives nothing.
* `Operation.plan` -- looks up and decodes what the operation needs; a failure here has
  touched nothing.
* `Operation.perform` -- the dialogue of the operation with the host; `Operation.performAll` is
  that of several, one after the other.
-/

/-- A handle or number that a caller refers to: by number, or by name. -/
inductive Reference where
  | number (value : Int)
  | named (name : String)
  deriving DecidableEq, Repr

/-- What a new container is made from.  Types are codes. -/
inductive Recipe where
  | tensor (type : Int) (dims : List Int)
  | numericArray (type : Int) (dims : List Int)
  | image (request : ImageRequest)
  | dataStore
  deriving DecidableEq, Repr

/-- How a wrapped handle is tagged: by a tag, or by the word for a passing mode. -/
inductive Tagging where
  | ownership (ownership : Ownership)
  | mode (text : String)
  deriving DecidableEq, Repr

/-- A value to push: a plain one, or the container in a variable. -/
inductive Pushed where
  | plain (value : Plain)
  | variable (name : String)
  deriving DecidableEq, Repr

/-- How a container is converted.  Types and methods are codes; each kind takes the parts that
    concern it. -/
structure ConversionRequest where
  type : Int
  method : Option Int := none
  tolerance : Option Binary64 := none
  interleaved : Option Bool := none
  deriving DecidableEq, Repr

/-- An operation of the library on the variables of a workspace. -/
inductive Operation where
  | new (recipe : Recipe) (target : String)
  | empty (kind : Kind) (target : String)
  | wrap (kind : Kind) (handle : Reference) (tagging : Tagging) (target : String)
  | move (source target : String)
  | take (source target : String)
  | drop (source : String)
  | clone (source target : String)
  | relinquish (source : String) (handleName : Option String)
  | intoRaw (source : String) (handleName : Option String)
  | pass (source : String) (slot : Reference) (hasSlot : Bool)
  | reset (source : String) (handle : Reference) (ownership : Ownership)
  | state (source : String)
  | get (source accessor : String)
  | describe (source : String)
  | view (source : String) (member target : Option String)
  | convert (source : String) (request : ConversionRequest) (target : String)
  | fromTensor (data : String) (implicit : Option String) (target : String)
  | fromPositions (positions values size : String) (implicit : Option String) (target : String)
  | explicitPositions (source target : String)
  | toTensor (source target : String)
  | setImplicit (source : String) (implicit : Option String)
  | resparsify (source : String)
  | push (store : String) (name : Option String) (value : Pushed)
  deriving DecidableEq, Repr

/-- What a step gives. -/
inductive Answer where
  | nothing
  | handle (handle : Handle)
  | holding (holding : Holding)
  | passed (written : Bool) (slot : Handle)
  | state (holding : Holding)
  | reading (reading : Reading)
  | readings (readings : List (Accessor × Reading))
  | viewed (view : Holding) (shareCount : Int) (type : Option Int)
  | count (value : Int)
  | flag (value : Bool)
  | texts (values : List String)
  deriving DecidableEq, Repr

/-- Why a step gives nothing. -/
inductive Failure where
  | library (error : Error)
  | noVariable (name : String)
  | wrongKind
  | badInput (text : String)
  deriving DecidableEq, Repr

/-- What a step gives and the workspace after it. -/
abbrev Outcome : Type := Except Failure Answer × Workspace

namespace Workspace

/-! ### Looking up what an operation needs -/

/-- The container in a variable that has to be there. -/
def holding (w : Workspace) (name : String) : Except Failure Holding :=
  match w.find? name with
  | some h => .ok h
  | none => .error (.noVariable name)

/-- The tensor in a variable. -/
def tensor (w : Workspace) (name : String) : Except Failure Tensor := do
  match ← w.holding name with
  | ⟨.tensor, c⟩ => return c
  | _ => throw .wrongKind

/-- The tensor in a variable that may be left out. -/
def tensor? (w : Workspace) : Option String → Except Failure (Option Tensor)
  | none => .ok none
  | some name => some <$> w.tensor name

/-- The sparse array in a variable. -/
def sparseArray (w : Workspace) (name : String) : Except Failure SparseArray := do
  match ← w.holding name with
  | ⟨.sparseArray, c⟩ => return c
  | _ => throw .wrongKind

/-- The data store in a variable. -/
def dataStore (w : Workspace) (name : String) : Except Failure DataStore := do
  match ← w.holding name with
  | ⟨.dataStore, c⟩ => return c
  | _ => throw .wrongKind

/-- The handle that is referred to. -/
def handle (w : Workspace) : Reference → Except Failure Handle
  | .number n => .ok (.ofInt n)
  | .named name =>
    match w.handles.lookup name with
    | some h => .ok h
    | none => .error (.badInput "handle")

/-- The number that is referred to; a handle stands for the number of its resource. -/
def number (w : Workspace) : Reference → Except Failure Int
  | .number n => .ok n
  | .named name => do return (← w.handle (.named name)).number

/-! ### Carrying out -/

/-- Makes a container and assigns it to a variable.  Where none is made, the variable is
    untouched. -/
def keep {k : Kind} (ctx : Context) (w : Workspace) (target : String)
    (made : Attempt (Container k)) : Dialogue Outcome := do
  match ← made.run with
  | .error e => return (.error (.library e), w)
  | .ok c =>
    let w ← w.assign ctx target ⟨k, c⟩
    return (.ok (.holding ⟨k, c⟩), w)

/-- Changes the container in a variable, which afterwards holds whatever the change left, also where
    the change failed. -/
def update {k : Kind} (w : Workspace) (name : String)
    (change : Dialogue (Except Error Unit × Container k)) : Dialogue Outcome := do
  let (result, c) ← change
  let w := w.put name ⟨k, c⟩
  match result with
  | .error e => return (.error (.library e), w)
  | .ok _ => return (.ok .nothing, w)

/-- Reads a view of a container, and makes a copy of it if one is wanted. -/
def look {k : Kind} (ctx : Context) (w : Workspace) (target : Option String)
    (viewed : Attempt (Container k)) : Dialogue Outcome := do
  match ← viewed.run with
  | .error e => return (.error (.library e), w)
  | .ok v =>
    let shareCount ← v.shareCount ctx
    let type ← v.queryType ctx
    let answer : Answer := .viewed ⟨k, v⟩ shareCount type
    match target with
    | none => return (.ok answer, w)
    | some target =>
      match ← (v.tryClone ctx).run with
      | .error e => return (.error (.library e), w)
      | .ok copy =>
        let w ← w.assign ctx target ⟨k, copy⟩
        return (.ok answer, w)

end Workspace

namespace Operation

/-- A failure of the library as a failure of a step. -/
def decoded {α : Type} (r : Except Error α) : Except Failure α := r.mapError .library

/-- The dialogue that makes a new container. -/
def planNew (ctx : Context) (w : Workspace) (recipe : Recipe) (target : String) :
    Except Failure (Dialogue Outcome) :=
  match recipe with
  | .tensor type dims => do
    let type ← decoded (HostCode.decode TensorType type)
    return w.keep ctx target (Tensor.new ctx type dims)
  | .numericArray type dims => do
    let type ← decoded (HostCode.decode NumericArrayType type)
    return w.keep ctx target (NumericArray.new ctx type dims)
  | .image request => do
    let options ← decoded request.options
    return w.keep ctx target (Image.new ctx options)
  | .dataStore => return w.keep ctx target (DataStore.new ctx)

/-- The dialogue that converts a container.  Only numeric arrays and images can be converted. -/
def planConvert (ctx : Context) (w : Workspace) (h : Holding) (r : ConversionRequest)
    (target : String) : Except Failure (Dialogue Outcome) :=
  match h with
  | ⟨.numericArray, a⟩ => do
    let standard : ConversionOptions := {}
    let type ← decoded (HostCode.decode NumericArrayType r.type)
    let method ← decoded (HostCode.decodeOr standard.method r.method)
    let tolerance := r.tolerance.getD standard.tolerance
    return w.keep ctx target (NumericArray.convert ctx a type { method, tolerance })
  | ⟨.image, i⟩ => do
    let type ← decoded (HostCode.decode ImageDataType r.type)
    return w.keep ctx target (Image.convert ctx i type (r.interleaved.getD true))
  | _ => throw .wrongKind

/-- The value that is pushed, and the workspace after a container was moved out of its
    variable. -/
def planPushed (w : Workspace) (store : String) :
    Pushed → Except Failure (Value × Workspace)
  | .plain value => .ok (.plain value, w)
  | .variable name => do
    if name = store then throw (.badInput "a store cannot be moved into itself")
    let ⟨k, c⟩ ← w.holding name
    return (.container k c, w.remove name)

/-- Looks up and decodes what an operation needs, and gives the dialogue that carries it out. -/
def plan (ctx : Context) (w : Workspace) : Operation → Except Failure (Dialogue Outcome)
  | new recipe target => planNew ctx w recipe target
  | empty kind target => return w.keep ctx target (return (Container.empty : Container kind))
  | wrap kind handle tagging target => do
    let h ← w.handle handle
    match tagging with
    | .ownership ownership =>
      return w.keep ctx target (Container.wrap h ownership : Attempt (Container kind))
    | .mode text =>
      let mode ← decoded (PassingMode.parse text)
      return w.keep ctx target (Container.wrapArgument h mode : Attempt (Container kind))
  | move source target => do
    let ⟨_, c⟩ ← w.holding source
    return (w.remove source).keep ctx target (return c)
  | take source target => do
    let ⟨k, c⟩ ← w.holding source
    return (w.put source ⟨k, c.take.2⟩).keep ctx target (return c.take.1)
  | drop source => do
    let ⟨_, c⟩ ← w.holding source
    return do
      c.cleanup ctx
      return (.ok .nothing, w.remove source)
  | clone source target => do
    let ⟨_, c⟩ ← w.holding source
    return w.keep ctx target (c.tryClone ctx)
  | relinquish source handleName => do
    let ⟨k, c⟩ ← w.holding source
    return do
      let released ← c.relinquish
      let h := released.handle
      return (.ok (.handle h), (w.put source ⟨k, released⟩).record handleName h)
  | intoRaw source handleName => do
    let ⟨_, c⟩ ← w.holding source
    return do
      let h ← c.intoRaw ctx
      return (.ok (.handle h), (w.remove source).record handleName h)
  | pass source slot hasSlot => do
    let ⟨k, c⟩ ← w.holding source
    let before ← w.handle slot
    return do
      let passing ← c.pass hasSlot
      let answer := .passed passing.written.isSome (passing.written.getD before)
      return (.ok answer, w.put source ⟨k, passing.container⟩)
  | reset source handle ownership => do
    let ⟨k, c⟩ ← w.holding source
    let h ← w.handle handle
    return do
      let c ← c.reset ctx h ownership
      return (.ok .nothing, w.put source ⟨k, c⟩)
  | state source => do
    let h ← w.holding source
    return .done (.ok (.state h), w)
  | get source accessor => do
    let ⟨k, c⟩ ← w.holding source
    match Accessor.ofName? k accessor with
    | none => throw .wrongKind
    | some a => return do return (.ok (.reading (← c.get ctx a)), w)
  | describe source => do
    let ⟨_, c⟩ ← w.holding source
    return do return (.ok (.readings (← c.describe ctx)), w)
  | view source member target =>
    match member with
    | none => do
      let ⟨_, c⟩ ← w.holding source
      return w.look ctx target (return c.view)
    | some name => do
      let a ← w.sparseArray source
      match Member.ofName? name with
      | none => throw .wrongKind
      | some m => return w.look ctx target (SparseArray.member ctx m a)
  | convert source request target => do
    let h ← w.holding source
    planConvert ctx w h request target
  | fromTensor data implicit target => do
    let data ← w.tensor data
    let implicit ← w.tensor? implicit
    return w.keep ctx target (SparseArray.ofTensor ctx data implicit)
  | fromPositions positions values size implicit target => do
    let positions ← w.tensor positions
    let values ← w.tensor values
    let size ← w.tensor size
    let implicit ← w.tensor? implicit
    return w.keep ctx target (SparseArray.ofPositions ctx positions values size implicit)
  | explicitPositions source target => do
    let a ← w.sparseArray source
    return w.keep ctx target (SparseArray.explicitPositions ctx a)
  | toTensor source target => do
    let a ← w.sparseArray source
    return w.keep ctx target (SparseArray.toTensor ctx a)
  | setImplicit source implicit => do
    let a ← w.sparseArray source
    let implicit ← w.tensor? implicit
    return w.update source (SparseArray.setImplicitValue ctx a implicit)
  | resparsify source => do
    let a ← w.sparseArray source
    return w.update source (SparseArray.resparsify ctx a)
  | push store name value => do
    let d ← w.dataStore store
    let (value, w) ← planPushed w store value
    return do
      match ← DataStore.push ctx d name value with
      | .error e => return (.error (.library e), w)
      | .ok _ => return (.ok .nothing, w)

/-- Carries an operation out, unless something it needs is missing. -/
def perform (ctx : Context) (w : Workspace) (op : Operation) : Dialogue Outcome :=
  match op.plan ctx w with
  | .error failure => return (.error failure, w)
  | .ok dialogue => dialogue

/-- Carries operations out, one after the other. -/
def performAll (ctx : Context) (w : Workspace) :
    List Operation → Dialogue (List (Except Failure Answer) × Workspace)
  | [] => return ([], w)
  | op :: rest => do
    let (answer, w) ← op.perform ctx w
    let (answers, w) ← performAll ctx w rest
    return (answer :: answers, w)

end Operation

end Custody
