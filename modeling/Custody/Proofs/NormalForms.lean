import Custody.DataStore
import Custody.Image
import Custody.NumericArray
import Custody.SparseArray

namespace Custody

open Dialogue

/-!
# Operations as dialogues

What each fallible operation of the library comes down to: first the checks, each with the
error it ends with, then at most one request to the host, then what is made of its answer.
Proofs about an operation start from its equation here and do not unfold it.

* `Container.obtain_run`, `Container.adopt_run` -- the two equations behind everything that
  makes a container;
* `Container.wrap_run`, `Container.tryClone_run` and one equation for each other operation.
-/

/-- The dialogue that ends with what a check gives, or goes on after it. -/
def Dialogue.checked {α β : Type} (check : Except Error α)
    (next : α → Dialogue (Except Error β)) : Dialogue (Except Error β) :=
  match check with
  | .error e => .done (.error e)
  | .ok value => next value

/-- What passes the check goes on. -/
@[simp] theorem Dialogue.checked_ok {α β : Type} (value : α)
    (next : α → Dialogue (Except Error β)) : checked (.ok value) next = next value := rfl

/-- What does not pass ends there. -/
@[simp] theorem Dialogue.checked_error {α β : Type} (e : Error)
    (next : α → Dialogue (Except Error β)) :
    checked (.error e) next = .done (.error e) := rfl

/-- An attempt that begins with a check. -/
theorem Attempt.run_checked {α β : Type} (check : Except Error α) (next : α → Attempt β) :
    ((liftM check : Attempt α) >>= next).run = checked check fun value => (next value).run := by
  cases check <;> simp

/-! ### Results of checks -/

/-- A host with all tables and entries. -/
def Context.full : Context := ⟨Version.tables, fun _ => true, fun _ => true⟩

/-- A missing table is reported before a missing entry. -/
theorem Context.require_eq (ctx : Context) (e : Entry) :
    ctx.require e =
      if ctx.hasTable e.table then
        if ctx.hasEntry e then .ok () else .error (.missingFunction e.table e.function)
      else .error .hostUnavailable := by
  unfold Context.require Context.requireTable
  cases ctx.hasTable e.table <;> rfl

/-- A value with the property `P`, or an error. -/
def Except.Ensures {ε α : Type} (P : α → Prop) : Except ε α → Prop
  | .ok value => P value
  | .error _ => True

/-- What is made of a value in two steps has the property if the second step gives it. -/
theorem Except.ensures_bind {ε α β : Type} {P : β → Prop} {x : Except ε α}
    {f : α → Except ε β} (h : ∀ value, x = .ok value → Except.Ensures P (f value)) :
    Except.Ensures P (x >>= f) := by
  cases x with
  | error e => exact trivial
  | ok value => exact h value rfl

namespace Container

variable {k : Kind}

/-! ### Any kind -/

/-- The null handle is refused, and any other is told of and wrapped. -/
theorem wrap_run (h : Handle) (ownership : Ownership) :
    (wrap h ownership : Attempt (Container k)).run =
      if h.isNull then .done (.error (.createFromNull k))
      else .log (.wrapping k h ownership) (.done (.ok ⟨h, ownership⟩)) := by
  unfold wrap
  split <;> rfl

/-- **One request**, and the handle that the answer grants is told of and adopted. -/
theorem adopt_run (call : Call) (failure : Refusal → Error) (event : Handle → Event) :
    (adopt call failure event : Attempt (Container k)).run =
      .call call fun answer =>
        match call.shape.granted .null answer with
        | .error refusal => .done (.error (failure refusal))
        | .ok h => .log (event h) (.done (.ok (fresh h))) := by
  unfold adopt
  simp only [Dialogue.request, Attempt.run_bind, Attempt.run_dialogue, call_bind, done_bind]
  refine congrArg (Dialogue.call call) (funext fun answer => ?_)
  cases call.shape.granted .null answer <;> rfl

/-- The entry has to be there, and then a container is adopted. -/
theorem obtain_run (ctx : Context) (call : Call) (failure : Refusal → Error)
    (event : Handle → Event) :
    (obtain ctx call failure event : Attempt (Container k)).run =
      checked (ctx.require call.entry) fun _ => (adopt call failure event).run :=
  Attempt.run_checked _ _

/-- An empty container is copied without a word, and any other by a request. -/
theorem tryClone_run (ctx : Context) (c : Container k) :
    (c.tryClone ctx).run =
      if c.isNull then .done (.ok empty)
      else (obtain ctx (.clone k c.handle) (fun refusal => .cloneFailed k refusal.code)
        (.cloned k c.handle) : Attempt (Container k)).run := by
  unfold tryClone
  split <;> rfl

/-- What letting go of a container comes to for each of its tags. -/
theorem cleanup_eq (ctx : Context) (c : Container k) :
    c.cleanup ctx =
      if c.isNull then .done ()
      else match c.ownership with
        | .hostManaged => .done ()
        | .callerOwned =>
            .log (.destroying k c.handle) (cleanupWith ctx (.free k c.handle))
        | .sharedWithHost =>
            .log (.givingUpShare k c.handle)
              (if k.supportsSharing then cleanupWith ctx (.disown k c.handle)
              else .log (.storeNeverShared c.handle) (.done ())) := by
  unfold cleanup
  split
  · rfl
  · cases c.ownership with
    | hostManaged => rfl
    | callerOwned => rfl
    | sharedWithHost => by_cases sharing : k.supportsSharing <;> simp [Dialogue.tell, sharing]

/-- The host takes over what is passed to a slot, except that a share stays a share. -/
theorem pass_eq (c : Container k) (hasSlot : Bool) :
    c.pass hasSlot =
      if c.isNull then .done ⟨c, none⟩
      else if hasSlot then
        let ownership := if c.ownership = .callerOwned then .hostManaged else c.ownership
        .log (.passed k c.handle ownership) (.done ⟨{ c with ownership }, some c.handle⟩)
      else .log (.noResultSlot k c.handle) (.done ⟨c, none⟩) := by
  unfold pass
  split
  · rfl
  · cases hasSlot <;> rfl

/-- The wrapper of a bare handle goes away as one of the host's, and so without a call. -/
theorem intoRaw_eq (ctx : Context) (c : Container k) :
    c.intoRaw ctx = .log (.relinquishing k c.handle c.ownership) (.done c.handle) := by
  have hquiet : (⟨c.handle, .hostManaged⟩ : Container k).cleanup ctx = .done () := by
    rw [cleanup_eq]
    exact ite_self _
  show Dialogue.log _ (((⟨c.handle, .hostManaged⟩ : Container k).cleanup ctx).bind _) = _
  rw [hquiet]
  rfl

/-- The slot of a member is asked for, and a null handle in it counts as none. -/
theorem memberSlot_eq (m : Member) (a : Container .sparseArray) :
    a.memberSlot m =
      .call (.member m a.handle) fun slot : Option Handle =>
        .done (slot.filter fun h => !h.isNull) := rfl

/-- A handle that is held already stays, and another one comes in after a cleanup. -/
theorem reset_eq (ctx : Context) (c : Container k) (h : Handle) (ownership : Ownership) :
    c.reset ctx h ownership =
      if h = c.handle then .done ⟨h, if h.isNull then .hostManaged else ownership⟩
      else (c.cleanup ctx).bind fun _ =>
        .done ⟨h, if h.isNull then .hostManaged else ownership⟩ := by
  unfold reset
  split <;> simp [*]

end Container

/-! ### Dense kinds -/

/-- A tensor is made once its dimensions were checked. -/
theorem Tensor.new_run (ctx : Context) (type : TensorType) (dims : List Int) :
    (Tensor.new ctx type dims).run =
      checked (checkDims .tensor dims) fun _ =>
        (Container.obtain ctx (.newTensor (HostCode.code type) dims)
          (fun refusal => .newFailed .tensor refusal.code)
          (.allocatedTensor · type dims) : Attempt Tensor).run :=
  Attempt.run_checked _ _

/-- A numeric array is made in the same way. -/
theorem NumericArray.new_run (ctx : Context) (type : NumericArrayType) (dims : List Int) :
    (NumericArray.new ctx type dims).run =
      checked (checkDims .numericArray dims) fun _ =>
        (Container.obtain ctx (.newNumericArray (HostCode.code type) dims)
          (fun refusal => .newFailed .numericArray refusal.code)
          (.allocatedNumericArray · type dims) : Attempt NumericArray).run :=
  Attempt.run_checked _ _

/-- A numeric array that is not empty is converted by a request. -/
theorem NumericArray.convert_run (ctx : Context) (a : NumericArray) (type : NumericArrayType)
    (options : ConversionOptions) :
    (a.convert ctx type options).run =
      if a.isNull then .done (.error (.invalidArgument (.emptySource .numericArray)))
      else (Container.obtain ctx
        (.convertNumericArray a.handle (HostCode.code type) (HostCode.code options.method)
          options.tolerance)
        (fun refusal =>
          .conversionFailed .numericArray (conversionFault type options.method refusal))
        (.convertedNumericArray a.handle · type options.method) : Attempt NumericArray).run := by
  unfold NumericArray.convert
  split <;> simp [*]

/-- An image is made unless its options are at fault. -/
theorem Image.new_run (ctx : Context) (o : ImageOptions) :
    (Image.new ctx o).run =
      match o.fault? with
      | some fault => .done (.error fault)
      | none => (Container.obtain ctx (newCall o) (fun refusal => .newFailed .image refusal.code)
          (.allocatedImage · o) : Attempt Image).run := by
  unfold Image.new
  cases o.fault? <;> simp

/-- An image that is not empty is converted by a request. -/
theorem Image.convert_run (ctx : Context) (i : Image) (type : ImageDataType)
    (interleaved : Bool) :
    (i.convert ctx type interleaved).run =
      if i.isNull then .done (.error (.invalidArgument (.emptySource .image)))
      else (Container.obtain ctx (.convertImage i.handle (HostCode.code type) interleaved)
        (fun _ => .conversionFailed .image (.noImage type interleaved))
        (.convertedImage i.handle · type interleaved) : Attempt Image).run := by
  unfold Image.convert
  split <;> simp [*]

/-! ### Sparse arrays -/

namespace SparseArray

/-- A view of a member takes its entry, an array and a slot that holds a handle. -/
theorem member_run (ctx : Context) (m : Member) (a : SparseArray) :
    (a.member ctx m).run =
      checked (ctx.require (.member m)) fun _ =>
        if a.isNull then .done (.error (.sparseFailed m.name Status.functionError))
        else (a.memberSlot m).bind fun
          | none => .done (.error (.sparseFailed m.name Status.functionError))
          | some h => (Container.wrap h .hostManaged : Attempt Tensor).run := by
  unfold SparseArray.member
  rw [Attempt.run_checked]
  refine congrArg (checked _) (funext fun _ => ?_)
  split
  · simp [*]
  · simp only [Attempt.run_bind, Attempt.run_dialogue, Dialogue.bind_assoc, done_bind]
    refine congrArg (Dialogue.bind _) (funext fun slot => ?_)
    cases slot <;> simp

/-- A tensor is computed of an array that is not empty, once the entry was found. -/
theorem computed_run (ctx : Context) (operation : String) (call : Call) (a : SparseArray) :
    (a.computed ctx operation call).run =
      checked (ctx.require call.entry) fun _ =>
        if a.isNull then .done (.error (.sparseFailed operation Status.functionError))
        else (Container.adopt call (failed operation) (.computed operation a.handle) :
          Attempt Tensor).run := by
  unfold computed
  rw [Attempt.run_checked]
  refine congrArg (checked _) (funext fun _ => ?_)
  split <;> simp [*]

/-- The wrapper is there after every exit, and only the last one gives it another handle or tag. -/
theorem setImplicitValue_eq (ctx : Context) (a : SparseArray) (implicit : Option Tensor) :
    a.setImplicitValue ctx implicit =
      if a.isNull then .done (.error (.invalidArgument .emptyArray), a)
      else
        let request : Call := .resetImplicit a.handle (handleOrNull implicit)
        match ctx.require request.entry with
        | .error e => .done (.error e, a)
        | .ok _ => .call request fun answer =>
            match request.shape.granted a.handle answer with
            | .error refusal => .done (.error (failed "set_implicit_value" refusal), a)
            | .ok h =>
              let ownership := if h = a.handle then a.ownership else .callerOwned
              .log (.implicitReset a.handle h ownership)
                ((a.reset ctx h ownership).bind fun a' => .done (.ok (), a')) := by
  unfold setImplicitValue
  split
  · rfl
  · dsimp only
    cases ctx.require (Call.resetImplicit a.handle (handleOrNull implicit)).entry with
    | error e => rfl
    | ok _ =>
      refine congrArg (Dialogue.call _) (funext fun answer => ?_)
      simp only [done_bind]
      split <;> simp [Dialogue.tell, *]

/-- The same without the wrapper: the checks, the request, and a reset if a handle is granted. -/
theorem map_fst_setImplicitValue (ctx : Context) (a : SparseArray) (implicit : Option Tensor) :
    Prod.fst <$> a.setImplicitValue ctx implicit =
      if a.isNull then .done (.error (.invalidArgument .emptyArray))
      else
        let request : Call := .resetImplicit a.handle (handleOrNull implicit)
        checked (ctx.require request.entry) fun _ =>
          .call request fun answer =>
            match request.shape.granted a.handle answer with
            | .error refusal => .done (.error (failed "set_implicit_value" refusal))
            | .ok h =>
              let ownership := if h = a.handle then a.ownership else .callerOwned
              .log (.implicitReset a.handle h ownership)
                ((a.reset ctx h ownership).bind fun _ => .done (.ok ())) := by
  rw [setImplicitValue_eq, map_eq]
  split
  · rfl
  · dsimp only
    cases ctx.require (Call.resetImplicit a.handle (handleOrNull implicit)).entry with
    | error e => rfl
    | ok _ =>
      refine congrArg (Dialogue.call _) (funext fun answer => ?_)
      dsimp only
      cases Shape.granted a.handle (Call.shape (.resetImplicit a.handle _)) answer with
      | error refusal => rfl
      | ok h => simp [Dialogue.bind_assoc]

end SparseArray

/-! ### Data stores -/

/-- A container that is not the caller's is copied, and then it goes away. -/
theorem Container.transferable_eq {k : Kind} (ctx : Context) (c : Container k) :
    c.transferable ctx =
      if c.isNull then .done (.error (.invalidArgument (.emptyValue k)))
      else if c.ownership = .callerOwned then .done (.ok c)
      else .log (.pushingCopy k c.handle)
        ((c.tryClone ctx).run.bind fun copy => (c.cleanup ctx).bind fun _ => .done copy) := by
  unfold transferable
  split
  · rfl
  · split <;> rfl

namespace DataStore

/-- A plain value is checked, and then its entry, and then it is added. -/
theorem addPlain_eq (ctx : Context) (d : DataStore) (name : Option String) (value : Plain) :
    d.addPlain ctx name value =
      checked (addPlain.checkPlain value >>= fun _ =>
          ctx.require (Call.add d.handle name (.plain value)).entry) fun _ =>
        .call (.add d.handle name (.plain value)) fun _ => .done (.ok ()) := by
  unfold addPlain
  dsimp only
  generalize (addPlain.checkPlain value >>= fun _ =>
    ctx.require (Call.add d.handle name (.plain value)).entry) = check
  cases check <;> rfl

/-- A container is made ready, and added if there is an entry, or else let go of. -/
theorem addContainer_eq {k : Kind} (ctx : Context) (d : DataStore) (name : Option String)
    (c : Container k) :
    d.addContainer ctx name c =
      (c.transferable ctx).bind fun
        | .error e => .done (.error e)
        | .ok owned =>
          match ctx.require (.add name.isSome k.tableName) with
          | .error e => (owned.cleanup ctx).bind fun _ => .done (.error e)
          | .ok _ => .log (.relinquishing k owned.handle owned.ownership)
              (.call (.add d.handle name (.container k owned.handle)) fun _ => .done (.ok ())) := by
  unfold addContainer
  refine congrArg (Dialogue.bind _) (funext fun r => ?_)
  cases r with
  | error e => rfl
  | ok owned =>
    cases ctx.require (.add name.isSome k.tableName) with
    | error e => rfl
    | ok _ =>
      dsimp only
      rw [Container.intoRaw_eq]
      rfl

/-- A push that is refused lets go of the value; otherwise it is added. -/
theorem push_eq (ctx : Context) (d : DataStore) (name : Option String) (value : Value) :
    d.push ctx name value =
      match checkPush ctx d name with
      | .error e => (value.drop ctx).bind fun _ => .done (.error e)
      | .ok _ => (d.add ctx name value).bind fun
          | .error e => .done (.error e)
          | .ok _ => .log (.pushed d.handle name value.typeName) (.done (.ok ())) := by
  unfold push
  cases checkPush ctx d name with
  | error e => rfl
  | ok _ =>
    refine congrArg (Dialogue.bind _) (funext fun r => ?_)
    cases r <;> rfl

end DataStore

end Custody
