import Custody.Proofs.NormalForms
import Custody.Proofs.Reading
import Custody.Session.Operation

namespace Custody

open Dialogue

/-!
# Only what is there is called

A host may leave out whole tables and single entries, and an entry that is left out is nothing that
could be called.  No operation does so, whatever is left out: it looks for an entry first, and goes
without the call or fails where there is none.

* `Happening.Allowed` -- a step that may be taken with such a host;
* `Dialogue.Allowed` -- every step on every path may be taken;
* `Dialogue.allowed_require` -- a call may be made after its entry was found;
* `Container.cleanup_allowed`, `DataStore.push_allowed` and one statement for each other operation
  on containers;
* `Operation.perform_allowed` -- **an operation calls only what is there**.
-/

/-! ### Steps that may be taken -/

/-- A step that may be taken with a host: what is called is there.  Where a container is passed to
    the slot for a result, nothing is called, and nowhere else is it said that there is no slot. -/
def Happening.Allowed (ctx : Context) (passing : Bool) : Happening → Prop
  | called c _ => passing = false ∧ ctx.provides c.entry
  | logged (.noResultSlot ..) => passing = true
  | logged _ => True

/-- Unless a container is passed, what is there may be called. -/
theorem Happening.allowed_called {ctx : Context} {c : Call} (hprovided : ctx.provides c.entry)
    (a : c.Answer) : (called c a).Allowed ctx false := ⟨rfl, hprovided⟩

namespace Dialogue

variable {α β : Type} {ctx : Context}

/-- Every step on every path may be taken. -/
abbrev Allowed (ctx : Context) (passing : Bool) (d : Dialogue α) : Prop :=
  d.Each (Happening.Allowed ctx passing)

/-- A check leaves only what follows on it to look at. -/
theorem allowed_checked {check : Except Error α} {next : α → Dialogue (Except Error β)}
    (hnext : ∀ value, (next value).Allowed ctx false) :
    (checked check next).Allowed ctx false := by
  cases check with
  | error e => exact each_done _
  | ok value => exact hnext value

/-- What follows on a check for an entry can count on the entry. -/
theorem allowed_require {entry : Entry} {next : Unit → Dialogue (Except Error β)}
    (hnext : ctx.provides entry → (next ()).Allowed ctx false) :
    (checked (ctx.require entry) next).Allowed ctx false := by
  cases hentry : ctx.require entry with
  | error e => exact each_done _
  | ok _ => exact hnext (Context.provides_iff.mpr hentry)

end Dialogue

variable {ctx : Context}

/-! ### Containers -/

namespace Container

variable {k : Kind} (c : Container k)

/-- A cleanup entry is called if it is there, and missed in a warning if not. -/
theorem cleanupWith_allowed (call : Call) : (cleanupWith ctx call).Allowed ctx false := by
  unfold cleanupWith
  split
  · next hprovided => exact each_call (Happening.allowed_called hprovided) fun _ => each_done _
  · exact each_log trivial (each_done _)

/-- Letting go of a container calls only what is there. -/
theorem cleanup_allowed : (c.cleanup ctx).Allowed ctx false := by
  rw [cleanup_eq]
  split
  · exact each_done _
  · cases c.ownership with
    | hostManaged => exact each_done _
    | callerOwned => exact each_log trivial (cleanupWith_allowed _)
    | sharedWithHost =>
      refine each_log trivial ?_
      split
      · exact cleanupWith_allowed _
      · exact each_log trivial (each_done _)

/-- So does a reset, which may let go of a container. -/
theorem reset_allowed (h : Handle) (ownership : Ownership) :
    (c.reset ctx h ownership).Allowed ctx false := by
  rw [reset_eq]
  split
  · exact each_done _
  · exact each_map c.cleanup_allowed

/-- Wrapping a handle calls nothing. -/
theorem wrap_allowed (h : Handle) (ownership : Ownership) :
    (wrap h ownership : Attempt (Container k)).run.Allowed ctx false := by
  rw [wrap_run]
  split
  · exact each_done _
  · exact each_log trivial (each_done _)

/-- Passing a container calls nothing, and may find that there is no slot. -/
theorem pass_allowed (hasSlot : Bool) : (c.pass hasSlot).Allowed ctx true := by
  rw [pass_eq]
  split
  · exact each_done _
  · split
    · exact each_log trivial (each_done _)
    · exact each_log rfl (each_done _)

variable {call : Call} {failure : Refusal → Error} {event : Handle → Event}

/-- A container may be asked for by an entry that is there. -/
theorem adopt_allowed (hprovided : ctx.provides call.entry)
    (hevent : ∀ h, (Happening.logged (event h)).Allowed ctx false) :
    (adopt call failure event : Attempt (Container k)).run.Allowed ctx false := by
  rw [adopt_run]
  refine each_call (Happening.allowed_called hprovided) fun answer => ?_
  cases call.shape.granted .null answer with
  | error refusal => exact each_done _
  | ok h => exact each_log (hevent h) (each_done _)

/-- And an operation that asks for one looks for the entry first. -/
theorem obtain_allowed (hevent : ∀ h, (Happening.logged (event h)).Allowed ctx false) :
    (obtain ctx call failure event : Attempt (Container k)).run.Allowed ctx false := by
  rw [obtain_run]
  exact allowed_require fun hprovided => adopt_allowed hprovided hevent

/-- A copy is asked for by an entry that is there. -/
theorem tryClone_allowed : (c.tryClone ctx).run.Allowed ctx false := by
  rw [tryClone_run]
  split
  · exact each_done _
  · exact obtain_allowed fun _ => trivial

/-- A copy is made for a store, and the original let go of, by entries that are there. -/
theorem transferable_allowed : (c.transferable ctx).Allowed ctx false := by
  rw [transferable_eq]
  split
  · exact each_done _
  · split
    · exact each_done _
    · refine each_log trivial (each_bind c.tryClone_allowed fun _ => ?_)
      exact each_map c.cleanup_allowed

/-- **An accessor asks only by entries that are there.** -/
theorem get_allowed (a : Accessor) : (c.get ctx a).Allowed ctx false :=
  get_each (fun _ a _ hprovided => Happening.allowed_called hprovided a) a c

end Container

/-! ### Dense kinds -/

/-- Making a tensor makes allowed calls only. -/
theorem Tensor.new_allowed (type : TensorType) (dims : List Int) :
    (Tensor.new ctx type dims).run.Allowed ctx false := by
  rw [Tensor.new_run]
  exact allowed_checked fun _ => Container.obtain_allowed fun _ => trivial

/-- Making a numeric array makes allowed calls only. -/
theorem NumericArray.new_allowed (type : NumericArrayType) (dims : List Int) :
    (NumericArray.new ctx type dims).run.Allowed ctx false := by
  rw [NumericArray.new_run]
  exact allowed_checked fun _ => Container.obtain_allowed fun _ => trivial

/-- Converting a numeric array makes allowed calls only. -/
theorem NumericArray.convert_allowed (a : NumericArray) (type : NumericArrayType)
    (options : ConversionOptions) : (a.convert ctx type options).run.Allowed ctx false := by
  rw [NumericArray.convert_run]
  split
  · exact each_done _
  · exact Container.obtain_allowed fun _ => trivial

/-- Making an image makes allowed calls only. -/
theorem Image.new_allowed (o : ImageOptions) : (Image.new ctx o).run.Allowed ctx false := by
  rw [Image.new_run]
  cases o.fault? with
  | some fault => exact each_done _
  | none => exact Container.obtain_allowed fun _ => trivial

/-- Converting an image makes allowed calls only. -/
theorem Image.convert_allowed (i : Image) (type : ImageDataType) (interleaved : Bool) :
    (i.convert ctx type interleaved).run.Allowed ctx false := by
  rw [Image.convert_run]
  split
  · exact each_done _
  · exact Container.obtain_allowed fun _ => trivial

/-! ### Sparse arrays -/

namespace SparseArray

variable (a : SparseArray)

/-- The entry for a member is found before the array is looked at. -/
theorem member_allowed (m : Member) : (a.member ctx m).run.Allowed ctx false := by
  rw [member_run]
  refine allowed_require fun hprovided => ?_
  split
  · exact each_done _
  · rw [Container.memberSlot_eq, call_bind]
    refine each_call (Happening.allowed_called hprovided) fun slot => ?_
    rw [done_bind]
    cases Option.filter (fun h : Handle => !h.isNull) slot with
    | none => exact each_done _
    | some h => exact Container.wrap_allowed h .hostManaged

/-- So is the entry by which a tensor is computed. -/
theorem computed_allowed (operation : String) (call : Call) :
    (a.computed ctx operation call).run.Allowed ctx false := by
  rw [computed_run]
  refine allowed_require fun hprovided => ?_
  split
  · exact each_done _
  · exact Container.adopt_allowed hprovided fun _ => trivial

/-- The array that is replaced is let go of by an entry that is there. -/
theorem setImplicitValue_allowed (implicit : Option Tensor) :
    (a.setImplicitValue ctx implicit).Allowed ctx false := by
  rw [setImplicitValue_eq]
  split
  · exact each_done _
  · dsimp only
    split
    · exact each_done _
    · next hentry =>
      refine each_call (Happening.allowed_called (Context.provides_iff.mpr hentry)) fun answer => ?_
      split
      · exact each_done _
      · exact each_log trivial (each_map (a.reset_allowed _ _))

end SparseArray

/-! ### Data stores -/

namespace DataStore

variable (d : DataStore) (name : Option String)

/-- A plain value is checked, and then the entry is looked for. -/
theorem addPlain_allowed (value : Plain) : (d.addPlain ctx name value).Allowed ctx false := by
  rw [addPlain_eq]
  cases addPlain.checkPlain value with
  | error e => exact each_done _
  | ok _ =>
    exact allowed_require fun hprovided =>
      each_call (Happening.allowed_called hprovided) fun _ => each_done _

/-- A container is handed over by an entry that is there, or let go of. -/
theorem addContainer_allowed {k : Kind} (c : Container k) :
    (d.addContainer ctx name c).Allowed ctx false := by
  rw [addContainer_eq]
  refine each_bind c.transferable_allowed fun r => ?_
  cases r with
  | error e => exact each_done _
  | ok owned =>
    dsimp only
    split
    · exact each_map owned.cleanup_allowed
    · next hentry =>
      refine each_log trivial (each_call (Happening.allowed_called ?_) fun _ => each_done _)
      exact Context.provides_iff.mpr hentry

/-- **A push calls only what is there**, however far it gets. -/
theorem push_allowed (value : Value) : (d.push ctx name value).Allowed ctx false := by
  rw [push_eq]
  cases checkPush ctx d name with
  | error e =>
    cases value with
    | plain value => exact each_done _
    | container k c => exact each_map c.cleanup_allowed
  | ok _ =>
    have hadd : (d.add ctx name value).Allowed ctx false := by
      cases value with
      | plain value => exact d.addPlain_allowed name value
      | container k c => exact d.addContainer_allowed name c
    refine each_bind hadd fun r => ?_
    cases r with
    | error e => exact each_done _
    | ok _ => exact each_log trivial (each_done _)

end DataStore

/-! ### Workspaces -/

namespace Workspace

variable {w : Workspace} {k : Kind}

/-- Assigning lets go of what was there by an entry that is there. -/
theorem assign_allowed (name : String) (x : Holding) :
    (w.assign ctx name x).Allowed ctx false := by
  unfold assign
  cases w.find? name with
  | none => exact each_done _
  | some old => exact each_map old.container.cleanup_allowed

/-- Keeping what was made lets go of what the variable held, by allowed calls. -/
theorem keep_allowed {made : Attempt (Container k)} (target : String)
    (hmade : made.run.Allowed ctx false) : (w.keep ctx target made).Allowed ctx false := by
  refine each_bind hmade fun r => ?_
  cases r with
  | error e => exact each_done _
  | ok c => exact each_map (assign_allowed target ⟨k, c⟩)

/-- A change in place makes the calls of the change. -/
theorem update_allowed {change : Dialogue (Except Error Unit × Container k)} (name : String)
    (hchange : change.Allowed ctx false) : (w.update name change).Allowed ctx false := by
  refine each_bind hchange fun r => ?_
  obtain ⟨result, c⟩ := r
  cases result with
  | error e => exact each_done _
  | ok _ => exact each_done _

/-- A view is read, and copied if a copy is wanted, by entries that are there. -/
theorem look_allowed {viewed : Attempt (Container k)} (target : Option String)
    (hviewed : viewed.run.Allowed ctx false) :
    (w.look ctx target viewed).Allowed ctx false := by
  refine each_bind hviewed fun r => ?_
  cases r with
  | error e => exact each_done _
  | ok v =>
    have hasked : ∀ c (a : c.Answer), c.isReading → ctx.provides c.entry →
        Happening.Allowed ctx false (.called c a) := fun _ a _ h => Happening.allowed_called h a
    refine each_bind (Container.shareCount_each hasked v) fun shareCount => ?_
    refine each_bind (Container.queryType_each hasked v) fun type => ?_
    cases target with
    | none => exact each_done _
    | some target =>
      refine each_bind v.tryClone_allowed fun copy => ?_
      cases copy with
      | error e => exact each_done _
      | ok copy => exact each_map (assign_allowed target ⟨k, copy⟩)

end Workspace

/-! ### Operations -/

namespace Operation

variable {w : Workspace}

/-- Whether the operation passes a container to the slot for a result. -/
def isPass : Operation → Bool
  | pass .. => true
  | _ => false

/-- What is planned calls only what is there. -/
abbrev PlansAllowed (ctx : Context) (passing : Bool)
    (planned : Except Failure (Dialogue Outcome)) : Prop :=
  Except.Ensures (Dialogue.Allowed ctx passing) planned

/-- A plan to make something makes allowed calls only. -/
theorem planNew_allowed (recipe : Recipe) (target : String) :
    PlansAllowed ctx false (planNew ctx w recipe target) := by
  cases recipe with
  | tensor type dims =>
    exact Except.ensures_bind fun type _ => w.keep_allowed target (Tensor.new_allowed type dims)
  | numericArray type dims =>
    exact Except.ensures_bind fun type _ =>
      w.keep_allowed target (NumericArray.new_allowed type dims)
  | image request =>
    exact Except.ensures_bind fun options _ => w.keep_allowed target (Image.new_allowed options)
  | dataStore => exact w.keep_allowed target (Container.obtain_allowed fun _ => trivial)

/-- A plan to convert makes allowed calls only. -/
theorem planConvert_allowed (x : Holding) (r : ConversionRequest) (target : String) :
    PlansAllowed ctx false (planConvert ctx w x r target) := by
  obtain ⟨k, c⟩ := x
  cases k with
  | numericArray =>
    exact Except.ensures_bind fun _ _ => Except.ensures_bind fun _ _ =>
      w.keep_allowed target (NumericArray.convert_allowed c _ _)
  | image =>
    exact Except.ensures_bind fun _ _ => w.keep_allowed target (Image.convert_allowed c _ _)
  | tensor | sparseArray | dataStore => exact trivial

/-- A plan to wrap a handle makes allowed calls only. -/
theorem wrap_allowed (kind : Kind) (handle : Reference) (tagging : Tagging) (target : String) :
    PlansAllowed ctx false ((wrap kind handle tagging target).plan ctx w) := by
  refine Except.ensures_bind fun h _ => ?_
  cases tagging with
  | ownership ownership => exact w.keep_allowed target (Container.wrap_allowed h ownership)
  | mode text =>
    exact Except.ensures_bind fun mode _ =>
      w.keep_allowed target (Container.wrap_allowed h mode.initialOwnership)

/-- A plan to look into a container makes allowed calls only. -/
theorem view_allowed (source : String) (member target : Option String) :
    PlansAllowed ctx false ((view source member target).plan ctx w) := by
  cases member with
  | none => exact Except.ensures_bind fun x _ => w.look_allowed target (each_done _)
  | some name =>
    refine Except.ensures_bind fun a _ => ?_
    cases Member.ofName? name with
    | none => exact trivial
    | some m => exact w.look_allowed target (a.member_allowed m)

/-- A plan to read makes allowed calls only. -/
theorem get_allowed (source accessor : String) :
    PlansAllowed ctx false ((get source accessor).plan ctx w) := by
  refine Except.ensures_bind fun x _ => ?_
  dsimp only
  cases Accessor.ofName? x.kind accessor with
  | none => exact trivial
  | some a => exact each_map (x.container.get_allowed a)

/-- A plan to push makes allowed calls only. -/
theorem push_allowed (store : String) (name : Option String) (value : Pushed) :
    PlansAllowed ctx false ((push store name value).plan ctx w) := by
  refine Except.ensures_bind fun d _ => Except.ensures_bind fun moved _ => ?_
  refine each_bind (d.push_allowed name moved.1) fun r => ?_
  cases r with
  | error e => exact each_done _
  | ok _ => exact each_done _

/-- Whatever is planned for an operation calls only what is there. -/
theorem plan_allowed (op : Operation) : PlansAllowed ctx op.isPass (op.plan ctx w) := by
  cases op with
  | new recipe target => exact planNew_allowed recipe target
  | empty kind target => exact w.keep_allowed target (each_done _)
  | wrap kind handle tagging target => exact wrap_allowed kind handle tagging target
  | move source target =>
    exact Except.ensures_bind fun x _ => Workspace.keep_allowed target (each_done _)
  | take source target =>
    exact Except.ensures_bind fun x _ => Workspace.keep_allowed target (each_done _)
  | drop source => exact Except.ensures_bind fun x _ => each_map x.container.cleanup_allowed
  | clone source target =>
    exact Except.ensures_bind fun x _ => w.keep_allowed target x.container.tryClone_allowed
  | relinquish source handleName =>
    exact Except.ensures_bind fun x _ => each_log trivial (each_done _)
  | intoRaw source handleName =>
    refine Except.ensures_bind fun x _ => ?_
    dsimp only
    rw [Container.intoRaw_eq]
    exact each_log trivial (each_done _)
  | pass source slot hasSlot =>
    refine Except.ensures_bind fun x _ => Except.ensures_bind fun before _ => ?_
    exact each_map (x.container.pass_allowed hasSlot)
  | reset source handle ownership =>
    refine Except.ensures_bind fun x _ => Except.ensures_bind fun h _ => ?_
    exact each_map (x.container.reset_allowed h ownership)
  | state source => exact Except.ensures_bind fun x _ => each_done _
  | get source accessor => exact get_allowed source accessor
  | describe source =>
    exact Except.ensures_bind fun x _ =>
      each_map (Container.describe_each (fun _ a _ h => Happening.allowed_called h a) x.container)
  | view source member target => exact view_allowed source member target
  | convert source request target =>
    exact Except.ensures_bind fun x _ => planConvert_allowed x request target
  | fromTensor data implicit target =>
    exact Except.ensures_bind fun _ _ => Except.ensures_bind fun _ _ =>
      w.keep_allowed target (Container.obtain_allowed fun _ => trivial)
  | fromPositions positions values size implicit target =>
    exact Except.ensures_bind fun _ _ => Except.ensures_bind fun _ _ =>
      Except.ensures_bind fun _ _ => Except.ensures_bind fun _ _ =>
        w.keep_allowed target (Container.obtain_allowed fun _ => trivial)
  | explicitPositions source target =>
    exact Except.ensures_bind fun a _ => w.keep_allowed target (a.computed_allowed _ _)
  | toTensor source target =>
    exact Except.ensures_bind fun a _ => w.keep_allowed target (a.computed_allowed _ _)
  | setImplicit source implicit =>
    exact Except.ensures_bind fun a _ => Except.ensures_bind fun implicit _ =>
      w.update_allowed source (a.setImplicitValue_allowed implicit)
  | resparsify source =>
    exact Except.ensures_bind fun a _ => w.update_allowed source (a.setImplicitValue_allowed none)
  | push store name value => exact push_allowed store name value

/-- **An operation calls only what is there**, and that there is no slot is said by a pass only. -/
theorem perform_allowed (op : Operation) : (op.perform ctx w).Allowed ctx op.isPass := by
  have hplan : PlansAllowed ctx op.isPass (op.plan ctx w) := plan_allowed op
  unfold perform
  cases h : op.plan ctx w with
  | error failure => exact each_done _
  | ok dialogue => rwa [h] at hplan

end Operation

end Custody
