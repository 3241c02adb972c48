import Custody.Proofs.Ledger

namespace Custody

open Dialogue

/-!
# One container at a time

An operation asks the host for at most one container.  What it reads and what it lets go of on the
way asks for none.

* `Dialogue.Requests` -- at most a number of calls on each path ask for a container;
* `requests_bind` -- what is asked for in sequence adds up;
* `Operation.perform_requests` -- **an operation asks for one container at most**.
-/

namespace Dialogue

variable {α β : Type} {n m : Nat}

/-- At most `n` calls on each path ask the host for a container. -/
def Requests (n : Nat) (d : Dialogue α) : Prop :=
  d.Always fun trace _ => (Happening.calls trace).countP (·.yield?.isSome) ≤ n

/-- A dialogue that is over asks for nothing. -/
theorem requests_done (value : α) : (done value).Requests n := Nat.zero_le n

/-- An event asks for nothing. -/
theorem requests_log {event : Event} {next : Dialogue α} (h : next.Requests n) :
    (log event next).Requests n := h

/-- A call asks for one container at most. -/
theorem requests_call {c : Call} {next : c.Answer → Dialogue α}
    (hnext : ∀ answer, (next answer).Requests n) : (call c next).Requests (n + 1) := fun answer =>
  (hnext answer).imp fun trace _ hcount => by
    have hcons : (c :: Happening.calls trace).countP (·.yield?.isSome) =
        (Happening.calls trace).countP (·.yield?.isSome) + if c.yield?.isSome then 1 else 0 :=
      List.countP_cons
    show (c :: Happening.calls trace).countP _ ≤ n + 1
    rw [hcons]
    split <;> omega

/-- What is asked for in sequence adds up. -/
theorem requests_bind {d : Dialogue α} {f : α → Dialogue β} (hd : d.Requests n)
    (hf : ∀ value, (f value).Requests m) : (d.bind f).Requests (n + m) := by
  refine (always_bind d f _).mpr (hd.imp fun trace value hfirst => ?_)
  refine (hf value).imp fun trace' _ hrest => ?_
  rw [Happening.calls_append, List.countP_append]
  omega

/-- All that is asked for is asked for first. -/
theorem requests_first {d : Dialogue α} {f : α → Dialogue β} (hd : d.Requests n)
    (hf : ∀ value, (f value).Requests 0) : (d.bind f).Requests n := requests_bind hd hf

/-- All that is asked for is asked for at the end. -/
theorem requests_last {d : Dialogue α} {f : α → Dialogue β} (hd : d.Requests 0)
    (hf : ∀ value, (f value).Requests n) : (d.bind f).Requests n := by
  have hsum := requests_bind hd hf
  rwa [Nat.zero_add] at hsum

/-- What is made of a value asks for nothing. -/
theorem requests_map {d : Dialogue α} {f : α → β} (hd : d.Requests n) :
    (d.bind fun value => done (f value)).Requests n :=
  requests_first hd fun _ => requests_done _

/-- A dialogue that never asks for a container. -/
theorem requests_of_within {d : Dialogue α} (h : d.Within (·.yield? = none)) : d.Requests n := by
  refine Always.imp h fun trace _ hcalls => ?_
  have hnone : (Happening.calls trace).countP (·.yield?.isSome) = 0 := by
    rw [List.countP_eq_zero]
    intro c hc
    simp [hcalls c hc]
  omega

/-- Readings ask for no container. -/
theorem requests_of_onlyReads {d : Dialogue α} (h : Container.OnlyReads d) : d.Requests n :=
  requests_of_within <| Always.imp h fun _ _ hcalls c hc => Call.yield?_of_isReading (hcalls c hc)

/-- A check asks for nothing. -/
theorem requests_checked {check : Except Error α} {next : α → Dialogue (Except Error β)}
    (hnext : ∀ value, (next value).Requests n) : (checked check next).Requests n := by
  cases check with
  | error e => exact requests_done _
  | ok value => exact hnext value

end Dialogue

variable {ctx : Context}

/-! ### Containers -/

namespace Container

variable {k : Kind}

/-- A cleanup asks for no container. -/
theorem cleanup_requests (c : Container k) : (c.cleanup ctx).Requests 0 :=
  requests_of_within (c.cleanup_within rfl rfl)

/-- A reset asks for no container. -/
theorem reset_requests (c : Container k) (h : Handle) (ownership : Ownership) :
    (c.reset ctx h ownership).Requests 0 := by
  rw [reset_eq]
  split
  · exact requests_done _
  · exact requests_map c.cleanup_requests

/-- Wrapping a handle asks for no container. -/
theorem wrap_requests {n : Nat} (h : Handle) (ownership : Ownership) :
    (wrap h ownership : Attempt (Container k)).run.Requests n := by
  rw [wrap_run]
  split
  · exact requests_done _
  · exact requests_log (requests_done _)

/-- Passing a container asks for no other. -/
theorem pass_requests (c : Container k) (hasSlot : Bool) : (c.pass hasSlot).Requests 0 := by
  rw [pass_eq]
  split
  · exact requests_done _
  · split
    · exact requests_log (requests_done _)
    · exact requests_log (requests_done _)

/-- Adopting the answer of a call takes the one request that the call is. -/
theorem adopt_requests (call : Call) (failure : Refusal → Error) (event : Handle → Event) :
    (adopt call failure event : Attempt (Container k)).run.Requests 1 := by
  rw [adopt_run]
  refine requests_call fun answer => ?_
  cases call.shape.granted .null answer with
  | error refusal => exact requests_done _
  | ok h => exact requests_log (requests_done _)

/-- An attempt at an entry takes one request at most. -/
theorem obtain_requests (call : Call) (failure : Refusal → Error) (event : Handle → Event) :
    (obtain ctx call failure event : Attempt (Container k)).run.Requests 1 := by
  rw [obtain_run]
  exact requests_checked fun _ => adopt_requests call failure event

/-- A copy takes one request at most. -/
theorem tryClone_requests (c : Container k) : (c.tryClone ctx).run.Requests 1 := by
  rw [tryClone_run]
  split
  · exact requests_done _
  · exact obtain_requests _ _ _

/-- A container that is not the caller's is copied before it is pushed. -/
theorem transferable_requests (c : Container k) : (c.transferable ctx).Requests 1 := by
  rw [transferable_eq]
  split
  · exact requests_done _
  · split
    · exact requests_done _
    · exact requests_log <|
        requests_first c.tryClone_requests fun _ => requests_map c.cleanup_requests

end Container

/-- A tensor takes one request at most. -/
theorem Tensor.new_requests (type : TensorType) (dims : List Int) :
    (Tensor.new ctx type dims).run.Requests 1 := by
  rw [Tensor.new_run]
  exact requests_checked fun _ => Container.obtain_requests _ _ _

/-- A numeric array takes one request at most. -/
theorem NumericArray.new_requests (type : NumericArrayType) (dims : List Int) :
    (NumericArray.new ctx type dims).run.Requests 1 := by
  rw [NumericArray.new_run]
  exact requests_checked fun _ => Container.obtain_requests _ _ _

/-- A converted numeric array takes one request at most. -/
theorem NumericArray.convert_requests (a : NumericArray) (type : NumericArrayType)
    (options : ConversionOptions) : (a.convert ctx type options).run.Requests 1 := by
  rw [NumericArray.convert_run]
  split
  · exact requests_done _
  · exact Container.obtain_requests _ _ _

/-- An image takes one request at most, whether it is flat or has slices. -/
theorem Image.new_requests (o : ImageOptions) : (Image.new ctx o).run.Requests 1 := by
  rw [Image.new_run]
  cases o.fault? with
  | some fault => exact requests_done _
  | none => exact Container.obtain_requests _ _ _

/-- A converted image takes one request at most. -/
theorem Image.convert_requests (i : Image) (type : ImageDataType) (interleaved : Bool) :
    (i.convert ctx type interleaved).run.Requests 1 := by
  rw [Image.convert_run]
  split
  · exact requests_done _
  · exact Container.obtain_requests _ _ _

namespace SparseArray

/-- What is computed from a sparse array takes one request at most. -/
theorem computed_requests (operation : String) (call : Call) (a : SparseArray) :
    (a.computed ctx operation call).run.Requests 1 := by
  rw [computed_run]
  refine requests_checked fun _ => ?_
  split
  · exact requests_done _
  · exact Container.adopt_requests _ _ _

/-- The array that is replaced is only let go of. -/
theorem setImplicitValue_requests (a : SparseArray) (implicit : Option Tensor) :
    (a.setImplicitValue ctx implicit).Requests 1 := by
  rw [setImplicitValue_eq]
  split
  · exact requests_done _
  · dsimp only
    split
    · exact requests_done _
    · refine requests_call fun answer => ?_
      split
      · exact requests_done _
      · exact requests_log (requests_map (a.reset_requests _ _))

end SparseArray

namespace DataStore

variable (d : DataStore) (name : Option String)

/-- Adding a plain value takes one request at most. -/
theorem addPlain_requests (value : Plain) : (d.addPlain ctx name value).Requests 1 := by
  rw [addPlain_eq]
  exact requests_checked fun _ => requests_call fun _ => requests_done _

/-- Only the copy that is pushed is asked for. -/
theorem addContainer_requests {k : Kind} (c : Container k) :
    (d.addContainer ctx name c).Requests 1 := by
  rw [addContainer_eq]
  refine requests_first c.transferable_requests fun r => requests_of_within ?_
  cases r with
  | error e => exact within_done _
  | ok owned =>
    dsimp only
    cases ctx.require (.add name.isSome k.tableName) with
    | error e => exact within_bind (owned.cleanup_within rfl rfl) fun _ => within_done _
    | ok _ => exact within_log (within_call rfl fun _ => within_done _)

/-- A push takes one request at most. -/
theorem push_requests (value : Value) : (d.push ctx name value).Requests 1 := by
  rw [push_eq]
  cases checkPush ctx d name with
  | error e =>
    cases value with
    | plain value => exact requests_done _
    | container k c => exact requests_last c.cleanup_requests fun _ => requests_done _
  | ok _ =>
    have hadd : (d.add ctx name value).Requests 1 := by
      cases value with
      | plain value => exact addPlain_requests d name value
      | container k c => exact addContainer_requests d name c
    refine requests_first hadd fun r => ?_
    cases r with
    | error e => exact requests_done _
    | ok _ => exact requests_log (requests_done _)

end DataStore

/-! ### Operations -/

namespace Workspace

variable {w : Workspace} {k : Kind}

/-- An assignment asks for no container. -/
theorem assign_requests (name : String) (x : Holding) : (w.assign ctx name x).Requests 0 := by
  unfold assign
  cases w.find? name with
  | none => exact requests_done _
  | some old => exact requests_map old.container.cleanup_requests

/-- Keeping what was made takes no further request. -/
theorem keep_requests {made : Attempt (Container k)} (target : String)
    (hmade : made.run.Requests 1) : (w.keep ctx target made).Requests 1 := by
  refine requests_first hmade fun r => ?_
  cases r with
  | error e => exact requests_done _
  | ok c => exact requests_map (assign_requests target ⟨k, c⟩)

/-- A change in place takes the request of the change. -/
theorem update_requests {change : Dialogue (Except Error Unit × Container k)} (name : String)
    (hchange : change.Requests 1) : (w.update name change).Requests 1 := by
  refine requests_first hchange fun r => ?_
  obtain ⟨result, c⟩ := r
  cases result with
  | error e => exact requests_done _
  | ok _ => exact requests_done _

/-- A view is read, and copied if a copy is wanted. -/
theorem look_requests {viewed : Attempt (Container k)} (target : Option String)
    (hviewed : viewed.run.Requests 0) : (w.look ctx target viewed).Requests 1 := by
  refine requests_last hviewed fun r => ?_
  cases r with
  | error e => exact requests_done _
  | ok v =>
    have hshare : (v.shareCount ctx).Requests 0 := requests_of_onlyReads (v.shareCount_within ctx)
    have htype : (v.queryType ctx).Requests 0 := requests_of_onlyReads (v.queryType_within ctx)
    refine requests_last hshare fun shareCount => requests_last htype fun type => ?_
    cases target with
    | none => exact requests_done _
    | some target =>
      refine requests_first v.tryClone_requests fun copy => ?_
      cases copy with
      | error e => exact requests_done _
      | ok copy => exact requests_map (assign_requests target ⟨k, copy⟩)

end Workspace

namespace Operation

variable {w : Workspace}

/-- What is planned asks for one container at most. -/
abbrev PlansRequests (planned : Except Failure (Dialogue Outcome)) : Prop :=
  Except.Ensures (Dialogue.Requests 1) planned

/-- A lookup asks for nothing. -/
theorem holding_bind_requests {source : String} {f : Holding → Except Failure (Dialogue Outcome)}
    (h : ∀ x, PlansRequests (f x)) : PlansRequests (w.holding source >>= f) :=
  Except.ensures_bind fun x _ => h x

/-- A plan to make something takes one request at most. -/
theorem planNew_requests (recipe : Recipe) (target : String) :
    PlansRequests (planNew ctx w recipe target) := by
  cases recipe with
  | tensor type dims =>
    exact Except.ensures_bind fun type _ => w.keep_requests target (Tensor.new_requests type dims)
  | numericArray type dims =>
    exact Except.ensures_bind fun type _ =>
      w.keep_requests target (NumericArray.new_requests type dims)
  | image request =>
    exact Except.ensures_bind fun options _ => w.keep_requests target (Image.new_requests options)
  | dataStore => exact w.keep_requests target (Container.obtain_requests _ _ _)

/-- A plan to convert takes one request at most. -/
theorem planConvert_requests (x : Holding) (r : ConversionRequest) (target : String) :
    PlansRequests (planConvert ctx w x r target) := by
  obtain ⟨k, c⟩ := x
  cases k with
  | numericArray =>
    exact Except.ensures_bind fun _ _ => Except.ensures_bind fun _ _ =>
      w.keep_requests target (NumericArray.convert_requests c _ _)
  | image =>
    exact Except.ensures_bind fun _ _ => w.keep_requests target (Image.convert_requests c _ _)
  | tensor | sparseArray | dataStore => exact trivial

/-- A plan to wrap a handle takes one request at most. -/
theorem wrap_requests (kind : Kind) (handle : Reference) (tagging : Tagging) (target : String) :
    PlansRequests ((wrap kind handle tagging target).plan ctx w) := by
  refine Except.ensures_bind fun h _ => ?_
  cases tagging with
  | ownership ownership => exact w.keep_requests target (Container.wrap_requests h ownership)
  | mode text =>
    exact Except.ensures_bind fun mode _ =>
      w.keep_requests target (Container.wrap_requests h mode.initialOwnership)

/-- A plan to look into a container takes one request at most, for a copy. -/
theorem view_requests (source : String) (member target : Option String) :
    PlansRequests ((view source member target).plan ctx w) := by
  cases member with
  | none => exact holding_bind_requests fun x => w.look_requests target (requests_done _)
  | some name =>
    refine Except.ensures_bind fun a _ => ?_
    cases Member.ofName? name with
    | none => exact trivial
    | some m =>
      exact w.look_requests target (requests_of_onlyReads (SparseArray.member_within ctx m a))

/-- A plan to read takes one request at most. -/
theorem get_requests (source accessor : String) :
    PlansRequests ((get source accessor).plan ctx w) := by
  refine holding_bind_requests fun x => ?_
  dsimp only
  cases Accessor.ofName? x.kind accessor with
  | none => exact trivial
  | some a => exact requests_map (requests_of_onlyReads (x.container.get_within ctx a))

/-- A plan to push takes one request at most, for a copy. -/
theorem push_requests (store : String) (name : Option String) (value : Pushed) :
    PlansRequests ((push store name value).plan ctx w) := by
  refine Except.ensures_bind fun d _ => Except.ensures_bind fun moved _ => ?_
  refine requests_first (d.push_requests name moved.1) fun r => ?_
  cases r with
  | error e => exact requests_done _
  | ok _ => exact requests_done _

/-- Whatever is planned for an operation asks for one container at most. -/
theorem plan_requests (op : Operation) : PlansRequests (op.plan ctx w) := by
  cases op with
  | new recipe target => exact planNew_requests recipe target
  | empty kind target => exact w.keep_requests target (requests_done _)
  | wrap kind handle tagging target => exact wrap_requests kind handle tagging target
  | move source target =>
    exact holding_bind_requests fun x => Workspace.keep_requests target (requests_done _)
  | take source target =>
    exact holding_bind_requests fun x => Workspace.keep_requests target (requests_done _)
  | drop source =>
    exact holding_bind_requests fun x =>
      requests_last x.container.cleanup_requests fun _ => requests_done _
  | clone source target =>
    exact holding_bind_requests fun x => w.keep_requests target x.container.tryClone_requests
  | relinquish source handleName =>
    exact holding_bind_requests fun x => requests_log (requests_done _)
  | intoRaw source handleName =>
    refine holding_bind_requests fun x => ?_
    dsimp only
    rw [Container.intoRaw_eq]
    exact requests_log (requests_done _)
  | pass source slot hasSlot =>
    refine holding_bind_requests fun x => Except.ensures_bind fun before _ => ?_
    exact requests_last (x.container.pass_requests hasSlot) fun passing => requests_done _
  | reset source handle ownership =>
    refine holding_bind_requests fun x => Except.ensures_bind fun h _ => ?_
    exact requests_last (x.container.reset_requests h ownership) fun _ => requests_done _
  | state source => exact holding_bind_requests fun x => requests_done _
  | get source accessor => exact get_requests source accessor
  | describe source =>
    exact holding_bind_requests fun x =>
      requests_map (requests_of_onlyReads (x.container.describe_within ctx))
  | view source member target => exact view_requests source member target
  | convert source request target =>
    exact holding_bind_requests fun x => planConvert_requests x request target
  | fromTensor data implicit target =>
    exact Except.ensures_bind fun _ _ => Except.ensures_bind fun _ _ =>
      w.keep_requests target (Container.obtain_requests _ _ _)
  | fromPositions positions values size implicit target =>
    exact Except.ensures_bind fun _ _ => Except.ensures_bind fun _ _ =>
      Except.ensures_bind fun _ _ => Except.ensures_bind fun _ _ =>
        w.keep_requests target (Container.obtain_requests _ _ _)
  | explicitPositions source target =>
    exact Except.ensures_bind fun a _ =>
      w.keep_requests target (SparseArray.computed_requests _ _ a)
  | toTensor source target =>
    exact Except.ensures_bind fun a _ =>
      w.keep_requests target (SparseArray.computed_requests _ _ a)
  | setImplicit source implicit =>
    exact Except.ensures_bind fun a _ => Except.ensures_bind fun implicit _ =>
      w.update_requests source (a.setImplicitValue_requests implicit)
  | resparsify source =>
    exact Except.ensures_bind fun a _ => w.update_requests source (a.setImplicitValue_requests none)
  | push store name value => exact push_requests store name value

/-- **An operation asks for one container at most.** -/
theorem perform_requests (op : Operation) : (op.perform ctx w).Requests 1 := by
  have hplan : PlansRequests (op.plan ctx w) := plan_requests op
  unfold perform
  cases h : op.plan ctx w with
  | error failure => exact requests_done _
  | ok dialogue => rwa [h] at hplan

end Operation

end Custody
