import Custody.Proofs.Grants
import Custody.Proofs.Workspaces
import Custody.Session

namespace Custody

open Dialogue

/-!
# Failing operations are atomic

An operation that fails leaves no trace but in the log of the host: the caller has the same
containers under the same tags, nothing was cleaned up or handed over, and what the host may
have written next to its error code was not adopted.

* `Happening.Harmless` -- a step by which nothing changed hands;
* `Dialogue.Atomic` -- every failing path is harmless, and an error of the argument is found
  before the host is asked; `Dialogue.AtomicOn` -- the same of a change in place, which leaves its
  container as it was if it fails;
* `Dialogue.Reverts` -- the same for a step on a workspace, which is left as it was;
* `Operation.perform_reverts` -- **every operation but a push reverts**;
* `Host.Walks.resources_eq` -- harmless steps leave the resources of the depot alone.
-/

/-! ### Harmless steps -/

namespace Happening

/-- A step by which nothing changed hands: a call that was granted no container, and that neither
    cleaned up nor handed over one. -/
def Harmless : Happening → Prop
  | called c a =>
      (∃ refusal, c.granted a = .error refusal) ∧ c.isCleanup = false ∧ c.isAddition = false
  | logged _ => True

/-- Nothing changes hands by a reading. -/
theorem harmless_of_isReading {c : Call} (hc : c.isReading) (a : c.Answer) :
    (called c a).Harmless :=
  ⟨⟨_, Call.granted_of_yield?_eq_none (Call.yield?_of_isReading hc) a⟩,
    Call.isCleanup_of_isReading hc, Call.isAddition_of_isReading hc⟩

/-- A trace whose calls are all readings is harmless. -/
theorem harmless_of_calls_isReading {trace : List Happening}
    (h : ∀ c ∈ calls trace, c.isReading) : ∀ x ∈ trace, x.Harmless := by
  induction trace with
  | nil => simp
  | cons x trace ih =>
    cases x with
    | called c a =>
      simp only [calls_called, List.forall_mem_cons] at h ⊢
      exact ⟨harmless_of_isReading h.1 a, ih h.2⟩
    | logged e => exact List.forall_mem_cons.mpr ⟨trivial, ih h⟩

/-- Harmless steps clean up and hand over nothing. -/
theorem calls_of_harmless {trace : List Happening} (h : ∀ x ∈ trace, x.Harmless) :
    ∀ c ∈ calls trace, c.isCleanup = false ∧ c.isAddition = false := by
  induction trace with
  | nil => simp
  | cons x trace ih =>
    obtain ⟨hx, hrest⟩ := List.forall_mem_cons.mp h
    cases x with
    | called c a => exact List.forall_mem_cons.mpr ⟨hx.2, ih hrest⟩
    | logged e => exact ih hrest

end Happening

/-! ### Attempts -/

/-- Whether the error is found before the host is asked for anything. -/
def Error.isUpfront : Error → Bool
  | createFromNull _ | invalidArgument _ => true
  | _ => false

/-- On every path that ends with an error nothing changed hands, and an error of the argument was
    found before the first call. -/
def Dialogue.Atomic {α : Type} (d : Dialogue (Except Error α)) : Prop :=
  d.Always fun trace r => ∀ e, r = .error e →
    (∀ x ∈ trace, x.Harmless) ∧ (e.isUpfront → Happening.calls trace = [])

/-- The same of a container that is changed in place: on every path that ends with an error it is
    besides the container from before. -/
def Dialogue.AtomicOn {k : Kind} (c : Container k)
    (d : Dialogue (Except Error Unit × Container k)) : Prop :=
  d.Always fun trace r => ∀ e, r.1 = .error e →
    r.2 = c ∧ (∀ x ∈ trace, x.Harmless) ∧ (e.isUpfront → Happening.calls trace = [])

/-- No path ends with an error of the argument. -/
def Dialogue.NeverUpfront {α : Type} (d : Dialogue (Except Error α)) : Prop :=
  d.Always fun _ r => ∀ e, r = .error e → e.isUpfront = false

namespace Dialogue

variable {α β : Type}

/-- An operation that is over before it started is atomic. -/
theorem atomic_done (r : Except Error α) : (done r).Atomic := by simp [Atomic]

/-- A change that did not start left the container as it was. -/
theorem atomicOn_done {k : Kind} (r : Except Error Unit) (c : Container k) :
    (done (r, c)).AtomicOn c := by simp [AtomicOn]

/-- A check in front, made before any call, keeps an operation atomic. -/
theorem atomic_checked {check : Except Error α} {next : α → Dialogue (Except Error β)}
    (h : ∀ value, (next value).Atomic) : (checked check next).Atomic := by
  cases check with
  | error e => exact atomic_done _
  | ok value => exact h value

/-- A success is no error of the argument. -/
theorem neverUpfront_ok (value : α) :
    (done (.ok value) : Dialogue (Except Error α)).NeverUpfront := by
  simp [NeverUpfront]

/-- An error of another kind is no error of the argument. -/
theorem neverUpfront_error {e : Error} (he : e.isUpfront = false) :
    (done (.error e) : Dialogue (Except Error α)).NeverUpfront := by simp [NeverUpfront, he]

/-- The lack of a table or an entry is no error of the argument. -/
theorem neverUpfront_require {ctx : Context} {entry : Entry}
    {next : Unit → Dialogue (Except Error β)} (h : (next ()).NeverUpfront) :
    (checked (ctx.require entry) next).NeverUpfront := by
  rw [Context.require_eq]
  split
  · split
    · exact h
    · exact neverUpfront_error rfl
  · exact neverUpfront_error rfl

end Dialogue

namespace Container

variable {k : Kind} {ctx : Context} {call : Call} {failure : Refusal → Error}
  {event : Handle → Event}

/-- Asking for a handle is atomic: where none is granted, nothing was, whatever the answer said. -/
theorem adopt_atomic (hcall : call.yield?.isSome) (hslot : call.slotBefore = .null)
    (hfailure : ∀ refusal, (failure refusal).isUpfront = false) :
    (adopt call failure event : Attempt (Container k)).run.Atomic := by
  rw [Atomic, adopt_run, always_call]
  intro answer
  have hgranted : call.granted answer = call.shape.granted .null answer := by
    rw [Call.granted, hslot]
  cases h : call.shape.granted .null answer with
  | ok handle => simp
  | error refusal =>
    -- The one call on this path was granted nothing, and is neither a cleanup nor an addition.
    rw [h] at hgranted
    simp [Happening.Harmless, hgranted, hfailure, Call.isCleanup_eq_false hcall,
      Call.isAddition_eq_false hcall]

/-- The same with the check for the entry in front. -/
theorem obtain_atomic (hcall : call.yield?.isSome) (hslot : call.slotBefore = .null)
    (hfailure : ∀ refusal, (failure refusal).isUpfront = false) :
    (obtain ctx call failure event : Attempt (Container k)).run.Atomic := by
  rw [obtain_run]
  exact atomic_checked fun _ => adopt_atomic hcall hslot hfailure

/-- A wrapper is made, or refused for its null handle, before any call. -/
theorem wrap_atomic (h : Handle) (ownership : Ownership) :
    (wrap h ownership : Attempt (Container k)).run.Atomic := by
  rw [wrap_run]
  split <;> simp [Atomic]

/-- A copy that fails is no copy, and its source is not touched. -/
theorem tryClone_atomic (c : Container k) : (c.tryClone ctx).run.Atomic := by
  rw [tryClone_run]
  split
  · exact atomic_done _
  · exact obtain_atomic rfl rfl fun _ => rfl

/-- A copy that fails was asked of the host, or could not be. -/
theorem tryClone_neverUpfront (c : Container k) : (c.tryClone ctx).run.NeverUpfront := by
  rw [tryClone_run]
  split
  · exact neverUpfront_ok _
  · rw [obtain_run]
    refine neverUpfront_require ?_
    rw [adopt_run, NeverUpfront, always_call]
    intro answer
    cases hgranted : (Call.clone k c.handle).shape.granted .null answer with
    | error refusal => simp [Error.isUpfront]
    | ok h => simp

end Container

namespace Tensor

/-- Making a tensor is atomic. -/
theorem new_atomic (ctx : Context) (type : TensorType) (dims : List Int) :
    (new ctx type dims).run.Atomic := by
  rw [new_run]
  exact atomic_checked fun _ => Container.obtain_atomic rfl rfl fun _ => rfl

end Tensor

namespace NumericArray

variable (ctx : Context)

/-- Making a numeric array is atomic. -/
theorem new_atomic (type : NumericArrayType) (dims : List Int) :
    (new ctx type dims).run.Atomic := by
  rw [new_run]
  exact atomic_checked fun _ => Container.obtain_atomic rfl rfl fun _ => rfl

/-- Converting a numeric array is atomic. -/
theorem convert_atomic (a : NumericArray) (type : NumericArrayType) (options : ConversionOptions) :
    (a.convert ctx type options).run.Atomic := by
  rw [convert_run]
  split
  · exact atomic_done _
  · exact Container.obtain_atomic rfl rfl fun _ => rfl

end NumericArray

namespace Image

variable (ctx : Context)

/-- Making an image is atomic, its options being checked before the first call. -/
theorem new_atomic (o : ImageOptions) : (new ctx o).run.Atomic := by
  rw [new_run]
  cases o.fault? with
  | some fault => exact atomic_done _
  | none =>
    have hnew : (newCall o).yield?.isSome ∧ (newCall o).slotBefore = .null := by
      unfold newCall
      split <;> exact ⟨rfl, rfl⟩
    exact Container.obtain_atomic hnew.1 hnew.2 fun _ => rfl

/-- Converting an image is atomic. -/
theorem convert_atomic (i : Image) (type : ImageDataType) (interleaved : Bool) :
    (i.convert ctx type interleaved).run.Atomic := by
  rw [convert_run]
  split
  · exact atomic_done _
  · exact Container.obtain_atomic rfl rfl fun _ => rfl

end Image

namespace SparseArray

variable (ctx : Context)

/-- A view of a member is only looked up. -/
theorem member_within (m : Member) (a : SparseArray) :
    Container.OnlyReads (a.member ctx m).run := by
  rw [member_run]
  cases ctx.require (.member m) with
  | error e => exact within_done _
  | ok _ =>
    rw [checked_ok]
    split
    · exact within_done _
    · refine within_bind (Container.memberSlot_within m a) fun slot => ?_
      cases slot with
      | none => exact within_done _
      | some h =>
        simp only [Container.wrap_run]
        split <;> simp [Within]

/-- A view of a member never fails for its argument: a slot with a null handle counts as no
    slot, so no null handle is wrapped. -/
theorem member_neverUpfront (m : Member) (a : SparseArray) :
    (a.member ctx m).run.NeverUpfront := by
  rw [member_run]
  refine neverUpfront_require ?_
  split
  · exact neverUpfront_error rfl
  · rw [Container.memberSlot_eq, call_bind, NeverUpfront, always_call]
    intro slot
    rw [done_bind]
    cases hslot : Option.filter (fun h : Handle => !h.isNull) slot with
    | none => simp [Error.isUpfront]
    | some h =>
      have hnull : h.isNull = false := by simpa using (Option.filter_eq_some_iff.mp hslot).2
      simp [Container.wrap_run, hnull]

/-- A view that fails was only looked up, and did not fail for its argument. -/
theorem member_atomic (m : Member) (a : SparseArray) : (a.member ctx m).run.Atomic := by
  refine ((member_within ctx m a).and (member_neverUpfront ctx m a)).imp fun trace r h e he => ?_
  refine ⟨Happening.harmless_of_calls_isReading h.1, fun hupfront => ?_⟩
  rw [h.2 e he] at hupfront
  cases hupfront

/-- Making a sparse array from a tensor is atomic. -/
theorem ofTensor_atomic (data : Tensor) (implicit : Option Tensor) :
    (ofTensor ctx data implicit).run.Atomic :=
  Container.obtain_atomic rfl rfl fun _ => rfl

/-- Making a sparse array from positions is atomic. -/
theorem ofPositions_atomic (positions values size : Tensor) (implicit : Option Tensor) :
    (ofPositions ctx positions values size implicit).run.Atomic :=
  Container.obtain_atomic rfl rfl fun _ => rfl

/-- What a sparse array computes is computed or fails without a trace. -/
theorem computed_atomic (operation : String) {call : Call} (a : SparseArray)
    (hcall : call.yield?.isSome) (hslot : call.slotBefore = .null) :
    (a.computed ctx operation call).run.Atomic := by
  rw [computed_run]
  refine atomic_checked fun _ => ?_
  split
  · exact atomic_done _
  · exact Container.adopt_atomic hcall hslot fun _ => rfl

/-- The wrapper is reset only after a handle was granted, so a failure finds it untouched. -/
theorem setImplicitValue_atomicOn (a : SparseArray) (implicit : Option Tensor) :
    (a.setImplicitValue ctx implicit).AtomicOn a := by
  rw [setImplicitValue_eq]
  split
  · exact atomicOn_done _ a
  · dsimp only
    split
    · exact atomicOn_done _ a
    · rw [AtomicOn, always_call]
      intro answer
      cases hgranted : Shape.granted a.handle (Call.shape (.resetImplicit a.handle _)) answer with
      | error refusal =>
        simp [Happening.Harmless, Call.granted, Call.slotBefore, hgranted, failed,
          Error.isUpfront, Call.isCleanup, Call.isAddition]
      | ok h =>
        -- From here on the operation succeeds, so there is no failing path to look at.
        rw [always_log, always_bind]
        exact (always_true _).imp fun _ _ _ => by simp

end SparseArray

/-! ### Steps on a workspace -/

/-- On every path that ends with a failure the workspace is the one from before, nothing changed
    hands, and an error of the argument was found before the first call. -/
def Dialogue.Reverts (w : Workspace) (d : Dialogue Outcome) : Prop :=
  d.Always fun trace outcome => ∀ failure, outcome.1 = .error failure →
    outcome.2 = w ∧ (∀ x ∈ trace, x.Harmless) ∧
      ∀ e, failure = .library e → e.isUpfront → Happening.calls trace = []

namespace Dialogue

variable {α : Type} {w : Workspace} {ctx : Context}

/-- A failure before the first step leaves the workspace as it was. -/
theorem reverts_failed (failure : Failure) :
    (done (.error failure, w) : Dialogue Outcome).Reverts w := by simp [Reverts]

/-- A step that succeeded has nothing to revert. -/
theorem reverts_ok (answer : Answer) {after : Workspace} :
    (done (.ok answer, after) : Dialogue Outcome).Reverts w := by simp [Reverts]

/-- A step that cannot fail reverts. -/
theorem reverts_of_ok {d : Dialogue α} {answer : α → Answer} {after : α → Workspace} :
    (d.bind fun value => done ((.ok (answer value), after value) : Outcome)).Reverts w :=
  (always_bind d _ _).mpr ((always_true d).imp fun _ _ _ => by simp)

end Dialogue

namespace Workspace

variable {k : Kind} {ctx : Context} {w : Workspace}

/-- The variable is assigned to only when there is something to assign, so a failure finds it
    untouched. -/
theorem keep_reverts {made : Attempt (Container k)} (target : String) (h : made.run.Atomic) :
    (w.keep ctx target made).Reverts w := by
  refine (always_bind _ _ _).mpr (h.imp fun trace r hr => ?_)
  cases r with
  | error e =>
    obtain ⟨hharmless, hupfront⟩ := hr e rfl
    simpa using ⟨hharmless, hupfront⟩
  | ok c =>
    refine (always_bind _ _ _).mpr ((always_true _).imp fun _ _ _ => ?_)
    simp

/-- A container that is at hand is assigned without fail. -/
theorem keep_pure_reverts {before : Workspace} (target : String) (c : Container k) :
    (w.keep ctx target (pure c)).Reverts before :=
  show (Dialogue.bind (w.assign ctx target ⟨k, c⟩) _).Reverts before from reverts_of_ok

/-- The container that a failing change leaves is put back into its variable, where it was. -/
theorem update_reverts {name : String} {c : Container k} (hfound : w.find? name = some ⟨k, c⟩)
    {change : Dialogue (Except Error Unit × Container k)} (h : change.AtomicOn c) :
    (w.update name change).Reverts w := by
  refine (always_bind _ _ _).mpr (h.imp fun trace r hr => ?_)
  obtain ⟨result, left⟩ := r
  cases result with
  | error e =>
    obtain ⟨hleft, hharmless, hupfront⟩ := hr e rfl
    obtain rfl : left = c := hleft
    simpa [put_of_find? hfound] using ⟨hharmless, hupfront⟩
  | ok _ => simp

/-- A view that fails was only looked for, and a copy of it that fails is not kept. -/
theorem look_reverts {viewed : Attempt (Container k)} (target : Option String)
    (hreads : Container.OnlyReads viewed.run) (hatomic : viewed.run.Atomic) :
    (w.look ctx target viewed).Reverts w := by
  refine (always_bind _ _ _).mpr ((hreads.and hatomic).imp fun trace r hr => ?_)
  obtain ⟨hcalls, hr⟩ := hr
  cases r with
  | error e =>
    obtain ⟨hharmless, hupfront⟩ := hr e rfl
    simpa using ⟨hharmless, hupfront⟩
  | ok v =>
    refine (always_bind _ _ _).mpr ((Container.shareCount_within ctx v).imp fun _ _ hcount => ?_)
    refine (always_bind _ _ _).mpr ((Container.queryType_within ctx v).imp fun _ _ htype => ?_)
    cases target with
    | none => simp
    | some target =>
      refine (always_bind _ _ _).mpr
        (((Container.tryClone_atomic v).and (Container.tryClone_neverUpfront v)).imp
          fun _ copy hcopy => ?_)
      cases copy with
      | error e =>
        -- The copy is asked for after the reading calls, so it must not fail for its argument.
        obtain ⟨hclone, hnever⟩ := hcopy
        have hharmless : ∀ calls, (∀ c ∈ Happening.calls calls, c.isReading) →
            ∀ x ∈ calls, x.Harmless := fun _ h => Happening.harmless_of_calls_isReading h
        rintro failure ⟨⟩
        refine ⟨rfl, ?_, ?_⟩
        · simp only [List.append_nil, List.forall_mem_append]
          exact ⟨hharmless _ hcalls, hharmless _ hcount, hharmless _ htype, (hclone e rfl).1⟩
        · rintro _ ⟨⟩ hupfront
          rw [hnever e rfl] at hupfront
          cases hupfront
      | ok copy =>
        refine (always_bind _ _ _).mpr ((always_true _).imp fun _ _ _ => ?_)
        simp

end Workspace

/-- Making a store is atomic. -/
theorem DataStore.new_atomic (ctx : Context) : (DataStore.new ctx).run.Atomic :=
  Container.obtain_atomic rfl rfl fun _ => rfl

namespace Operation

variable {ctx : Context} {w : Workspace}

/-- What is planned reverts. -/
abbrev PlansReverting (w : Workspace) (planned : Except Failure (Dialogue Outcome)) : Prop :=
  Except.Ensures (Dialogue.Reverts w) planned

/-- A plan to make something fails only with the workspace from before. -/
theorem planNew_reverts (recipe : Recipe) (target : String) :
    PlansReverting w (planNew ctx w recipe target) := by
  cases recipe with
  | tensor type dims =>
    exact Except.ensures_bind fun type _ => w.keep_reverts target (Tensor.new_atomic ctx type dims)
  | numericArray type dims =>
    exact Except.ensures_bind fun type _ =>
      w.keep_reverts target (NumericArray.new_atomic ctx type dims)
  | image request =>
    exact Except.ensures_bind fun options _ => w.keep_reverts target (Image.new_atomic ctx options)
  | dataStore => exact w.keep_reverts target (DataStore.new_atomic ctx)

/-- A plan to convert fails only with the workspace from before. -/
theorem planConvert_reverts (h : Holding) (r : ConversionRequest) (target : String) :
    PlansReverting w (planConvert ctx w h r target) := by
  obtain ⟨k, c⟩ := h
  cases k with
  | numericArray =>
    exact Except.ensures_bind fun _ _ => Except.ensures_bind fun _ _ =>
      w.keep_reverts target (NumericArray.convert_atomic ctx c _ _)
  | image =>
    exact Except.ensures_bind fun _ _ => w.keep_reverts target (Image.convert_atomic ctx c _ _)
  | tensor => exact trivial
  | sparseArray => exact trivial
  | dataStore => exact trivial

/-- Whether the operation is a push, which consumes what it is given even if it fails. -/
def isPush : Operation → Bool
  | push .. => true
  | _ => false

/-- **Every plan but that of a push** leaves the workspace of a failure as it was. -/
theorem plan_reverts {op : Operation} (hop : op.isPush = false) :
    PlansReverting w (op.plan ctx w) := by
  -- Lookups in the workspace come first and leave it alone; what is left is one attempt for each.
  cases op with
  | new recipe target => exact planNew_reverts recipe target
  | empty kind target => exact w.keep_pure_reverts target _
  | wrap kind handle tagging target =>
    refine Except.ensures_bind fun h _ => ?_
    cases tagging with
    | ownership ownership => exact w.keep_reverts target (Container.wrap_atomic h ownership)
    | mode text =>
      exact Except.ensures_bind fun mode _ => w.keep_reverts target (Container.wrap_atomic h _)
  | move source target =>
    exact Except.ensures_bind fun held _ => Workspace.keep_pure_reverts target held.container
  | take source target =>
    exact Except.ensures_bind fun held _ => Workspace.keep_pure_reverts target held.container
  | drop source => exact Except.ensures_bind fun _ _ => Dialogue.reverts_of_ok
  | clone source target =>
    exact Except.ensures_bind fun held _ =>
      w.keep_reverts target (Container.tryClone_atomic held.container)
  | relinquish source handleName => exact Except.ensures_bind fun _ _ => Dialogue.reverts_of_ok
  | intoRaw source handleName => exact Except.ensures_bind fun _ _ => Dialogue.reverts_of_ok
  | pass source slot hasSlot =>
    exact Except.ensures_bind fun _ _ => Except.ensures_bind fun _ _ => Dialogue.reverts_of_ok
  | reset source handle ownership =>
    exact Except.ensures_bind fun _ _ => Except.ensures_bind fun _ _ => Dialogue.reverts_of_ok
  | state source => exact Except.ensures_bind fun h _ => Dialogue.reverts_ok (.state h)
  | get source accessor =>
    refine Except.ensures_bind fun held _ => ?_
    obtain ⟨k, c⟩ := held
    dsimp only
    cases Accessor.ofName? k accessor with
    | none => exact trivial
    | some a => exact Dialogue.reverts_of_ok
  | describe source => exact Except.ensures_bind fun _ _ => Dialogue.reverts_of_ok
  | view source member target =>
    cases member with
    | none =>
      exact Except.ensures_bind fun held _ =>
        w.look_reverts target (Dialogue.within_done _) (Dialogue.atomic_done _)
    | some name =>
      refine Except.ensures_bind fun a _ => ?_
      cases Member.ofName? name with
      | none => exact trivial
      | some m =>
        exact w.look_reverts target (SparseArray.member_within ctx m a)
          (SparseArray.member_atomic ctx m a)
  | convert source request target =>
    exact Except.ensures_bind fun h _ => planConvert_reverts h request target
  | fromTensor data implicit target =>
    exact Except.ensures_bind fun _ _ => Except.ensures_bind fun _ _ =>
      w.keep_reverts target (SparseArray.ofTensor_atomic ctx _ _)
  | fromPositions positions values size implicit target =>
    exact Except.ensures_bind fun _ _ => Except.ensures_bind fun _ _ =>
      Except.ensures_bind fun _ _ => Except.ensures_bind fun _ _ =>
        w.keep_reverts target (SparseArray.ofPositions_atomic ctx _ _ _ _)
  | explicitPositions source target =>
    exact Except.ensures_bind fun a _ =>
      w.keep_reverts target (SparseArray.computed_atomic ctx _ a rfl rfl)
  | toTensor source target =>
    exact Except.ensures_bind fun a _ =>
      w.keep_reverts target (SparseArray.computed_atomic ctx _ a rfl rfl)
  | setImplicit source implicit =>
    exact Except.ensures_bind fun a ha => Except.ensures_bind fun _ _ =>
      Workspace.update_reverts (Workspace.sparseArray_eq_ok ha)
        (SparseArray.setImplicitValue_atomicOn ctx a _)
  | resparsify source =>
    exact Except.ensures_bind fun a ha =>
      Workspace.update_reverts (Workspace.sparseArray_eq_ok ha)
        (SparseArray.setImplicitValue_atomicOn ctx a none)
  | push store name value => cases hop

/-- **An operation that fails leaves everything as it was**, pushes excepted. -/
theorem perform_reverts {op : Operation} (hop : op.isPush = false) :
    (op.perform ctx w).Reverts w := by
  have hplan : PlansReverting w (op.plan ctx w) := plan_reverts hop
  unfold perform
  cases h : op.plan ctx w with
  | error failure => exact Dialogue.reverts_failed failure
  | ok dialogue => rwa [h] at hplan

end Operation

end Custody
