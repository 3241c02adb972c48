import Custody.Proofs.Phrases

namespace Custody

open Dialogue

/-!
# Whatever is done is a speech

Every operation is put together from the phrases of the grammar, and leaves no container behind that
is both empty and somebody's to clean up.

* `Tensor.new_orderly`, `SparseArray.member_orderly`, `DataStore.push_orderly` and one statement for
  each other operation on containers;
* `Workspace.Proper`, `Answer.Proper` -- the containers of a workspace and of an answer;
* `Operation.perform_orderly` -- **every operation on a workspace is a speech**, and leaves a proper
  workspace as it finds one;
* `Operation.performAll_orderly`, `Workspace.dropAll_orderly` -- and so are any number of them, and
  letting go of everything.
-/

variable {ctx : Context}

/-! ### Dense kinds -/

open Container (MadeAnew)

/-- Making a tensor is a speech, and what is made has a handle. -/
theorem Tensor.new_orderly (type : TensorType) (dims : List Int) :
    (Tensor.new ctx type dims).run.Orderly ctx MadeAnew := by
  rw [Tensor.new_run]
  exact orderly_checked (fun _ => Except.makes_error _) fun _ =>
    Container.obtain_orderly rfl rfl List.not_mem_nil (.tensor type dims)

/-- Making a numeric array is a speech, and what is made has a handle. -/
theorem NumericArray.new_orderly (type : NumericArrayType) (dims : List Int) :
    (NumericArray.new ctx type dims).run.Orderly ctx MadeAnew := by
  rw [NumericArray.new_run]
  exact orderly_checked (fun _ => Except.makes_error _) fun _ =>
    Container.obtain_orderly rfl rfl List.not_mem_nil (.numericArray type dims)

/-- Converting a numeric array is a speech, and what is made has a handle. -/
theorem NumericArray.convert_orderly (a : NumericArray) (type : NumericArrayType)
    (options : ConversionOptions) : (a.convert ctx type options).run.Orderly ctx MadeAnew := by
  rw [NumericArray.convert_run]
  split
  · exact orderly_done (Except.makes_error _)
  · next hnull =>
    exact Container.obtain_orderly rfl rfl (Container.null_notMem_singleton hnull)
      (.convertedArray a.handle type options)

/-- Making an image is a speech, and what is made has a handle. -/
theorem Image.new_orderly (o : ImageOptions) : (Image.new ctx o).run.Orderly ctx MadeAnew := by
  rw [Image.new_run]
  cases o.fault? with
  | some fault => exact orderly_done (Except.makes_error _)
  | none =>
    have hnew : (newCall o).yield?.isSome ∧ (newCall o).slotBefore = .null ∧
        Handle.null ∉ (newCall o).subjects := by
      unfold newCall
      split <;> exact ⟨rfl, rfl, List.not_mem_nil⟩
    exact Container.obtain_orderly hnew.1 hnew.2.1 hnew.2.2 (.image o)

/-- Converting an image is a speech, and what is made has a handle. -/
theorem Image.convert_orderly (i : Image) (type : ImageDataType) (interleaved : Bool) :
    (i.convert ctx type interleaved).run.Orderly ctx MadeAnew := by
  rw [Image.convert_run]
  split
  · exact orderly_done (Except.makes_error _)
  · next hnull =>
    exact Container.obtain_orderly rfl rfl (Container.null_notMem_singleton hnull)
      (.convertedImage i.handle type interleaved)

/-! ### Sparse arrays -/

namespace SparseArray

/-- Making a sparse array from a tensor is a speech, and what is made has a handle. -/
theorem ofTensor_orderly (data : Tensor) (implicit : Option Tensor) :
    (ofTensor ctx data implicit).run.Orderly ctx MadeAnew :=
  Container.obtain_orderly rfl rfl List.not_mem_nil (.fromTensor data.handle _)

/-- Making a sparse array from positions is a speech, and what is made has a handle. -/
theorem ofPositions_orderly (positions values size : Tensor) (implicit : Option Tensor) :
    (ofPositions ctx positions values size implicit).run.Orderly ctx MadeAnew :=
  Container.obtain_orderly rfl rfl List.not_mem_nil
    (.fromPositions positions.handle values.handle size.handle _)

/-- Computing something from a sparse array is a speech, and what is computed has a handle. -/
theorem computed_orderly {operation : String} {call : Call} (a : SparseArray)
    (hcall : call.yield?.isSome) (hslot : call.slotBefore = .null)
    (hsubjects : ¬a.isNull → .null ∉ call.subjects)
    (hreports : ∀ h, Event.Reports (.computed operation a.handle h) call h) :
    (a.computed ctx operation call).run.Orderly ctx MadeAnew := by
  rw [computed_run]
  refine orderly_checked (fun _ => Except.makes_error _) fun _ => ?_
  split
  · exact orderly_done (Except.makes_error _)
  · next hnull => exact Container.adopt_orderly hcall hslot (hsubjects hnull) hreports

/-- Asking for the positions of the explicit values is a speech. -/
theorem explicitPositions_orderly (a : SparseArray) :
    (a.explicitPositions ctx).run.Orderly ctx MadeAnew :=
  a.computed_orderly rfl rfl Container.null_notMem_singleton (.explicitPositions a.handle)

/-- Asking for the dense tensor of an array is a speech. -/
theorem toTensor_orderly (a : SparseArray) : (a.toTensor ctx).run.Orderly ctx MadeAnew :=
  a.computed_orderly rfl rfl Container.null_notMem_singleton (.toTensor a.handle)

/-- A view of a member has a handle. -/
theorem member_orderly (m : Member) (a : SparseArray) :
    (a.member ctx m).run.Orderly ctx (Except.Makes Container.Proper) := by
  rw [member_run]
  refine orderly_checked (fun _ => Except.makes_error _) fun _ => ?_
  split
  · exact orderly_done (Except.makes_error _)
  · next hnull =>
    rw [Container.memberSlot_eq, call_bind]
    refine orderly_reading rfl (Container.null_notMem_singleton hnull) fun slot => ?_
    rw [done_bind]
    cases Option.filter (fun h : Handle => !h.isNull) slot with
    | none => exact orderly_done (Except.makes_error _)
    | some h => exact Container.wrap_orderly h .hostManaged

/-- An array that is replaced is cleaned up after the event that tells of the new one. -/
theorem setImplicitValue_orderly {a : SparseArray} (ha : a.Proper) (implicit : Option Tensor) :
    (a.setImplicitValue ctx implicit).Orderly ctx fun r => r.2.Proper := by
  rw [setImplicitValue_eq]
  split
  · exact orderly_done ha
  · next hnull =>
    dsimp only
    split
    · exact orderly_done ha
    · let ownership (h : Handle) : Ownership := if h = a.handle then a.ownership else .callerOwned
      have hreports : ∀ h, Event.Reports (.implicitReset a.handle h (ownership h))
          (.resetImplicit a.handle (handleOrNull implicit)) h := fun h =>
        .implicitReset a.handle _ h _ fun hne => if_neg hne
      have hsubject :
          Handle.null ∉ (Call.resetImplicit a.handle (handleOrNull implicit)).subjects :=
        Container.null_notMem_singleton hnull
      refine orderly_request rfl rfl hsubject hreports (fun _ => ha) fun h _ => ?_
      exact orderly_map (a.reset_orderly h (ownership h)) fun _ hproper => hproper

end SparseArray

/-! ### Data stores -/

/-- Making a store is a speech, and what is made has a handle. -/
theorem DataStore.new_orderly : (DataStore.new ctx).run.Orderly ctx MadeAnew :=
  Container.obtain_orderly rfl rfl List.not_mem_nil .dataStore

/-- What a store can take over has a handle. -/
theorem Container.transferable_orderly {k : Kind} (c : Container k) :
    (c.transferable ctx).Orderly ctx MadeAnew := by
  rw [transferable_eq]
  split
  · exact orderly_done (Except.makes_error _)
  · next hnull =>
    have hne : c.handle ≠ .null := by simpa [isNull] using hnull
    split
    · exact orderly_done (Except.makes_ok hne)
    · refine orderly_remark rfl (orderly_bind c.tryClone_orderly fun copy hcopy => ?_)
      exact orderly_map c.cleanup_orderly fun _ _ made hmade => (hcopy made hmade).2 hne

namespace DataStore

variable {d : DataStore} (name : Option String)

/-- Adding a plain value to a store is a speech. -/
theorem addPlain_orderly (value : Plain) (hd : ¬d.isNull) :
    (d.addPlain ctx name value).Orderly ctx fun _ => True := by
  rw [addPlain_eq]
  refine orderly_checked (fun _ => trivial) fun _ => ?_
  exact orderly_added rfl (Container.null_notMem_singleton hd) fun _ => orderly_done trivial

/-- Store and container both have handles when the entry is called. -/
theorem addContainer_orderly {k : Kind} (c : Container k) (hd : ¬d.isNull) :
    (d.addContainer ctx name c).Orderly ctx fun _ => True := by
  rw [addContainer_eq]
  refine orderly_bind c.transferable_orderly fun r hr => ?_
  cases r with
  | error e => exact orderly_done trivial
  | ok owned =>
    dsimp only
    cases ctx.require (.add name.isSome k.tableName) with
    | error e => exact orderly_map owned.cleanup_orderly fun _ _ => trivial
    | ok _ =>
      refine orderly_remark rfl (orderly_added rfl ?_ fun _ => orderly_done trivial)
      show Handle.null ∉ [d.handle, owned.handle]
      intro hmem
      rcases List.mem_cons.mp hmem with hstore | hchild
      · exact hd (Handle.isNull_iff.mpr hstore.symm)
      · exact hr owned rfl (List.mem_singleton.mp hchild).symm

/-- **A push is a speech**, whatever is objected to it. -/
theorem push_orderly (value : Value) : (d.push ctx name value).Orderly ctx fun _ => True := by
  rw [push_eq]
  cases hcheck : checkPush ctx d name with
  | error e =>
    cases value with
    | plain value => exact orderly_done trivial
    | container k c => exact orderly_map c.cleanup_orderly fun _ _ => trivial
  | ok _ =>
    have hd : ¬d.isNull := by
      rw [isNull_of_checkPush hcheck]
      exact Bool.false_ne_true
    have hadd : (d.add ctx name value).Orderly ctx fun _ => True := by
      cases value with
      | plain value => exact addPlain_orderly name value hd
      | container k c => exact addContainer_orderly name c hd
    refine orderly_bind hadd fun r _ => ?_
    cases r with
    | error e => exact orderly_done trivial
    | ok _ => exact orderly_remark rfl (orderly_done trivial)

end DataStore

/-! ### Workspaces -/

/-- No container in a variable is both empty and somebody's to clean up. -/
def Workspace.Proper (w : Workspace) : Prop := ∀ name x, w.find? name = some x → x.container.Proper

/-- The same of a container or a view in an answer. -/
def Answer.Proper : Answer → Prop
  | .holding x | .state x | .viewed x _ _ => x.container.Proper
  | _ => True

/-- The workspace after an operation is proper, and so is its answer if it has one. -/
def Outcome.Proper (outcome : Outcome) : Prop :=
  Except.Makes Answer.Proper outcome.1 ∧ outcome.2.Proper

namespace Workspace

variable {w : Workspace} {k : Kind}

/-- A proper container in a variable leaves a workspace proper. -/
theorem Proper.put (hw : w.Proper) (name : String) {x : Holding} (hx : x.container.Proper) :
    (w.put name x).Proper := by
  intro other y hy
  rw [find?_put] at hy
  split at hy
  · obtain rfl : x = y := Option.some.inj hy
    exact hx
  · exact hw other y hy

/-- A variable less leaves a workspace proper. -/
theorem Proper.remove (hw : w.Proper) (name : String) : (w.remove name).Proper := by
  intro other y hy
  rw [find?_remove] at hy
  split at hy
  · cases hy
  · exact hw other y hy

/-- A handle that is noted by name leaves a workspace proper. -/
theorem Proper.record (hw : w.Proper) (name : Option String) (h : Handle) :
    (w.record name h).Proper := by
  cases name with
  | none => exact hw
  | some name => exact hw

/-- A failure over a proper workspace is a proper outcome. -/
theorem orderly_error (hw : w.Proper) (failure : Failure) :
    (done (.error failure, w) : Dialogue Outcome).Orderly ctx Outcome.Proper :=
  orderly_done ⟨Except.makes_error _, hw⟩

/-- A proper answer over a proper workspace is a proper outcome. -/
theorem orderly_answer (hw : w.Proper) {answer : Answer} (hanswer : answer.Proper) :
    (done (.ok answer, w) : Dialogue Outcome).Orderly ctx Outcome.Proper :=
  orderly_done ⟨Except.makes_ok hanswer, hw⟩

/-- What is assigned to a variable replaces what was there, which is cleaned up. -/
theorem assign_orderly (hw : w.Proper) (name : String) {x : Holding} (hx : x.container.Proper) :
    (w.assign ctx name x).Orderly ctx Workspace.Proper := by
  unfold assign
  cases w.find? name with
  | none => exact orderly_done (hw.put name hx)
  | some old => exact orderly_map old.container.cleanup_orderly fun _ _ => hw.put name hx

/-- Keeping what was made is a speech, and the workspace stays proper. -/
theorem keep_orderly {made : Attempt (Container k)} (hw : w.Proper) (target : String)
    (hmade : made.run.Orderly ctx (Except.Makes Container.Proper)) :
    (w.keep ctx target made).Orderly ctx Outcome.Proper := by
  refine orderly_bind hmade fun r hr => ?_
  cases r with
  | error e => exact orderly_error hw _
  | ok c =>
    have hc : c.Proper := hr c rfl
    have hassign : (w.assign ctx target ⟨k, c⟩).Orderly ctx Workspace.Proper :=
      assign_orderly hw target hc
    exact orderly_bind hassign fun w' hw' => orderly_answer hw' hc

/-- What was made anew is proper, for it has a handle. -/
theorem keep_orderly_anew {made : Attempt (Container k)} (hw : w.Proper) (target : String)
    (hmade : made.run.Orderly ctx MadeAnew) : (w.keep ctx target made).Orderly ctx Outcome.Proper :=
  keep_orderly hw target (hmade.weaken fun _ hr c hc => Container.proper_of_ne_null (hr c hc))

/-- Keeping a container that is there is a speech, and the workspace stays proper. -/
theorem keep_orderly_pure {c : Container k} (hw : w.Proper) (target : String) (hc : c.Proper) :
    (w.keep ctx target (pure c)).Orderly ctx Outcome.Proper :=
  keep_orderly hw target (orderly_done (Except.makes_ok hc))

/-- A change in place is a speech, and the workspace stays proper. -/
theorem update_orderly {change : Dialogue (Except Error Unit × Container k)} (hw : w.Proper)
    (name : String) (hchange : change.Orderly ctx fun r => r.2.Proper) :
    (w.update name change).Orderly ctx Outcome.Proper := by
  refine orderly_bind hchange fun r hr => ?_
  obtain ⟨result, c⟩ := r
  cases result with
  | error e => exact orderly_error (hw.put name hr) _
  | ok _ => exact orderly_answer (hw.put name hr) trivial

/-- Looking at a view is a speech, and the workspace stays proper. -/
theorem look_orderly {viewed : Attempt (Container k)} (hw : w.Proper) (target : Option String)
    (hviewed : viewed.run.Orderly ctx (Except.Makes Container.Proper)) :
    (w.look ctx target viewed).Orderly ctx Outcome.Proper := by
  refine orderly_bind hviewed fun r hr => ?_
  cases r with
  | error e => exact orderly_error hw _
  | ok v =>
    have hv : v.Proper := hr v rfl
    refine orderly_bind v.shareCount_orderly fun shareCount _ => ?_
    refine orderly_bind v.queryType_orderly fun type _ => ?_
    cases target with
    | none => exact orderly_answer hw hv
    | some target =>
      refine orderly_bind v.tryClone_orderly fun copy hcopy => ?_
      cases copy with
      | error e => exact orderly_error hw _
      | ok copy =>
        have hassign : (w.assign ctx target ⟨k, copy⟩).Orderly ctx Workspace.Proper :=
          assign_orderly hw target (hcopy copy rfl).1
        exact orderly_bind hassign fun w' hw' => orderly_answer hw' hv

end Workspace

/-! ### Operations -/

namespace Operation

variable {w : Workspace}

/-- What is planned is a speech and leaves a proper workspace. -/
abbrev PlansOrderly (ctx : Context) (planned : Except Failure (Dialogue Outcome)) : Prop :=
  Except.Ensures (Dialogue.Orderly ctx Outcome.Proper) planned

/-- A lookup finds a proper container in a proper workspace. -/
theorem holding_bind_orderly {source : String} {f : Holding → Except Failure (Dialogue Outcome)}
    (hw : w.Proper) (h : ∀ x, x.container.Proper → PlansOrderly ctx (f x)) :
    PlansOrderly ctx (w.holding source >>= f) :=
  Except.ensures_bind fun x hx => h x (hw source x (Workspace.holding_eq_ok hx))

/-- A plan to make something is a speech. -/
theorem planNew_orderly (hw : w.Proper) (recipe : Recipe) (target : String) :
    PlansOrderly ctx (planNew ctx w recipe target) := by
  cases recipe with
  | tensor type dims =>
    exact Except.ensures_bind fun type _ =>
      w.keep_orderly_anew hw target (Tensor.new_orderly type dims)
  | numericArray type dims =>
    exact Except.ensures_bind fun type _ =>
      w.keep_orderly_anew hw target (NumericArray.new_orderly type dims)
  | image request =>
    exact Except.ensures_bind fun options _ =>
      w.keep_orderly_anew hw target (Image.new_orderly options)
  | dataStore => exact w.keep_orderly_anew hw target DataStore.new_orderly

/-- A plan to convert is a speech. -/
theorem planConvert_orderly (hw : w.Proper) (x : Holding) (r : ConversionRequest)
    (target : String) : PlansOrderly ctx (planConvert ctx w x r target) := by
  obtain ⟨k, c⟩ := x
  cases k with
  | numericArray =>
    exact Except.ensures_bind fun _ _ => Except.ensures_bind fun _ _ =>
      w.keep_orderly_anew hw target (NumericArray.convert_orderly c _ _)
  | image =>
    exact Except.ensures_bind fun _ _ =>
      w.keep_orderly_anew hw target (Image.convert_orderly c _ _)
  | tensor => exact trivial
  | sparseArray => exact trivial
  | dataStore => exact trivial

/-- A plan to wrap a handle is a speech. -/
theorem wrap_orderly (hw : w.Proper) (kind : Kind) (handle : Reference) (tagging : Tagging)
    (target : String) : PlansOrderly ctx ((wrap kind handle tagging target).plan ctx w) := by
  refine Except.ensures_bind fun h _ => ?_
  cases tagging with
  | ownership ownership => exact w.keep_orderly hw target (Container.wrap_orderly h ownership)
  | mode text =>
    exact Except.ensures_bind fun mode _ =>
      w.keep_orderly hw target (Container.wrap_orderly h mode.initialOwnership)

/-- The tag of a container that is given up is the host's. -/
theorem relinquish_orderly (hw : w.Proper) (source : String) (handleName : Option String) :
    PlansOrderly ctx ((relinquish source handleName).plan ctx w) := by
  refine Except.ensures_bind fun x _ => ?_
  refine orderly_remark rfl (Workspace.orderly_answer ?_ trivial)
  exact (hw.put source (Container.proper_hostManaged _)).record handleName _

/-- A plan to pass a container is a speech. -/
theorem pass_orderly (hw : w.Proper) (source : String) (slot : Reference) (hasSlot : Bool) :
    PlansOrderly ctx ((pass source slot hasSlot).plan ctx w) := by
  refine holding_bind_orderly hw fun x hx => Except.ensures_bind fun before _ => ?_
  refine orderly_bind (Container.pass_orderly hx hasSlot) fun passing hpassing => ?_
  exact Workspace.orderly_answer (hw.put source hpassing) trivial

/-- A plan to look into a container is a speech. -/
theorem view_orderly (hw : w.Proper) (source : String) (member target : Option String) :
    PlansOrderly ctx ((view source member target).plan ctx w) := by
  cases member with
  | none =>
    refine Except.ensures_bind fun x _ => ?_
    have hview : x.container.view.Proper := Container.proper_hostManaged x.container.handle
    exact w.look_orderly hw target (orderly_done (Except.makes_ok hview))
  | some name =>
    refine Except.ensures_bind fun a _ => ?_
    cases Member.ofName? name with
    | none => exact trivial
    | some m => exact w.look_orderly hw target (SparseArray.member_orderly m a)

/-- A plan to read is a speech. -/
theorem get_orderly (hw : w.Proper) (source accessor : String) :
    PlansOrderly ctx ((get source accessor).plan ctx w) := by
  refine Except.ensures_bind fun x _ => ?_
  dsimp only
  cases Accessor.ofName? x.kind accessor with
  | none => exact trivial
  | some a =>
    exact orderly_bind (x.container.get_orderly a) fun _ _ => Workspace.orderly_answer hw trivial

/-- A container that is pushed is gone from its variable, and nothing else has changed. -/
theorem planPushed_proper {store : String} {value : Pushed} {moved : Value × Workspace}
    (hw : w.Proper) (hmoved : planPushed w store value = .ok moved) : moved.2.Proper := by
  cases value with
  | plain value =>
    obtain rfl := Except.ok.inj hmoved
    exact hw
  | «variable» name =>
    simp only [planPushed] at hmoved
    split at hmoved
    · cases hmoved
    · cases hfound : w.holding name with
      | error failure =>
        rw [hfound] at hmoved
        cases hmoved
      | ok x =>
        rw [hfound] at hmoved
        obtain rfl := Except.ok.inj hmoved
        exact hw.remove name

/-- A plan to push is a speech. -/
theorem push_orderly (hw : w.Proper) (store : String) (name : Option String) (value : Pushed) :
    PlansOrderly ctx ((push store name value).plan ctx w) := by
  refine Except.ensures_bind fun d _ => Except.ensures_bind fun moved hmoved => ?_
  have hw' : moved.2.Proper := planPushed_proper hw hmoved
  refine orderly_bind (DataStore.push_orderly name moved.1) fun r _ => ?_
  cases r with
  | error e => exact Workspace.orderly_error hw' _
  | ok _ => exact Workspace.orderly_answer hw' trivial

/-- Whatever is planned for an operation is a speech. -/
theorem plan_orderly (hw : w.Proper) (op : Operation) : PlansOrderly ctx (op.plan ctx w) := by
  cases op with
  | new recipe target => exact planNew_orderly hw recipe target
  | empty kind target =>
    exact w.keep_orderly_pure hw target (Container.proper_hostManaged (k := kind) .null)
  | wrap kind handle tagging target => exact wrap_orderly hw kind handle tagging target
  | move source target =>
    exact holding_bind_orderly hw fun x hx =>
      Workspace.keep_orderly_pure (hw.remove source) target hx
  | take source target =>
    -- What is left behind is empty, and the host's.
    refine holding_bind_orderly hw fun x hx => ?_
    exact Workspace.keep_orderly_pure (hw.put source (Container.proper_hostManaged .null)) target hx
  | drop source =>
    refine Except.ensures_bind fun x _ => ?_
    exact orderly_bind x.container.cleanup_orderly fun _ _ =>
      Workspace.orderly_answer (hw.remove source) trivial
  | clone source target =>
    refine Except.ensures_bind fun x _ => w.keep_orderly hw target ?_
    exact x.container.tryClone_orderly.weaken fun _ hr copy hcopy => (hr copy hcopy).1
  | relinquish source handleName => exact relinquish_orderly hw source handleName
  | intoRaw source handleName =>
    refine Except.ensures_bind fun x _ => ?_
    dsimp only
    rw [Container.intoRaw_eq]
    exact orderly_remark rfl
      (Workspace.orderly_answer ((hw.remove source).record handleName _) trivial)
  | pass source slot hasSlot => exact pass_orderly hw source slot hasSlot
  | reset source handle ownership =>
    refine Except.ensures_bind fun x _ => Except.ensures_bind fun h _ => ?_
    exact orderly_bind (x.container.reset_orderly h ownership) fun _ hc =>
      Workspace.orderly_answer (hw.put source hc) trivial
  | state source => exact holding_bind_orderly hw fun x hx => Workspace.orderly_answer hw hx
  | get source accessor => exact get_orderly hw source accessor
  | describe source =>
    refine Except.ensures_bind fun x _ => ?_
    exact orderly_bind x.container.describe_orderly fun _ _ => Workspace.orderly_answer hw trivial
  | view source member target => exact view_orderly hw source member target
  | convert source request target =>
    exact Except.ensures_bind fun x _ => planConvert_orderly hw x request target
  | fromTensor data implicit target =>
    exact Except.ensures_bind fun _ _ => Except.ensures_bind fun _ _ =>
      w.keep_orderly_anew hw target (SparseArray.ofTensor_orderly _ _)
  | fromPositions positions values size implicit target =>
    exact Except.ensures_bind fun _ _ => Except.ensures_bind fun _ _ =>
      Except.ensures_bind fun _ _ => Except.ensures_bind fun _ _ =>
        w.keep_orderly_anew hw target (SparseArray.ofPositions_orderly _ _ _ _)
  | explicitPositions source target =>
    exact Except.ensures_bind fun a _ => w.keep_orderly_anew hw target a.explicitPositions_orderly
  | toTensor source target =>
    exact Except.ensures_bind fun a _ => w.keep_orderly_anew hw target a.toTensor_orderly
  | setImplicit source implicit =>
    refine Except.ensures_bind fun a ha => Except.ensures_bind fun implicit _ => ?_
    have hproper : a.Proper := hw source _ (Workspace.sparseArray_eq_ok ha)
    exact w.update_orderly hw source (SparseArray.setImplicitValue_orderly hproper implicit)
  | resparsify source =>
    refine Except.ensures_bind fun a ha => ?_
    have hproper : a.Proper := hw source _ (Workspace.sparseArray_eq_ok ha)
    exact w.update_orderly hw source (SparseArray.setImplicitValue_orderly hproper none)
  | push store name value => exact push_orderly hw store name value

/-- **Every operation is a speech**, and leaves a proper workspace as it finds one. -/
theorem perform_orderly (hw : w.Proper) (op : Operation) :
    (op.perform ctx w).Orderly ctx Outcome.Proper := by
  have hplan : PlansOrderly ctx (op.plan ctx w) := plan_orderly hw op
  unfold perform
  cases h : op.plan ctx w with
  | error failure => exact Workspace.orderly_error hw failure
  | ok dialogue => rwa [h] at hplan

/-- Operations one after the other are a speech, and all their answers are proper. -/
theorem performAll_orderly (hw : w.Proper) (ops : List Operation) :
    (performAll ctx w ops).Orderly ctx fun result =>
      (∀ r ∈ result.1, Except.Makes Answer.Proper r) ∧ result.2.Proper := by
  induction ops generalizing w with
  | nil => exact orderly_done ⟨fun _ hr => absurd hr List.not_mem_nil, hw⟩
  | cons op rest ih =>
    refine orderly_bind (perform_orderly hw op) fun outcome houtcome => ?_
    refine orderly_map (ih houtcome.2) fun result hresult => ?_
    exact ⟨List.forall_mem_cons.mpr ⟨houtcome.1, hresult.1⟩, hresult.2⟩

end Operation

/-- A workspace without variables is proper. -/
theorem Workspace.proper_empty (handles : List (String × Handle)) :
    ({ handles } : Workspace).Proper := by
  intro name x hx
  cases hx

/-- Letting go of containers is a speech. -/
theorem Holding.dropEach_orderly (held : List Holding) :
    (dropEach ctx held).Orderly ctx fun _ => True := by
  induction held with
  | nil => exact orderly_done trivial
  | cons x rest ih => exact orderly_bind x.container.cleanup_orderly fun _ _ => ih

/-- **Letting go of all variables is a speech.** -/
theorem Workspace.dropAll_orderly (w : Workspace) : (w.dropAll ctx).Orderly ctx fun _ => True :=
  orderly_map (Holding.dropEach_orderly _) fun _ _ => trivial

end Custody
