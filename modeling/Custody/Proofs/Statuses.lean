import Custody.Proofs.Adoption
import Custody.Proofs.Pushes

namespace Custody

open Dialogue Happening

/-!
# What an error tells the host

A library function that fails reports a code to the host, and zero there would be taken for
success.  Some errors carry a status that the host gave, others have a code of their own.  Both are
told apart by the trace: where the host reported a failure in a call whose status is passed on, the
error has that status, and where it did not, the error has one of three codes.

* `Status.own` -- the codes of the library itself;
* `Call.passesStatusOn`, `Happening.reported` -- the failures that the host reported on a path;
* `Dialogue.Faithful` -- errors tell what was reported, and nothing that was reported is lost;
* `Container.obtain_faithful`, `DataStore.push_faithful`, and one lemma for each other attempt;
* `Fallible` -- everything in the library that can fail;
* `Fallible.errors_tell_failures` -- **no error reports success**.
-/

/-! ### What is reported -/

/-- The codes by which the library reports failures that no status of the host stands for. -/
def Status.own : List Int := [memoryError, functionError, versionError]

namespace Status

/-- The library's own codes are those of memory, of functions and of versions. -/
theorem mem_own_iff {code : Int} :
    code ∈ own ↔ code = memoryError ∨ code = functionError ∨ code = versionError := by
  simp [own]

/-- The library does not report success as a failure. -/
theorem ne_noError_of_mem_own {code : Int} (h : code ∈ own) : code ≠ noError := by
  rintro rfl
  revert h
  decide

end Status

/-- Whether the status of a failed call is passed on: that of making or copying a container of a
    kind that can be shared, and that of working on a sparse array.  A failed conversion says what
    was asked for instead, and the other entries have no status. -/
def Call.passesStatusOn : Call → Bool
  | newTensor .. | newNumericArray .. | newFlatImage .. | newSlicedImage .. => true
  | clone kind _ => kind.supportsSharing
  | sparseFromTensor .. | sparseFromPositions .. | resetImplicit .. => true
  | explicitPositions _ | toTensor _ => true
  | createStore | convertNumericArray .. | convertImage .. => false
  | read .. | dimensions .. | member .. | free .. | disown .. | add .. => false

/-- The failure that an answer reports, if it reports one. -/
def Shape.failure? (s : Shape) (a : s.Answer) : Option Int :=
  (s.reported? a).filter (· ≠ Status.noError)

namespace Shape

variable {s : Shape} {initial : Handle} {a : s.Answer}

/-- Only an answer that has a status can be a refusal with one. -/
theorem eq_outcome_of_refused {code : Int} (h : s.granted initial a = .error (.status code)) :
    s = .outcome := by
  cases s with
  | outcome => rfl
  | handle =>
    simp only [granted, Handle.granted] at h
    split at h <;> cases h
  | integer | dimensions | slot | nothing => cases h

/-- A reported failure is a status for which no handle is granted, whatever stood in the slot
    before. -/
theorem failure?_eq_some_iff {code : Int} :
    s.failure? a = some code ↔ s.granted initial a = .error (.status code) := by
  constructor
  · intro h
    obtain ⟨hreported, hfailed⟩ := Option.filter_eq_some_iff.mp h
    cases s with
    | outcome =>
      obtain rfl : a.status = code := Option.some.inj hreported
      rw [granted, if_neg (by simpa using hfailed)]
    | handle | integer | dimensions | slot | nothing => cases hreported
  · intro h
    obtain rfl := eq_outcome_of_refused h
    by_cases hok : a.status = Status.noError
    · -- After a success there is no status to refuse with.
      simp only [granted, hok, ↓reduceIte, Handle.granted] at h
      split at h <;> cases h
    · rw [granted, if_neg hok] at h
      obtain rfl : a.status = code := by simpa using h
      simp [failure?, reported?, hok]

end Shape

namespace Happening

/-- The failure that the host reports in a step, if its status is to be passed on. -/
def reported? : Happening → Option Int
  | called c a => if c.passesStatusOn then c.shape.failure? a else none
  | logged _ => none

/-- The failures that the host reports, in order. -/
def reported (trace : List Happening) : List Int := trace.filterMap reported?

@[simp] theorem reported_nil : reported [] = [] := rfl

@[simp] theorem reported_logged (e : Event) (trace : List Happening) :
    reported (.logged e :: trace) = reported trace := rfl

@[simp] theorem reported_append (trace trace' : List Happening) :
    reported (trace ++ trace') = reported trace ++ reported trace' := List.filterMap_append

/-- What is reported begins with what the first call reports. -/
theorem reported_called (c : Call) (a : c.Answer) (trace : List Happening) :
    reported (.called c a :: trace) = (called c a).reported?.toList ++ reported trace := by
  rw [reported, List.filterMap_cons]
  cases (called c a).reported? with
  | none => rfl
  | some code => rfl

/-- What is reported is a failure. -/
theorem ne_noError_of_mem_reported {trace : List Happening} {code : Int}
    (h : code ∈ reported trace) : code ≠ Status.noError := by
  obtain ⟨step, -, hstep⟩ := List.mem_filterMap.mp h
  cases step with
  | logged e => cases hstep
  | called c a =>
    rw [reported?] at hstep
    split at hstep
    · simpa using (Option.filter_eq_some_iff.mp hstep).2
    · cases hstep

/-- Calls whose status is not passed on report nothing. -/
theorem reported_eq_nil {trace : List Happening}
    (h : ∀ c ∈ calls trace, c.passesStatusOn = false) : reported trace = [] := by
  induction trace with
  | nil => rfl
  | cons step trace ih =>
    cases step with
    | logged e => exact ih h
    | called c a =>
      obtain ⟨hc, hrest⟩ := List.forall_mem_cons.mp h
      rw [reported_called, ih hrest, reported?, hc]
      rfl

end Happening

/-! ### Faithful dialogues -/

/-- How an end tells of the failures that were reported on the way to it: a success of none, and an
    error of the one that it is the code of, or of none and then with a code of the library. -/
def Except.Tells {α : Type} (codes : List Int) : Except Error α → Prop
  | .ok _ => codes = []
  | .error e => codes = [e.code] ∨ (codes = [] ∧ e.code ∈ Status.own)

namespace Dialogue

variable {α β : Type}

/-- Errors tell what the host reported, whatever it answers. -/
def Faithful (d : Dialogue (Except Error α)) : Prop :=
  d.Always fun trace r => Except.Tells (reported trace) r

/-- No call of the dialogue has a status that is passed on. -/
abbrev Silent (d : Dialogue α) : Prop := d.Within (·.passesStatusOn = false)

/-- A success without calls tells that nothing was reported. -/
theorem faithful_ok (value : α) : (done (.ok value)).Faithful := rfl

/-- Before anything is called, an error has a code of the library. -/
theorem faithful_error {e : Error} (h : e.code ∈ Status.own) :
    (done (.error e) : Dialogue (Except Error α)).Faithful := .inr ⟨rfl, h⟩

/-- An error of functions tells of no report. -/
theorem faithful_functionError {e : Error} (h : e.code = Status.functionError) :
    (done (.error e) : Dialogue (Except Error α)).Faithful :=
  faithful_error (Status.mem_own_iff.mpr (.inr (.inl h)))

/-- A check in front fails before anything is reported. -/
theorem faithful_checked {check : Except Error α} {next : α → Dialogue (Except Error β)}
    (hcheck : ∀ e, check = .error e → e.code = Status.functionError)
    (hnext : ∀ value, (next value).Faithful) : (checked check next).Faithful := by
  cases check with
  | error e => exact faithful_functionError (hcheck e rfl)
  | ok value => exact hnext value

/-- An event reports nothing. -/
theorem faithful_log {event : Event} {next : Dialogue (Except Error α)} (h : next.Faithful) :
    (log event next).Faithful := h

/-- A dialogue whose own part says nothing about failures leaves the rest to tell. -/
theorem Silent.faithful_bind {d : Dialogue α} {f : α → Dialogue (Except Error β)} (hd : d.Silent)
    (hf : ∀ value, (f value).Faithful) : (d.bind f).Faithful := by
  refine (always_bind _ _ _).mpr (Always.imp hd fun trace value htrace => ?_)
  refine (hf value).imp fun trace' r htells => ?_
  rwa [reported_append, reported_eq_nil htrace, List.nil_append]

/-- A call whose status is not passed on leaves the rest to tell. -/
theorem faithful_call {request : Call} {next : request.Answer → Dialogue (Except Error α)}
    (h : request.passesStatusOn = false) (hnext : ∀ answer, (next answer).Faithful) :
    (call request next).Faithful :=
  Silent.faithful_bind (d := ask request) (within_ask h) hnext

/-- What follows a faithful dialogue may fail in its turn if the first part succeeded.  If it did
    not, its error has to be the end, and nothing else may be reported. -/
theorem Faithful.bind {d : Dialogue (Except Error α)}
    {f : Except Error α → Dialogue (Except Error β)} (hd : d.Faithful)
    (hok : ∀ value, (f (.ok value)).Faithful)
    (herror : ∀ e, (f (.error e)).Silent ∧ (f (.error e)).Always fun _ r => r = .error e) :
    (d.bind f).Faithful := by
  refine (always_bind _ _ _).mpr (Always.imp hd fun trace r htells => ?_)
  cases r with
  | ok value =>
    refine (hok value).imp fun trace' r' htells' => ?_
    have hnothing : reported trace = [] := htells
    rwa [reported_append, hnothing, List.nil_append]
  | error e =>
    refine ((herror e).1.and (herror e).2).imp fun trace' r' hrest => ?_
    obtain ⟨hsilent, rfl⟩ := hrest
    rwa [reported_append, reported_eq_nil hsilent, List.append_nil]

/-- A request for a container is faithful if its errors are: a status that is passed on is the
    code of the error, and any other refusal has a code of the library. -/
theorem faithful_request {request : Call} {initial : Handle} {failure : Refusal → Error}
    {next : Handle → Dialogue (Except Error α)}
    (hstatus : request.shape = .outcome → ∀ code, (failure (.status code)).code =
      if request.passesStatusOn then code else Status.functionError)
    (hnull : (failure .nullHandle).code ∈ Status.own) (hnext : ∀ h, (next h).Faithful) :
    (call request fun answer =>
      match request.shape.granted initial answer with
      | .error refusal => done (.error (failure refusal))
      | .ok h => next h).Faithful := by
  intro answer
  -- A failure is reported exactly by a status that refuses.
  have hnothing : (∀ code, request.shape.granted initial answer ≠ .error (.status code)) →
      (called request answer).reported? = none := by
    intro h
    rw [reported?, Option.eq_none_iff_forall_ne_some.mpr fun code hcode =>
      h code (Shape.failure?_eq_some_iff.mp hcode), ite_self]
  dsimp only
  cases hgranted : request.shape.granted initial answer with
  | ok h =>
    refine (hnext h).imp fun trace r htells => ?_
    rwa [reported_called, hnothing (by simp [hgranted])]
  | error refusal =>
    refine (always_done _ _).mpr ?_
    rw [Except.Tells, reported_called]
    cases refusal with
    | nullHandle => exact .inr ⟨by simp [hnothing, hgranted], hnull⟩
    | status code =>
      have hcode := hstatus (Shape.eq_outcome_of_refused hgranted) code
      rw [reported?, Shape.failure?_eq_some_iff.mpr hgranted, hcode]
      split
      · exact .inl rfl
      · exact .inr ⟨rfl, by decide⟩

end Dialogue

/-! ### Asking for containers -/

variable {ctx : Context}

/-- What the host lacks is no failure that it reported. -/
theorem Context.code_of_require {entry : Entry} {e : Error} (h : ctx.require entry = .error e) :
    e.code = Status.functionError := by
  rw [require_eq] at h
  split at h
  · split at h <;> cases h
    rfl
  · cases h
    rfl

namespace Commission

/-- A dialogue that ends before anything is called, and not with a failure of the host. -/
def EndsAtOnce {α : Type} (d : Dialogue (Except Error α)) : Prop :=
  ∃ r, d = done r ∧ ∀ e, r = .error e → e.code = Status.functionError

/-- What ends at once has nothing to tell. -/
theorem EndsAtOnce.faithful {α : Type} {d : Dialogue (Except Error α)} (h : EndsAtOnce d) :
    d.Faithful := by
  obtain ⟨r, rfl, hcode⟩ := h
  cases r with
  | ok value => exact faithful_ok value
  | error e => exact faithful_functionError (hcode e rfl)

/-- An error with the code of functions ends at once. -/
theorem endsAtOnce_error {α : Type} {e : Error} (h : e.code = Status.functionError) :
    EndsAtOnce (done (.error e) : Dialogue (Except Error α)) := by
  refine ⟨_, rfl, ?_⟩
  rintro e' ⟨⟩
  exact h

/-- Dimensions of which one is negative are refused. -/
theorem endsAtOnce_checkDims {α : Type} {dims : List Int} (k : Kind) (h : ¬∀ d ∈ dims, 0 ≤ d)
    (next : Unit → Dialogue (Except Error α)) : EndsAtOnce (checked (checkDims k dims) next) := by
  rw [checkDims]
  cases hfind : dims.find? (· < 0) with
  | none => exact absurd (by simpa using hfind) h
  | some d => exact endsAtOnce_error rfl

/-- There is nothing to compute from an empty array. -/
theorem endsAtOnce_computed {a : SparseArray} (h : a.isNull) (operation : String) (call : Call) :
    EndsAtOnce (a.computed ctx operation call).run := by
  rw [SparseArray.computed_run]
  cases hentry : ctx.require call.entry with
  | error e => exact endsAtOnce_error (Context.code_of_require hentry)
  | ok _ =>
    rw [checked_ok, if_pos h]
    exact endsAtOnce_error rfl

/-- What is asked for in vain is not asked for at all. -/
theorem endsAtOnce_of_not_admissible {o : Commission} (h : ¬o.Admissible) :
    EndsAtOnce (o.attempt ctx).run := by
  have hnull : ∀ {k : Kind} {c : Container k}, ¬c.handle ≠ .null → c.isNull = true :=
    fun hc => Handle.isNull_iff.mpr (not_not.mp hc)
  cases o with
  | tensor type dims =>
    rw [attempt, Tensor.new_run]
    exact endsAtOnce_checkDims .tensor h _
  | numericArray type dims =>
    rw [attempt, NumericArray.new_run]
    exact endsAtOnce_checkDims .numericArray h _
  | image o =>
    have hgeometry : o.width < 0 ∨ o.height < 0 ∨ o.slices < 0 ∨ o.channels ≤ 0 := by
      simp only [Admissible] at h
      omega
    rw [attempt, Image.new_run, ImageOptions.fault?, if_pos hgeometry]
    exact endsAtOnce_error rfl
  | clone kind source =>
    -- The copy of an empty container is empty, which is the only success among these.
    rw [attempt, Container.tryClone_run, if_pos (hnull h)]
    refine ⟨_, rfl, ?_⟩
    rintro e ⟨⟩
  | convertedArray source type options =>
    rw [attempt, NumericArray.convert_run, if_pos (hnull h)]
    exact endsAtOnce_error rfl
  | convertedImage source type interleaved =>
    rw [attempt, Image.convert_run, if_pos (hnull h)]
    exact endsAtOnce_error rfl
  | explicitPositions array => exact endsAtOnce_computed (hnull h) _ _
  | toTensor array => exact endsAtOnce_computed (hnull h) _ _
  | dataStore | fromTensor | fromPositions => exact absurd trivial h

/-- The error for a failure has the status as its code if the status is passed on. -/
theorem code_refused (o : Commission) (hshape : o.call.shape = .outcome) (code : Int) :
    (o.refused code).code = if o.call.passesStatusOn then code else Status.functionError := by
  cases o with
  | image o =>
    have hpasses : (Image.newCall o).passesStatusOn = true := by
      unfold Image.newCall
      split <;> rfl
    rw [call, hpasses]
    rfl
  | clone kind source =>
    cases kind with
    | dataStore => cases hshape
    | _ => rfl
  | dataStore | convertedImage => cases hshape
  | _ => rfl

/-- The error for a container that was promised and not given has a code of its own. -/
theorem code_unfulfilled_mem_own (o : Commission) : o.unfulfilled.code ∈ Status.own := by
  cases o with
  | convertedArray | convertedImage => exact Status.mem_own_iff.mpr (.inr (.inl rfl))
  | _ => exact Status.mem_own_iff.mpr (.inl rfl)

/-- **Asking for a container is faithful**, whatever is asked for. -/
theorem attempt_faithful (o : Commission) : (o.attempt ctx).run.Faithful := by
  by_cases admissible : o.Admissible
  · obtain ⟨event, hrun⟩ := attempt_run admissible ctx
    rw [hrun, Container.obtain_run, Container.adopt_run]
    refine faithful_checked (fun _ => Context.code_of_require) fun _ => ?_
    exact faithful_request o.code_refused o.code_unfulfilled_mem_own
      fun h => faithful_log (faithful_ok _)
  · exact (endsAtOnce_of_not_admissible admissible).faithful

end Commission

/-! ### Sparse arrays and data stores -/

/-- Nothing in letting go of a container reports a failure. -/
theorem Container.cleanup_silent {k : Kind} (c : Container k) : (c.cleanup ctx).Silent :=
  c.cleanup_within rfl rfl

/-- Nothing in wrapping a handle can be told by the host. -/
theorem Container.wrap_faithful {k : Kind} (h : Handle) (ownership : Ownership) :
    (wrap h ownership : Attempt (Container k)).run.Faithful := by
  rw [wrap_run]
  split
  · exact faithful_error (Status.mem_own_iff.mpr (.inl rfl))
  · exact faithful_log (faithful_ok _)

namespace SparseArray

/-- A view is faithful, for its lookup reports no status. -/
theorem member_faithful (m : Member) (a : SparseArray) : (a.member ctx m).run.Faithful := by
  rw [member_run]
  refine faithful_checked (fun _ => Context.code_of_require) fun _ => ?_
  split
  · exact faithful_functionError rfl
  · rw [Container.memberSlot_eq]
    refine faithful_call rfl fun slot => ?_
    rw [done_bind]
    cases slot.filter fun h => !h.isNull with
    | none => exact faithful_functionError rfl
    | some h => exact Container.wrap_faithful h _

/-- Nothing is reported when the array that is replaced goes away, which is after the answer. -/
theorem setImplicitValue_faithful (a : SparseArray) (implicit : Option Tensor) :
    (Prod.fst <$> a.setImplicitValue ctx implicit).Faithful := by
  have hnull : (failed "set_implicit_value" .nullHandle).code ∈ Status.own :=
    Status.mem_own_iff.mpr (.inl rfl)
  rw [map_fst_setImplicitValue]
  split
  · exact faithful_functionError rfl
  · refine faithful_checked (fun _ => Context.code_of_require) fun _ => ?_
    refine faithful_request (fun _ _ => rfl) hnull fun h => faithful_log ?_
    rw [Container.reset_eq]
    split
    · exact faithful_ok _
    · rw [bind_assoc]
      exact a.cleanup_silent.faithful_bind fun _ => faithful_ok _

end SparseArray

/-- A copy that failed is told of after the original has gone away. -/
theorem Container.transferable_faithful {k : Kind} (c : Container k) :
    (c.transferable ctx).Faithful := by
  rw [transferable_eq]
  split
  · exact faithful_functionError rfl
  · split
    · exact faithful_ok _
    · refine faithful_log (Faithful.bind (Commission.attempt_faithful (.clone k c))
        (fun copy => c.cleanup_silent.faithful_bind fun _ => faithful_ok copy) fun e => ?_)
      refine ⟨within_bind c.cleanup_silent fun _ => within_done _, (always_bind _ _ _).mpr ?_⟩
      exact (always_true _).imp fun _ _ _ => rfl

/-- Text with a NUL is refused by the library. -/
theorem code_of_textFault? {text : String} {e : Error} (h : textFault? text = some e) :
    e.code = Status.functionError := by
  obtain ⟨offset, -, rfl⟩ := Option.map_eq_some_iff.mp h
  rfl

namespace DataStore

variable (d : DataStore) (name : Option String)

/-- Nothing that is objected to before the value is looked at comes from the host. -/
theorem code_of_checkPush {e : Error} (h : checkPush ctx d name = .error e) :
    e.code = Status.functionError := by
  rw [checkPush_verdict] at h
  have hmem := mem_of_verdict h
  simp only [storeObjections, List.mem_cons, List.not_mem_nil, or_false] at hmem
  rcases hmem with hempty | hname | htable
  · split at hempty <;> cases hempty
    rfl
  · obtain ⟨text, -, hfault⟩ := Option.bind_eq_some_iff.mp hname.symm
    exact code_of_textFault? hfault
  · split at htable <;> cases htable
    rfl

/-- Adding a plain value is faithful, for it reports no status. -/
theorem addPlain_faithful (value : Plain) : (d.addPlain ctx name value).Faithful := by
  rw [addPlain_eq]
  refine faithful_checked (fun e he => ?_) fun _ => faithful_call rfl fun _ => faithful_ok ()
  cases hplain : addPlain.checkPlain value with
  | error e' =>
    rw [hplain] at he
    obtain rfl : e' = e := Except.error.inj he
    cases value with
    | string text =>
      have hverdict := (checkTerminated_eq text).symm.trans hplain
      exact code_of_textFault? (List.mem_singleton.mp (mem_of_verdict hverdict)).symm
    | _ => cases hplain
  | ok _ =>
    rw [hplain] at he
    exact Context.code_of_require he

/-- Adding a container is faithful to what was reported when it was copied. -/
theorem addContainer_faithful {k : Kind} (c : Container k) :
    (d.addContainer ctx name c).Faithful := by
  rw [addContainer_eq]
  refine c.transferable_faithful.bind (fun owned => ?_) fun e => ⟨within_done _, rfl⟩
  dsimp only
  split
  · next e he =>
    have hcode := Context.code_of_require he
    exact owned.cleanup_silent.faithful_bind fun _ => faithful_functionError hcode
  · exact faithful_log (faithful_call rfl fun _ => faithful_ok ())

/-- **A push is faithful**, though it may copy, clean up and add. -/
theorem push_faithful (value : Value) : (d.push ctx name value).Faithful := by
  rw [push_eq]
  cases hcheck : checkPush ctx d name with
  | error e =>
    have hdrop : (value.drop ctx).Silent := by
      cases value with
      | plain value => exact within_done _
      | container k c => exact c.cleanup_silent
    have hcode := code_of_checkPush d name hcheck
    exact hdrop.faithful_bind fun _ => faithful_functionError hcode
  | ok _ =>
    have hadd : (d.add ctx name value).Faithful := by
      cases value with
      | plain value => exact d.addPlain_faithful name value
      | container k c => exact d.addContainer_faithful name c
    exact hadd.bind (fun _ => faithful_log (faithful_ok _)) fun e => ⟨within_done _, rfl⟩

end DataStore

/-! ### Everything that can fail -/

/-- Everything in the library that can fail, with its arguments. -/
inductive Fallible : Type 1 where
  | parsing (text : String)
  | decoding (α : Type) (codes : HostCode α) (n : Int)
  | opening (library : Option Context.Library)
  | wrapping (kind : Kind) (h : Handle) (ownership : Ownership)
  | wrappingArgument (kind : Kind) (h : Handle) (mode : PassingMode)
  | asking (o : Commission)
  | member (m : Member) (a : SparseArray)
  | setImplicitValue (a : SparseArray) (implicit : Option Tensor)
  | resparsify (a : SparseArray)
  | push (d : DataStore) (name : Option String) (value : Value)

namespace Fallible

/-- What it gives if it does not fail. -/
abbrev Result : Fallible → Type
  | parsing _ => PassingMode
  | decoding α _ _ => α
  | opening _ => Context
  | wrapping kind .. | wrappingArgument kind .. => Container kind
  | asking o => Container o.kind
  | member .. => Tensor
  | setImplicitValue .. | resparsify _ | push .. => Unit

/-- What it says to the host. -/
def dialogue (ctx : Context) : (f : Fallible) → Dialogue (Except Error f.Result)
  | parsing text => done (PassingMode.parse text)
  | decoding α _ n => done (HostCode.decode α n)
  | opening library => (Context.ofLibrary library).run
  | wrapping _ h ownership => (Container.wrap h ownership).run
  | wrappingArgument _ h mode => (Container.wrapArgument h mode).run
  | asking o => (o.attempt ctx).run
  | member m a => (a.member ctx m).run
  | setImplicitValue a implicit => Prod.fst <$> a.setImplicitValue ctx implicit
  | resparsify a => Prod.fst <$> a.resparsify ctx
  | push d name value => d.push ctx name value

/-- **Whatever can fail is faithful.** -/
theorem dialogue_faithful (f : Fallible) (ctx : Context) : (f.dialogue ctx).Faithful := by
  cases f with
  | parsing text =>
    show (done (PassingMode.parse text)).Faithful
    unfold PassingMode.parse
    split
    · exact faithful_ok _
    · exact faithful_functionError rfl
  | decoding α codes n =>
    show (done (HostCode.decode α n)).Faithful
    unfold HostCode.decode
    split
    · exact faithful_ok _
    · exact faithful_functionError rfl
  | opening library =>
    cases library with
    | none => exact faithful_functionError rfl
    | some library =>
      show (Context.ofLibrary (some library)).run.Faithful
      by_cases hversion : library.version = Version.tables
      · simp only [Context.ofLibrary, Context.ofTables, hversion, ne_eq, not_true_eq_false,
          ↓reduceIte]
        exact faithful_log (faithful_ok _)
      · simp only [Context.ofLibrary, hversion, ne_eq, not_false_eq_true, ↓reduceIte]
        exact faithful_error (Status.mem_own_iff.mpr (.inr (.inr rfl)))
  | wrapping kind h ownership => exact Container.wrap_faithful h ownership
  | wrappingArgument kind h mode => exact Container.wrap_faithful h _
  | asking o => exact o.attempt_faithful
  | member m a => exact a.member_faithful m
  | setImplicitValue a implicit => exact a.setImplicitValue_faithful implicit
  | resparsify a => exact a.setImplicitValue_faithful none
  | push d name value => exact d.push_faithful name value

variable {σ : Type}

/-- **An error never reports success.** Take anything that can fail, any tables and any host.  If it
    ends with an error, the code of the error is not zero.  It is the status of every failure that
    the host reported on the way in a call whose status is passed on, and if there was none, it is
    the memory, the function or the version code. -/
theorem errors_tell_failures (f : Fallible) (ctx : Context) (host : Host σ) (s : σ) (e : Error)
    (hfailed : ((f.dialogue ctx).run host s).value = .error e) :
    e.code ≠ Status.noError ∧
      (∀ code ∈ reported ((f.dialogue ctx).run host s).trace, e.code = code) ∧
      (reported ((f.dialogue ctx).run host s).trace = [] →
        e.code = Status.memoryError ∨ e.code = Status.functionError ∨
          e.code = Status.versionError) := by
  have htells := (f.dialogue_faithful ctx).run host s
  rw [hfailed] at htells
  -- The error is the one failure that was reported, or none was.
  rcases htells with hreported | ⟨hnothing, hown⟩
  · have hmem : e.code ∈ reported ((f.dialogue ctx).run host s).trace := by
      rw [hreported]
      exact List.mem_singleton_self _
    refine ⟨ne_noError_of_mem_reported hmem, fun code hcode => ?_, fun hnothing => ?_⟩
    · rw [hreported] at hcode
      exact (List.mem_singleton.mp hcode).symm
    · rw [hnothing] at hmem
      cases hmem
  · rw [hnothing]
    exact ⟨Status.ne_noError_of_mem_own hown, nofun, fun _ => Status.mem_own_iff.mp hown⟩

/-- The copy of a shared tensor fails with status 3 in the middle of a push, and the share is given
    up before the push ends with that status. -/
theorem errors_tell_failures_of_failed_copy :
    let host : Host Unit := ⟨fun c s => (c.shape.deliver (.error 3), s)⟩
    let t : Tensor := ⟨.ofNumber 1, .sharedWithHost⟩
    let f : Fallible := .push (.fresh (.ofNumber 2)) none (.container .tensor t)
    let run := (f.dialogue .full).run host ()
    run.value = .error (.cloneFailed .tensor 3) ∧ reported run.trace = [3] ∧
      (Error.cloneFailed .tensor 3).code ≠ Status.noError ∧
      ∀ code ∈ reported run.trace, (Error.cloneFailed .tensor 3).code = code := by
  intro host t f run
  have hfailed : run.value = .error (.cloneFailed .tensor 3) := rfl
  have htells := f.errors_tell_failures .full host () _ hfailed
  exact ⟨hfailed, rfl, htells.1, htells.2.1⟩

end Fallible

end Custody
