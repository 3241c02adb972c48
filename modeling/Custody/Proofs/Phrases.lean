import Custody.Proofs.Operations

namespace Custody

open Dialogue

/-!
# A grammar of traces

Everything that an operation does, it does in a few turns: it asks for a fact, it asks for a
container and tells of the one that it was granted, it announces a cleanup and carries it out or
warns that it cannot, or it adds to a data store.  Each such turn is a *phrase*, and a trace is a
*speech*, which is one phrase after the other.  What holds of every phrase and can be put together
from parts holds of all that is ever done.

* `Event.Reports`, `Event.adopts?` -- the event that tells of a container that was granted;
* `Event.cleanup?` -- the cleanup that an event announces;
* `Call.subjects` -- the handles that a call cannot do without;
* `Phrase`, `Speech` -- the turns, and what is put together from them;
* `Dialogue.Orderly` -- every path is a speech and ends with a certain value;
* `Operation.perform_orderly` -- **whatever an operation does is a speech**, and no container that
  it leaves in the workspace is both empty and somebody's to clean up.
-/

/-! ### Events and calls -/

namespace Event

/-- The call that the event announces. -/
def cleanup? : Event → Option Call
  | destroying k h => some (.free k h)
  | givingUpShare k h => some (.disown k h)
  | _ => none

/-- Whether the event takes back the announcement before it: there is no entry for the cleanup, or
    nothing to clean up. -/
def isRetraction : Event → Bool
  | cleanupMissing .. | storeNeverShared _ => true
  | _ => false

/-- The container that the event tells was adopted.  An array that was changed in place was not. -/
def adopts? : Event → Option Holding
  | cloned k _ copy => some ⟨k, .fresh copy⟩
  | allocatedTensor h .. | computed _ _ h => some ⟨.tensor, .fresh h⟩
  | allocatedNumericArray h .. | convertedNumericArray _ h .. => some ⟨.numericArray, .fresh h⟩
  | allocatedImage h _ | convertedImage _ h .. => some ⟨.image, .fresh h⟩
  | createdStore h => some ⟨.dataStore, .fresh h⟩
  | builtFromTensor h _ | builtFromPositions h => some ⟨.sparseArray, .fresh h⟩
  | implicitReset old new _ => if new = old then none else some ⟨.sparseArray, .fresh new⟩
  | _ => none

/-- Whether the event is about neither a cleanup nor a container that was granted. -/
def isRemark : Event → Bool
  | opened _ | wrapping .. | relinquishing .. | passed .. | noResultSlot .. => true
  | pushingCopy .. | pushed .. => true
  | _ => false

/-- The event by which an operation tells that its call was granted a handle.  Every operation that
    asks for a container has an event of its own, with the arguments of the call in it. -/
inductive Reports : Event → Call → Handle → Prop where
  | tensor (type : TensorType) (dims : List Int) (h : Handle) :
      Reports (.allocatedTensor h type dims) (.newTensor (HostCode.code type) dims) h
  | numericArray (type : NumericArrayType) (dims : List Int) (h : Handle) :
      Reports (.allocatedNumericArray h type dims) (.newNumericArray (HostCode.code type) dims) h
  | image (options : ImageOptions) (h : Handle) :
      Reports (.allocatedImage h options) (Image.newCall options) h
  | dataStore (h : Handle) : Reports (.createdStore h) .createStore h
  | clone (k : Kind) (source h : Handle) : Reports (.cloned k source h) (.clone k source) h
  | convertedArray (source : Handle) (type : NumericArrayType) (options : ConversionOptions)
      (h : Handle) :
      Reports (.convertedNumericArray source h type options.method)
        (.convertNumericArray source (HostCode.code type) (HostCode.code options.method)
          options.tolerance) h
  | convertedImage (source : Handle) (type : ImageDataType) (interleaved : Bool) (h : Handle) :
      Reports (.convertedImage source h type interleaved)
        (.convertImage source (HostCode.code type) interleaved) h
  | fromTensor (data implicit h : Handle) :
      Reports (.builtFromTensor h data) (.sparseFromTensor data implicit) h
  | fromPositions (positions values size implicit h : Handle) :
      Reports (.builtFromPositions h) (.sparseFromPositions positions values size implicit) h
  | explicitPositions (array h : Handle) :
      Reports (.computed "explicit_positions" array h) (.explicitPositions array) h
  | toTensor (array h : Handle) : Reports (.computed "to_tensor" array h) (.toTensor array) h
  | implicitReset (array implicit h : Handle) (ownership : Ownership)
      (hnew : h ≠ array → ownership = .callerOwned) :
      Reports (.implicitReset array h ownership) (.resetImplicit array implicit) h

end Event

namespace Call

/-- The handles that a call cannot do without.  A sparse array can be made of tensors that are left
    out, and a new implicit value can be left out. -/
def subjects : Call → List Handle
  | clone _ h | convertNumericArray h .. | convertImage h .. => [h]
  | resetImplicit h _ | explicitPositions h | toTensor h => [h]
  | read _ _ h | dimensions _ h | member _ h | free _ h | disown _ h => [h]
  | add store _ (.plain _) => [store]
  | add store _ (.container _ h) => [store, h]
  | newTensor .. | newNumericArray .. | newFlatImage .. | newSlicedImage .. | createStore => []
  | sparseFromTensor .. | sparseFromPositions .. => []

end Call

/-! ### Phrases -/

/-- What is done in one turn. -/
inductive Phrase (ctx : Context) : List Happening → Prop where
  | remark (e : Event) (he : e.isRemark) : Phrase ctx [.logged e]
  | reading (c : Call) (a : c.Answer) (hc : c.isReading) (hsubjects : .null ∉ c.subjects) :
      Phrase ctx [.called c a]
  | refused (c : Call) (a : c.Answer) (hc : c.yield?.isSome) (hsubjects : .null ∉ c.subjects)
      (refusal : Refusal) (hrefused : c.granted a = .error refusal) : Phrase ctx [.called c a]
  | granted (c : Call) (a : c.Answer) (e : Event) (h : Handle) (hc : c.yield?.isSome)
      (hsubjects : .null ∉ c.subjects) (hgranted : c.granted a = .ok h) (hreports : e.Reports c h) :
      Phrase ctx [.called c a, .logged e]
  | released (e : Event) (c : Call) (a : c.Answer) (hannounced : e.cleanup? = some c)
      (hsubjects : .null ∉ c.subjects) (hprovided : ctx.provides c.entry) :
      Phrase ctx [.logged e, .called c a]
  | withheld (e : Event) (c : Call) (hannounced : e.cleanup? = some c)
      (hmissing : ctx.provides c.entry = false) :
      Phrase ctx [.logged e, .logged (.cleanupMissing c.entry.table c.entry.function)]
  | neverShared (k : Kind) (h : Handle) :
      Phrase ctx [.logged (.givingUpShare k h), .logged (.storeNeverShared h)]
  | added (c : Call) (a : c.Answer) (hc : c.isAddition) (hsubjects : .null ∉ c.subjects) :
      Phrase ctx [.called c a]

/-- What is done turn by turn. -/
inductive Speech (ctx : Context) : List Happening → Prop where
  | nil : Speech ctx []
  | cons {phrase trace : List Happening} (first : Phrase ctx phrase) (rest : Speech ctx trace) :
      Speech ctx (phrase ++ trace)

variable {ctx : Context}

/-- One turn is a speech. -/
theorem Phrase.speech {phrase : List Happening} (h : Phrase ctx phrase) : Speech ctx phrase := by
  have hone := Speech.cons h .nil
  rwa [List.append_nil] at hone

/-- A speech can go on with another. -/
theorem Speech.append {trace trace' : List Happening} (h : Speech ctx trace)
    (h' : Speech ctx trace') : Speech ctx (trace ++ trace') := by
  induction h with
  | nil => exact h'
  | cons first rest ih =>
    rw [List.append_assoc]
    exact .cons first ih

/-! ### Orderly dialogues -/

/-- Every path is a speech, and the value at its end satisfies `Q`. -/
def Dialogue.Orderly {α : Type} (ctx : Context) (Q : α → Prop) (d : Dialogue α) : Prop :=
  d.Always fun trace value => Speech ctx trace ∧ Q value

namespace Dialogue

variable {α β : Type} {P Q : α → Prop} {R : β → Prop}

/-- A dialogue that is over has said nothing. -/
theorem orderly_done {value : α} (h : Q value) : (done value).Orderly ctx Q := ⟨.nil, h⟩

/-- An orderly dialogue is orderly for less that is said of its value. -/
theorem Orderly.weaken {d : Dialogue α} (hd : d.Orderly ctx P) (h : ∀ value, P value → Q value) :
    d.Orderly ctx Q := hd.imp fun _ value hpath => ⟨hpath.1, h value hpath.2⟩

/-- Orderly dialogues in sequence are orderly. -/
theorem orderly_bind {d : Dialogue α} {f : α → Dialogue β} (hd : d.Orderly ctx P)
    (hf : ∀ value, P value → (f value).Orderly ctx R) : (d.bind f).Orderly ctx R := by
  refine (always_bind d f _).mpr (hd.imp fun trace value hfirst => ?_)
  refine (hf value hfirst.2).imp fun trace' value' hrest => ?_
  exact ⟨hfirst.1.append hrest.1, hrest.2⟩

/-- What is made of a value is said by nobody. -/
theorem orderly_map {d : Dialogue α} {f : α → β} (hd : d.Orderly ctx P)
    (hf : ∀ value, P value → R (f value)) :
    (d.bind fun value => done (f value)).Orderly ctx R :=
  orderly_bind hd fun value hvalue => orderly_done (hf value hvalue)

/-- A remark is a turn of its own. -/
theorem orderly_remark {e : Event} {next : Dialogue α} (he : e.isRemark)
    (hnext : next.Orderly ctx Q) : (log e next).Orderly ctx Q :=
  hnext.imp fun _ _ hpath => ⟨.cons (.remark e he) hpath.1, hpath.2⟩

/-- A reading is a turn of its own. -/
theorem orderly_reading {c : Call} {next : c.Answer → Dialogue α} (hc : c.isReading)
    (hsubjects : .null ∉ c.subjects) (hnext : ∀ answer, (next answer).Orderly ctx Q) :
    (call c next).Orderly ctx Q := fun answer =>
  (hnext answer).imp fun _ _ hpath => ⟨.cons (.reading c answer hc hsubjects) hpath.1, hpath.2⟩

/-- An addition is a turn of its own. -/
theorem orderly_added {c : Call} {next : c.Answer → Dialogue α} (hc : c.isAddition)
    (hsubjects : .null ∉ c.subjects) (hnext : ∀ answer, (next answer).Orderly ctx Q) :
    (call c next).Orderly ctx Q := fun answer =>
  (hnext answer).imp fun _ _ hpath => ⟨.cons (.added c answer hc hsubjects) hpath.1, hpath.2⟩

/-- A check in front says nothing. -/
theorem orderly_checked {check : Except Error α} {next : α → Dialogue (Except Error β)}
    {R : Except Error β → Prop} (herror : ∀ e, R (.error e))
    (hnext : ∀ value, (next value).Orderly ctx R) : (checked check next).Orderly ctx R := by
  cases check with
  | error e => exact orderly_done (herror e)
  | ok value => exact hnext value

/-- A request for a container is refused, or the event that belongs to it tells of the handle that
    was granted, which is not null. -/
theorem orderly_request {c : Call} {initial : Handle} {refused : Refusal → α}
    {event : Handle → Event} {next : Handle → Dialogue α} (hc : c.yield?.isSome)
    (hslot : c.slotBefore = initial) (hsubjects : .null ∉ c.subjects)
    (hreports : ∀ h, (event h).Reports c h) (hrefused : ∀ refusal, Q (refused refusal))
    (hnext : ∀ h, h ≠ .null → (next h).Orderly ctx Q) :
    (call c fun answer =>
      match c.shape.granted initial answer with
      | .error refusal => done (refused refusal)
      | .ok h => log (event h) (next h)).Orderly ctx Q := by
  intro answer
  have hsame : c.granted answer = c.shape.granted initial answer := by rw [Call.granted, hslot]
  beta_reduce
  cases hanswer : c.shape.granted initial answer with
  | error refusal =>
    have hphrase : Phrase ctx [.called c answer] :=
      .refused c answer hc hsubjects refusal (hsame.trans hanswer)
    exact ⟨hphrase.speech, hrefused refusal⟩
  | ok h =>
    -- The call and its event make one phrase.
    have hphrase : Phrase ctx [.called c answer, .logged (event h)] :=
      .granted c answer (event h) h hc hsubjects (hsame.trans hanswer) (hreports h)
    refine (hnext h (Shape.ne_null_of_granted hanswer)).imp fun trace value hpath => ?_
    exact ⟨.cons hphrase hpath.1, hpath.2⟩

end Dialogue

/-! ### Containers -/

/-- The container is not both empty and somebody's to clean up. -/
def Container.Proper {k : Kind} (c : Container k) : Prop :=
  c.handle = .null → c.ownership = .hostManaged

/-- What was made, if anything, has the property. -/
def Except.Makes {ε α : Type} (P : α → Prop) (r : Except ε α) : Prop :=
  ∀ value, r = .ok value → P value

/-- An error makes nothing. -/
theorem Except.makes_error {ε α : Type} {P : α → Prop} (e : ε) :
    Except.Makes P (.error e : Except ε α) := fun _ h => by cases h

/-- A success makes its value. -/
theorem Except.makes_ok {ε α : Type} {P : α → Prop} {value : α} (h : P value) :
    Except.Makes P (.ok value : Except ε α) := by
  rintro _ ⟨⟩
  exact h

namespace Container

variable {k : Kind}

/-- A call can name the handle of a container that is not empty. -/
theorem null_notMem_singleton {c : Container k} (hnull : ¬c.isNull) : Handle.null ∉ [c.handle] := by
  intro hmem
  have hsame : Handle.null = c.handle := List.mem_singleton.mp hmem
  exact hnull (Handle.isNull_iff.mpr hsame.symm)

/-- A container with a handle is proper, under any tag. -/
theorem proper_of_ne_null {c : Container k} (h : c.handle ≠ .null) : c.Proper :=
  fun hnull => absurd hnull h

/-- A container of the host's is proper, even if it is empty. -/
theorem proper_hostManaged (h : Handle) : (⟨h, .hostManaged⟩ : Container k).Proper := fun _ => rfl

/-- A cleanup is announced, and then it is carried out or taken back. -/
theorem cleanupWith_orderly {e : Event} {call : Call} (hannounced : e.cleanup? = some call)
    (hsubjects : .null ∉ call.subjects) :
    (log e (cleanupWith ctx call)).Orderly ctx fun _ => True := by
  unfold cleanupWith
  split
  · next hprovided =>
    intro answer
    have hphrase : Phrase ctx [.logged e, .called call answer] :=
      .released e call answer hannounced hsubjects hprovided
    exact ⟨hphrase.speech, trivial⟩
  · next hmissing =>
    have hphrase :
        Phrase ctx [.logged e, .logged (.cleanupMissing call.entry.table call.entry.function)] :=
      .withheld e call hannounced (by simpa using hmissing)
    exact ⟨hphrase.speech, trivial⟩

/-- A cleanup is a speech: announced and made, announced and withdrawn, or nothing. -/
theorem cleanup_orderly (c : Container k) : (c.cleanup ctx).Orderly ctx fun _ => True := by
  rw [cleanup_eq]
  split
  · exact orderly_done trivial
  · next hnull =>
    have hsubject : Handle.null ∉ [c.handle] := null_notMem_singleton hnull
    cases c.ownership with
    | hostManaged => exact orderly_done trivial
    | callerOwned => exact cleanupWith_orderly rfl hsubject
    | sharedWithHost =>
      by_cases hsharing : k.supportsSharing
      · rw [if_pos hsharing]
        exact cleanupWith_orderly rfl hsubject
      · rw [if_neg hsharing]
        exact ⟨(Phrase.neverShared k c.handle).speech, trivial⟩

/-- A reset is a speech and leaves a proper container. -/
theorem reset_orderly (c : Container k) (h : Handle) (ownership : Ownership) :
    (c.reset ctx h ownership).Orderly ctx Proper := by
  have hproper : (⟨h, if h.isNull then .hostManaged else ownership⟩ : Container k).Proper :=
    fun hnull => if_pos (Handle.isNull_iff.mpr hnull)
  rw [reset_eq]
  split
  · exact orderly_done hproper
  · exact orderly_map c.cleanup_orderly fun _ _ => hproper

/-- A wrapper around the null handle is refused, so that what is wrapped is proper. -/
theorem wrap_orderly (h : Handle) (ownership : Ownership) :
    (wrap h ownership : Attempt (Container k)).run.Orderly ctx (Except.Makes Proper) := by
  rw [wrap_run]
  split
  · exact orderly_done (Except.makes_error _)
  · next hnull =>
    have hproper : (⟨h, ownership⟩ : Container k).Proper := proper_of_ne_null (by simpa using hnull)
    exact orderly_remark rfl (orderly_done (Except.makes_ok hproper))

/-- A container that is passed leaves a proper one behind. -/
theorem pass_orderly {c : Container k} (hc : c.Proper) (hasSlot : Bool) :
    (c.pass hasSlot).Orderly ctx fun passing => passing.container.Proper := by
  rw [pass_eq]
  split
  · exact orderly_done hc
  · next hnull =>
    have hne : c.handle ≠ .null := by simpa [isNull] using hnull
    split
    · exact orderly_remark rfl (orderly_done (proper_of_ne_null hne))
    · exact orderly_remark rfl (orderly_done hc)

/-- What the host makes has a handle. -/
abbrev MadeAnew (r : Except Error (Container k)) : Prop := Except.Makes (·.handle ≠ .null) r

variable {call : Call} {failure : Refusal → Error} {event : Handle → Event}

/-- Asking for a container is a speech, and what is granted has a handle. -/
theorem adopt_orderly (hcall : call.yield?.isSome) (hslot : call.slotBefore = .null)
    (hsubjects : .null ∉ call.subjects) (hreports : ∀ h, (event h).Reports call h) :
    (adopt call failure event : Attempt (Container k)).run.Orderly ctx MadeAnew := by
  rw [adopt_run]
  exact orderly_request hcall hslot hsubjects hreports (fun _ => Except.makes_error _)
    fun h hne => orderly_done (Except.makes_ok hne)

/-- An attempt at an entry is a speech, and what is granted has a handle. -/
theorem obtain_orderly (hcall : call.yield?.isSome) (hslot : call.slotBefore = .null)
    (hsubjects : .null ∉ call.subjects) (hreports : ∀ h, (event h).Reports call h) :
    (obtain ctx call failure event : Attempt (Container k)).run.Orderly ctx MadeAnew := by
  rw [obtain_run]
  exact orderly_checked (fun _ => Except.makes_error _) fun _ =>
    adopt_orderly hcall hslot hsubjects hreports

/-- The copy of an empty container is empty, and any other has a handle. -/
theorem tryClone_orderly (c : Container k) :
    (c.tryClone ctx).run.Orderly ctx
      (Except.Makes fun copy => copy.Proper ∧ (c.handle ≠ .null → copy.handle ≠ .null)) := by
  rw [tryClone_run]
  split
  · next hnull =>
    have hnull : c.handle = .null := by simpa [isNull] using hnull
    exact orderly_done (Except.makes_ok ⟨proper_hostManaged _, fun hne => absurd hnull hne⟩)
  · next hnull =>
    have hsubject : Handle.null ∉ (Call.clone k c.handle).subjects := null_notMem_singleton hnull
    refine (obtain_orderly rfl rfl hsubject (.clone k c.handle)).weaken fun r hr copy hcopy => ?_
    exact ⟨proper_of_ne_null (hr copy hcopy), fun _ => hr copy hcopy⟩

end Container

/-! ### Reading -/

namespace Container

variable {k : Kind} (c : Container k)

/-- A reading is a speech. -/
theorem read_orderly (q : Query) : (c.read ctx q).Orderly ctx fun _ => True := by
  rw [read_eq]
  split
  · exact orderly_done trivial
  · next hasks =>
    rw [Bool.or_eq_true, not_or] at hasks
    exact orderly_reading rfl (null_notMem_singleton hasks.1) fun _ => orderly_done trivial

/-- Reading a number is a speech. -/
theorem number_orderly (q : Query) : (c.number ctx q).Orderly ctx fun _ => True :=
  orderly_map (c.read_orderly q) fun _ _ => trivial

/-- Reading the count of shares is a speech. -/
theorem shareCount_orderly : (c.shareCount ctx).Orderly ctx fun _ => True := by
  unfold shareCount
  split
  · exact c.number_orderly .shareCount
  · exact orderly_done trivial

/-- Reading dimensions is a speech. -/
theorem dimensions_orderly : (c.dimensions ctx).Orderly ctx fun _ => True := by
  rw [dimensions_eq]
  split
  · exact orderly_done trivial
  · next hasks =>
    rw [Bool.or_eq_true, not_or] at hasks
    exact orderly_reading rfl (null_notMem_singleton hasks.1) fun _ =>
      orderly_map (c.number_orderly .rank) fun _ _ => trivial

/-- Reading the code of the element type is a speech, also through the view of an array. -/
theorem queryType_orderly : (c.queryType ctx).Orderly ctx fun _ => True := by
  cases k with
  | tensor | numericArray | image => exact c.read_orderly .type
  | dataStore => exact orderly_done trivial
  | sparseArray =>
    rw [queryType_eq]
    split
    · exact orderly_done trivial
    · next hasks =>
      rw [Bool.or_eq_true, not_or] at hasks
      refine orderly_reading rfl (null_notMem_singleton hasks.1) fun slot => ?_
      -- A slot with a null handle counts as no slot.
      split
      · exact orderly_done trivial
      · next h _ => exact read_orderly (⟨h, .hostManaged⟩ : Container .tensor) .type

/-- Reading the name of the element type is a speech. -/
theorem typeName_orderly : (c.typeName ctx).Orderly ctx fun _ => True := by
  have htype : ∀ (α : Type) [HostCode α], (c.typeAs α ctx).Orderly ctx fun _ => True :=
    fun α _ => orderly_map c.queryType_orderly fun _ _ => trivial
  cases k with
  | tensor => exact orderly_map (htype TensorType) fun _ _ => trivial
  | numericArray => exact orderly_map (htype NumericArrayType) fun _ _ => trivial
  | image => exact orderly_map (htype ImageDataType) fun _ _ => trivial
  | sparseArray | dataStore => exact orderly_done trivial

/-- Reading the color space is a speech. -/
theorem colorSpace_orderly (i : Image) : (i.colorSpace ctx).Orderly ctx fun _ => True := by
  unfold Image.colorSpace
  split
  · exact orderly_done trivial
  · exact orderly_map (number_orderly i .colorSpace) fun _ _ => trivial

/-- **Reading an accessor is a speech.** -/
theorem get_orderly (a : Accessor) : (c.get ctx a).Orderly ctx fun _ => True := by
  have hnumber : ∀ {α : Type} (q : Query) (f : Int → α),
      ((c.number ctx q).bind fun n => done (f n)).Orderly ctx fun _ => True :=
    fun q _ => orderly_map (c.number_orderly q) fun _ _ => trivial
  have hmap : ∀ {α β : Type} {d : Dialogue α} {f : α → β}, (d.Orderly ctx fun _ => True) →
      (d.bind fun value => done (f value)).Orderly ctx fun _ => True :=
    fun hd => orderly_map hd fun _ _ => trivial
  have hnone : ∀ {α : Type} (value : α), (done value).Orderly ctx fun _ => True :=
    fun _ => orderly_done trivial
  cases a with
  | shareCount => exact hmap c.shareCount_orderly
  | queryType => exact hmap c.queryType_orderly
  | rank => exact hnumber .rank _
  | dimensions => exact hmap c.dimensions_orderly
  | flattenedLength => exact hnumber .flattenedLength _
  | dataType => exact hmap c.typeName_orderly
  | colorSpace =>
    cases k <;> first | exact hnone _ | exact hmap (colorSpace_orderly c)
  | rows | columns | slices | channels | length =>
    cases k <;> first | exact hnone _ | exact hnumber _ _
  | isSliced | hasAlphaChannel | isInterleaved | isEmpty =>
    cases k <;> first | exact hnone _ | exact hmap (hnumber _ _)

/-- A description is a speech. -/
theorem describe_orderly : (c.describe ctx).Orderly ctx fun _ => True := by
  unfold describe
  induction Accessor.ofKind k with
  | nil => exact orderly_done trivial
  | cons a rest ih =>
    rw [List.mapM_cons]
    have hfirst : ((c.get ctx a).bind fun value => done (a, value)).Orderly ctx fun _ => True :=
      orderly_map (c.get_orderly a) fun _ _ => trivial
    exact orderly_bind hfirst fun _ _ => orderly_bind ih fun _ _ => orderly_done trivial

end Container

end Custody
