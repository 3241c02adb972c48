import Custody.Proofs.Depot.Forms

namespace Custody.Depot

/-!
# A depot does not look at what it noted

A depot notes each misuse and never looks at its notes.  With other notes on record it answers every
call as before and changes in the same way, and the notes that it adds are the same.

* `Depot.recalling` -- the depot with older violations on record;
* `retire_recalling`, `duplicate_recalling`, `make_recalling` and one equation for each other
  function of a depot;
* `answer_recalling` -- **older violations change no answer**.
-/

/-- The depot with older violations on record. -/
def recalling (past : List Violation) (d : Depot) : Depot :=
  { d with violations := past ++ d.violations }

variable (past : List Violation) (d : Depot)

/-- Older violations are kept next to a value. -/
abbrev recalled {α : Type} (made : α × Depot) : α × Depot := (made.1, made.2.recalling past)

/-! ### Looking up and changing -/

/-- The notes are not looked at when a resource is looked up. -/
@[simp] theorem find?_recalling (h : Handle) : (d.recalling past).find? h = d.find? h := rfl

/-- Nor when a live resource is looked up. -/
@[simp] theorem live?_recalling (h : Handle) : (d.recalling past).live? h = d.live? h := rfl

/-- A sparse array takes the same places, whatever is on record. -/
@[simp] theorem allocSparse_recalling (typeCode : Int) (dims : List Int) :
    (d.recalling past).allocSparse typeCode dims =
      recalled past (d.allocSparse typeCode dims) := rfl

/-- A resource is changed in the same way, whatever is on record. -/
@[simp] theorem modify_recalling (h : Handle) (f : Resource → Resource) :
    (d.recalling past).modify h f = (d.modify h f).recalling past := by
  simp only [modify, find?_recalling, apply_ite (recalling past)]
  rfl

/-- A note is added behind the older ones. -/
@[simp] theorem note_recalling (operation : String) (misuse : Misuse) (h : Handle) :
    (d.recalling past).note operation misuse h = (d.note operation misuse h).recalling past := by
  simp only [note, recalling, List.append_assoc]

/-- A use is noted in the same cases. -/
@[simp] theorem use_recalling (operation : String) (h : Handle) :
    (d.recalling past).use operation h = (d.use operation h).recalling past := by
  simp only [use, find?_recalling, note_recalling]
  split
  · rfl
  · split <;> rfl

/-! ### Releasing -/

/-- The same is buried, whatever is on record. -/
@[simp] theorem bury_recalling (h : Handle) (r : Resource) :
    (d.recalling past).bury h r = (d.bury h r).recalling past := by
  simp only [bury, modify_recalling]
  generalize d.modify h _ = d
  induction r.memberHandles generalizing d with
  | nil => rfl
  | cons m rest ih => rw [List.foldl_cons, List.foldl_cons, modify_recalling, ih]

/-- A sweep meets the same resources in the same order. -/
theorem sweep_recalling (fuel : Nat) (queue : List Handle) :
    sweep fuel queue (d.recalling past) = (sweep fuel queue d).recalling past := by
  induction fuel generalizing queue d with
  | zero => rfl
  | succ fuel ih =>
    cases queue with
    | nil => rfl
    | cons h queue =>
      simp only [sweep, live?_recalling, use_recalling, bury_recalling]
      cases d.live? h with
      | none => exact ih _ _
      | some r => exact ih _ _

/-- The same is released, and the same misuses are noted. -/
@[simp] theorem retire_recalling (operation : String) (h : Handle) :
    (d.recalling past).retire operation h = (d.retire operation h).recalling past := by
  simp only [retire, live?_recalling, use_recalling, bury_recalling]
  cases d.live? h with
  | none => rfl
  | some r => exact sweep_recalling past _ _ _

/-- The same share is given up, or the same misuse is noted. -/
@[simp] theorem disown_recalling (h : Handle) :
    (d.recalling past).disown h = (d.disown h).recalling past := by
  simp only [disown, live?_recalling, use_recalling, note_recalling, modify_recalling]
  cases d.live? h with
  | none => rfl
  | some r =>
    dsimp only
    split <;> rfl

/-! ### Copying -/

/-- Copying what a resource holds makes the same copies, as long as each single copy does. -/
theorem copyEach_recalling {operation : String} {fuel : Nat}
    (hcopy : ∀ h d, duplicateTo operation fuel h (d.recalling past) =
      recalled past (duplicateTo operation fuel h d))
    (children : List Handle) :
    copyEach operation fuel children (d.recalling past) =
      recalled past (copyEach operation fuel children d) := by
  induction children generalizing d with
  | nil => rfl
  | cons child rest ih => simp only [copyEach, hcopy, ih]

/-- A copy of a resource and what it holds is the same, at every depth. -/
theorem duplicateTo_recalling (operation : String) (fuel : Nat) (h : Handle) :
    duplicateTo operation fuel h (d.recalling past) =
      recalled past (duplicateTo operation fuel h d) := by
  induction fuel generalizing h d with
  | zero => rfl
  | succ fuel ih =>
    rw [duplicateTo_succ, duplicateTo_succ, live?_recalling]
    cases d.live? h with
    | none => simp only [use_recalling]
    | some r =>
      dsimp only
      split
      · rfl
      · rw [copyEach_recalling past d fun h d => ih d h]
        rfl

/-- The copy of a resource is the same, whatever is on record. -/
@[simp] theorem duplicate_recalling (operation : String) (h : Handle) :
    (d.recalling past).duplicate operation h = recalled past (d.duplicate operation h) :=
  duplicateTo_recalling past d _ _ _

/-! ### Making -/

theorem failNew_recalling : (d.recalling past).failNew = d.failNew := rfl

theorem failClone_recalling : (d.recalling past).failClone = d.failClone := rfl

theorem failConvert_recalling : (d.recalling past).failConvert = d.failConvert := rfl

/-- A resource is made or refused in the same way. -/
@[simp] theorem create_recalling (r : Resource) :
    (d.recalling past).create r = recalled past (d.create r) := by
  simp only [create, failNew_recalling]
  cases d.failNew <;> rfl

/-- A copy is made or fails in the same way. -/
@[simp] theorem copied_recalling (operation : String) (h : Handle) :
    (d.recalling past).copied operation h = recalled past (d.copied operation h) := by
  unfold copied
  rw [duplicate_recalling]
  obtain ⟨_ | copy, d'⟩ := d.duplicate operation h <;> rfl

/-- A clone is made or fails in the same way. -/
@[simp] theorem clone_recalling (h : Handle) :
    (d.recalling past).clone h = recalled past (d.clone h) := by
  simp only [clone, failClone_recalling]
  cases d.failClone with
  | some code => rfl
  | none => exact copied_recalling past d "clone" h

/-- A conversion is made or fails in the same way. -/
@[simp] theorem convert_recalling (h : Handle) (change : Resource → Resource) :
    (d.recalling past).convert h change = recalled past (d.convert h change) := by
  simp only [convert, failConvert_recalling]
  cases d.failConvert with
  | some code => rfl
  | none =>
    dsimp only
    rw [copied_recalling]
    obtain ⟨_ | copy, d'⟩ := d.copied "convert" h
    · rfl
    · simp only [modify_recalling]

/-- A sparse array is made or refused in the same way. -/
@[simp] theorem createSparse_recalling (operation : String) (source : Handle) (dims : List Int)
    (implicit : Handle) :
    (d.recalling past).createSparse operation source dims implicit =
      recalled past (d.createSparse operation source dims implicit) := by
  rw [createSparse_eq, createSparse_eq]
  simp only [live?_recalling, use_recalling, allocSparse_recalling, failNew_recalling]
  cases d.failNew with
  | some code => rfl
  | none =>
    dsimp only
    split <;> rfl

/-- The same resources get another element type. -/
@[simp] theorem retype_recalling (h : Handle) (type : Int) :
    (d.recalling past).retype h type = (d.retype h type).recalling past := by
  simp only [retype, find?_recalling]
  cases d.find? h with
  | none => rfl
  | some r =>
    dsimp only
    split <;> simp only [modify_recalling]

/-- The same array is the one to change. -/
@[simp] theorem target_recalling (array : Handle) :
    (d.recalling past).target array = recalled past (d.target array) := by
  simp only [target, live?_recalling, use_recalling, copied_recalling]
  show (if d.updatesInPlace then _ else _) = _
  split
  · split <;> rfl
  · rfl

/-- The implicit value is changed in the same way. -/
@[simp] theorem resetImplicit_recalling (array implicit : Handle) :
    (d.recalling past).resetImplicit array implicit =
      recalled past (d.resetImplicit array implicit) := by
  rw [resetImplicit_eq, resetImplicit_eq]
  simp only [live?_recalling, use_recalling, target_recalling]
  split
  · rfl
  · cases d.live? implicit with
    | none => rfl
    | some r =>
      dsimp only
      obtain ⟨_ | h, d'⟩ := d.target array
      · rfl
      · simp only [retype_recalling]

/-- The same tensor is computed from an array, or the same use is noted. -/
@[simp] theorem compute_recalling (operation : String) (array : Handle)
    (tensor : Resource → Resource) :
    (d.recalling past).compute operation array tensor =
      recalled past (d.compute operation array tensor) := by
  simp only [compute, live?_recalling, use_recalling]
  cases d.live? array <;> rfl

/-- The same is read, or the same use is noted. -/
@[simp] theorem peek_recalling {α : Type} (operation : String) (h : Handle) (standard : α)
    (f : Resource → α) :
    (d.recalling past).peek operation h standard f =
      recalled past (d.peek operation h standard f) := by
  simp only [peek, live?_recalling, use_recalling]
  cases d.live? h <;> rfl

/-- Older violations change nothing of what is made. -/
@[simp] theorem make_recalling (c : Call) :
    (d.recalling past).make c = recalled past (d.make c) := by
  cases c with
  | sparseFromTensor data implicit =>
    simp only [make, peek_recalling, createSparse_recalling]
  | sparseFromPositions positions values extent implicit =>
    simp only [make, peek_recalling, createSparse_recalling]
  | newTensor | newNumericArray | newFlatImage | newSlicedImage | createStore =>
    exact create_recalling past d _
  | clone k h => exact clone_recalling past d h
  | convertNumericArray | convertImage => exact convert_recalling past d _ _
  | resetImplicit array implicit => exact resetImplicit_recalling past d array implicit
  | explicitPositions | toTensor => exact compute_recalling past d _ _ _
  | read | dimensions | member | free | disown | add => rfl

/-! ### Adding -/

/-- The same entry goes into a store. -/
theorem postTo_recalling (store : Handle) (held : List Handle) (p : Posting) :
    (d.recalling past).postTo store held p = (d.postTo store held p).recalling past := by
  simp only [postTo, live?_recalling, use_recalling, modify_recalling]
  cases d.live? store <;> rfl

/-- An addition to a store is carried out or noted in the same way. -/
@[simp] theorem post_recalling (store : Handle) (name : Option String) (item : Item) :
    (d.recalling past).post store name item = (d.post store name item).recalling past := by
  cases item with
  | plain value => exact postTo_recalling past d _ _ _
  | container k child =>
    simp only [post, live?_recalling, use_recalling, postTo_recalling]
    cases d.live? child <;> rfl

/-! ### Answers -/

/-- **Older violations change no answer**, and neither what a call does. -/
theorem answer_recalling (c : Call) :
    (d.recalling past).answer c = recalled past (d.answer c) := by
  by_cases hyield : c.yield?.isSome
  · rw [answer_of_yield? hyield, answer_of_yield? hyield, make_recalling]
  · cases c with
    | read k q h => exact peek_recalling past d _ _ _ _
    | dimensions k h => exact peek_recalling past d _ _ _ _
    | member m h => exact peek_recalling past d _ _ _ _
    | free k h => exact congrArg (Prod.mk ()) (retire_recalling past d _ h)
    | disown k h => exact congrArg (Prod.mk ()) (disown_recalling past d h)
    | add store name item => exact congrArg (Prod.mk ()) (post_recalling past d store name item)
    | _ => exact absurd rfl hyield

end Custody.Depot
