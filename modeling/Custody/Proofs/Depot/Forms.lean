import Custody.Depot.Host
import Custody.Proofs.Grants

namespace Custody.Depot

/-!
# The depot's calls in short

What the calls that make a resource come down to, with the resources they look up first.
Proofs about the depot start from these equations.

* `copyEach`, `duplicateTo_succ` -- copying a resource after what it holds;
* `createSparse_eq`, `resetImplicit_eq` -- the calls that look up more than one resource.
-/

/-! ### Looking up -/

/-- A live resource is one that is found and alive. -/
theorem live?_eq_some_iff {d : Depot} {h : Handle} {r : Resource} :
    d.live? h = some r ↔ d.find? h = some r ∧ r.alive := Option.filter_eq_some_iff

/-- A handle is alive if a resource that is alive is found under it. -/
theorem isAlive_iff {d : Depot} {h : Handle} :
    d.isAlive h ↔ ∃ r, d.find? h = some r ∧ r.alive := by
  simp only [isAlive, Option.isSome_iff_exists, live?_eq_some_iff]

/-- A live resource is alive. -/
theorem isAlive_of_live? {d : Depot} {h : Handle} {r : Resource} (hlive : d.live? h = some r) :
    d.isAlive h := isAlive_iff.mpr ⟨r, live?_eq_some_iff.mp hlive⟩

/-- Every resource stands in its place. -/
theorem found_cases {d : Depot} {h : Handle} {r : Resource} (hr : d.find? h = some r) :
    ∃ n, h = .ofNumber (n + 1) ∧ d.resources[n]? = some r := by
  have hplaced : h = .ofNumber h.number ∧ h ≠ .null := by
    by_cases hplaced : h = .ofNumber h.number ∧ h ≠ .null
    · exact hplaced
    · simp [find?_eq_none hplaced] at hr
  obtain ⟨n, rfl⟩ := eq_ofNumber_succ hplaced
  rw [find?_ofNumber_succ] at hr
  exact ⟨n, rfl, hr⟩

/-- Nothing is found under the null handle. -/
theorem ne_null_of_find? {d : Depot} {h : Handle} {r : Resource} (hfound : d.find? h = some r) :
    h ≠ .null := by
  rintro rfl
  simp at hfound

/-- Nothing is alive under the null handle. -/
theorem ne_null_of_live? {d : Depot} {h : Handle} {r : Resource} (hlive : d.live? h = some r) :
    h ≠ .null := ne_null_of_find? (live?_eq_some_iff.mp hlive).1

/-- The handle of a new resource is not null. -/
theorem nextHandle_ne_null (d : Depot) : d.nextHandle ≠ .null := by
  simp [nextHandle, Handle.ofNumber, Handle.null]

/-! ### Resources that stay -/

/-- A note leaves the resources alone. -/
@[simp] theorem note_resources (d : Depot) (operation : String) (misuse : Misuse) (h : Handle) :
    (d.note operation misuse h).resources = d.resources := rfl

/-- A use of a handle is at most noted. -/
@[simp] theorem use_resources (d : Depot) (operation : String) (h : Handle) :
    (d.use operation h).resources = d.resources := by
  unfold use
  split
  · rfl
  · split <;> rfl

/-- A look at a resource leaves all of them alone. -/
@[simp] theorem peek_resources {α : Type} (d : Depot) (operation : String) (h : Handle)
    (standard : α) (f : Resource → α) :
    (d.peek operation h standard f).2.resources = d.resources := by
  unfold peek
  split <;> simp

/-! ### Copying -/

/-- Copies what a store holds, one container after the other. -/
def copyEach (operation : String) (fuel : Nat) : List Handle → Depot → List Handle × Depot
  | [], d => ([], d)
  | child :: rest, d =>
    let copied := duplicateTo operation fuel child d
    let others := copyEach operation fuel rest copied.2
    (copied.1.toList ++ others.1, others.2)

/-- The loop over the children, as it stands in the copying function, is the recursion over them. -/
theorem foldl_copyEach (operation : String) (fuel : Nat) (children copies : List Handle)
    (d : Depot) :
    children.foldl (fun (copies, d) child =>
        let (copy, d) := duplicateTo operation fuel child d
        (copies ++ copy.toList, d)) (copies, d) =
      (copies ++ (copyEach operation fuel children d).1,
        (copyEach operation fuel children d).2) := by
  induction children generalizing copies d with
  | nil => simp [copyEach]
  | cons child rest ih => simp only [List.foldl_cons, ih, copyEach, List.append_assoc]

/-- The copy of a resource: a new array for an array, otherwise a copy that holds copies. -/
theorem duplicateTo_succ (operation : String) (fuel : Nat) (h : Handle) (d : Depot) :
    duplicateTo operation (fuel + 1) h d =
      match d.live? h with
      | none => (none, d.use operation h)
      | some r =>
        if r.kind = .sparseArray then
          (some (d.allocSparse r.typeCode r.dims).1, (d.allocSparse r.typeCode r.dims).2)
        else
          let held := copyEach operation fuel r.children d
          (some held.2.nextHandle,
            (held.2.alloc { r with shareCount := 0, children := held.1 }).2) := by
  rw [duplicateTo]
  cases d.live? h with
  | none => rfl
  | some r => simp only [foldl_copyEach, List.nil_append, alloc]

/-! ### Calls that look up more than one resource -/

/-- The element type is that of a live resource, or the use of a dead one is noted. -/
theorem typeOf_eq (d : Depot) (operation : String) (h : Handle) :
    d.typeOf operation h =
      match d.live? h with
      | none => (.error Status.functionError, d.use operation h)
      | some r => (.ok r.typeCode, d) := rfl

/-- A sparse array is made once its source and its implicit value, if there is one, are found. -/
theorem createSparse_eq (d : Depot) (operation : String) (source : Handle) (dims : List Int)
    (implicit : Handle) :
    d.createSparse operation source dims implicit =
      match d.failNew with
      | some code => (.error code, { d with failNew := none })
      | none =>
        match d.live? source, (if implicit.isNull then d.live? source else d.live? implicit) with
        | none, _ => (.error Status.functionError, d.use operation source)
        | some _, none => (.error Status.functionError, d.use operation implicit)
        | some _, some r =>
          (.ok (d.allocSparse r.typeCode dims).1, (d.allocSparse r.typeCode dims).2) := by
  unfold createSparse
  cases d.failNew with
  | some code => rfl
  | none =>
    simp only [typeOf_eq]
    cases hsource : d.live? source with
    | none => rfl
    | some r =>
      by_cases hnull : implicit.isNull
      · simp [hnull]
      · cases himplicit : d.live? implicit <;> simp [hnull, himplicit]

/-- The array that stands for the one whose implicit value is changed: itself, or a copy. -/
def target (d : Depot) (array : Handle) : Except Int Handle × Depot :=
  if d.updatesInPlace then
    match d.live? array with
    | none => (.error Status.functionError, d.use "reset_implicit_value" array)
    | some _ => (.ok array, d)
  else d.copied "reset_implicit_value" array

/-- The implicit value is changed once it is found, if there is one, and there is an array to
    change. -/
theorem resetImplicit_eq (d : Depot) (array implicit : Handle) :
    d.resetImplicit array implicit =
      if implicit.isNull then d.target array
      else match d.live? implicit with
        | none => (.error Status.functionError, d.use "reset_implicit_value" implicit)
        | some r =>
          match d.target array with
          | (.error code, d) => (.error code, d)
          | (.ok h, d) => (.ok h, d.retype h r.typeCode) := by
  unfold resetImplicit target
  cases hnull : implicit.isNull with
  | true =>
    simp only [↓reduceIte]
    generalize (if d.updatesInPlace then _ else _ : Except Int Handle × Depot) = found
    obtain ⟨_ | h, d'⟩ := found <;> rfl
  | false =>
    simp only [typeOf_eq, Bool.false_eq_true, ↓reduceIte]
    cases d.live? implicit with
    | none => rfl
    | some r =>
      simp only [Except.map]
      generalize (if d.updatesInPlace then _ else _ : Except Int Handle × Depot) = found
      obtain ⟨_ | h, d'⟩ := found <;> rfl

/-! ### Answers -/

/-- A call that may deliver a handle answers with what was made, in the shape of the call. -/
theorem answer_of_yield? {c : Call} (hc : c.yield?.isSome) (d : Depot) :
    d.answer c = (c.shape.deliver (d.make c).1, (d.make c).2) := by
  cases c <;> first | rfl | cases hc

/-- A handle that is delivered is granted. -/
theorem granted_deliver {c : Call} (hc : c.yield?.isSome) {h : Handle} (hh : h ≠ .null) :
    c.granted (c.shape.deliver (.ok h)) = .ok h := by
  have hgranted : h.granted = .ok h := by simp [Handle.granted, hh]
  cases c with
  | clone kind source => cases kind <;> exact hgranted
  | read | dimensions | member | free | disown | add => cases hc
  | _ => exact hgranted

/-- An array that is delivered where it stood before is not a new one. -/
theorem brings?_deliver_slotBefore {c : Call} (hc : c.yield?.isSome)
    (hslot : c.slotBefore ≠ .null) :
    c.brings? (c.shape.deliver (.ok c.slotBefore)) = none := by
  unfold Call.brings?
  rw [granted_deliver hc hslot]
  cases c.yield? <;> simp

/-- A slot that is left as it was grants what stood in it before, if anything. -/
theorem eq_of_granted_none {initial h : Handle} {code : Int}
    (hg : Shape.granted initial .outcome ⟨code, none⟩ = .ok h) : h = initial := by
  simp only [Shape.granted, Option.getD_none, Handle.granted] at hg
  split at hg
  · split at hg
    · cases hg
    · exact (Except.ok.inj hg).symm
  · cases hg

/-- Next to a status the slot for the result is left as it was. -/
theorem eq_slotBefore_of_granted_error {c : Call} {code : Int} {h : Handle}
    (hg : c.granted (c.shape.deliver (.error code)) = .ok h) : h = c.slotBefore := by
  cases c with
  | clone kind source =>
    cases kind with
    | dataStore => cases hg
    | _ => exact eq_of_granted_none hg
  | createStore | convertImage => cases hg
  | read | dimensions | member | free | disown | add => cases hg
  | _ => exact eq_of_granted_none hg

/-- An answer that grants at most what stood in the slot before brings nothing. -/
theorem brings?_eq_none {c : Call} {a : c.Answer}
    (h : ∀ h, c.granted a = .ok h → h = c.slotBefore) : c.brings? a = none := by
  unfold Call.brings?
  split
  · next hgranted => exact if_pos (h _ hgranted)
  · rfl

/-- A status brings nothing, whatever it says. -/
theorem brings?_deliver_error (c : Call) (code : Int) :
    c.brings? (c.shape.deliver (.error code)) = none :=
  brings?_eq_none fun _ => eq_slotBefore_of_granted_error

end Custody.Depot
