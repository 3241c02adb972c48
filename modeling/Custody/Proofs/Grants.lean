import Custody.Proofs.NormalForms
import Custody.Proofs.Reading
import Custody.Session.Workspace

namespace Custody

/-!
# What an answer grants

An answer to a call can bring a container into the hands of the caller.  Which one it is
follows from the call and the answer alone, whoever gave it.

* `Call.granted` -- the handle that an answer grants, or why it grants none;
* `Call.brings?` -- the container that comes into being by it, which belongs to the caller;
* `ne_null_of_granted`, `granted_of_yield?_eq_none` -- what can be granted at all.
-/

namespace Call

/-- Whether the call destroys a container or gives up a share of one. -/
def isCleanup : Call → Bool
  | free .. | disown .. => true
  | _ => false

/-- Whether the call adds something to a data store. -/
def isAddition : Call → Bool
  | add .. => true
  | _ => false

/-- The kind of container that an answer to the call can grant. -/
def yield? : Call → Option Kind
  | newTensor .. => some .tensor
  | newNumericArray .. => some .numericArray
  | newFlatImage .. | newSlicedImage .. => some .image
  | createStore => some .dataStore
  | clone kind _ => some kind
  | convertNumericArray .. => some .numericArray
  | convertImage .. => some .image
  | sparseFromTensor .. | sparseFromPositions .. | resetImplicit .. => some .sparseArray
  | explicitPositions _ | toTensor _ => some .tensor
  | read .. | dimensions .. | member .. | free .. | disown .. | add .. => none

/-- The handle that stands in the slot for the result before the call: an array whose implicit
    value is changed stands there itself. -/
def slotBefore : Call → Handle
  | resetImplicit array _ => array
  | _ => .null

/-- The handle that an answer grants, or why it grants none. -/
def granted (c : Call) (a : c.Answer) : Except Refusal Handle := c.shape.granted c.slotBefore a

/-- The container that comes into being by an answer.  It belongs to the caller.  An array that
    was changed in place is not a new one. -/
def brings? (c : Call) (a : c.Answer) : Option Holding :=
  match c.yield?, c.granted a with
  | some k, .ok h => if h = c.slotBefore then none else some ⟨k, Container.fresh h⟩
  | _, _ => none

end Call

/-- A granted handle is never null. -/
theorem Handle.ne_null_of_granted {h h' : Handle} (hg : h'.granted = .ok h) : h ≠ .null := by
  unfold Handle.granted at hg
  split at hg
  · simp at hg
  · next hnull =>
    obtain rfl : h' = h := by simpa using hg
    simpa using hnull

/-- The handle that an answer of any shape grants is never null. -/
theorem Shape.ne_null_of_granted {s : Shape} {initial h : Handle} {a : s.Answer}
    (hg : s.granted initial a = .ok h) : h ≠ .null := by
  cases s with
  | outcome =>
    simp only [Shape.granted] at hg
    split at hg
    · exact Handle.ne_null_of_granted hg
    · simp at hg
  | handle => exact Handle.ne_null_of_granted hg
  | integer | dimensions | slot | nothing => simp [Shape.granted] at hg

namespace Call

variable {c : Call} {a : c.Answer}

/-- The null handle is never granted. -/
theorem ne_null_of_granted {h : Handle} (hg : c.granted a = .ok h) : h ≠ .null :=
  Shape.ne_null_of_granted hg

/-- A call that makes no container is never granted one. -/
theorem granted_of_yield?_eq_none (hc : c.yield? = none) (a : c.Answer) :
    c.granted a = .error .nullHandle := by
  cases c <;> first | rfl | cases hc

/-- A call that makes a container is no cleanup. -/
theorem isCleanup_eq_false (hc : c.yield?.isSome) : c.isCleanup = false := by
  cases c <;> first | rfl | cases hc

/-- A call that makes a container adds nothing to a store. -/
theorem isAddition_eq_false (hc : c.yield?.isSome) : c.isAddition = false := by
  cases c <;> first | rfl | cases hc

/-- A reading cleans nothing up. -/
theorem isCleanup_of_isReading (hc : c.isReading) : c.isCleanup = false := by
  cases c <;> first | rfl | cases hc

/-- A reading adds nothing to a store. -/
theorem isAddition_of_isReading (hc : c.isReading) : c.isAddition = false := by
  cases c <;> first | rfl | cases hc

/-- No reading can grant a container. -/
theorem yield?_of_isReading (hc : c.isReading) : c.yield? = none := by
  cases c <;> first | rfl | cases hc

end Call

end Custody
