import Custody.Host.Call
import Custody.HostCode

namespace Custody

/-!
# A depot of resources

A depot is a host that keeps every resource it ever made, alive or not, and notes each misuse
of a handle.  This module holds its state and the elementary changes of it.

* `Resource`, `Posting` -- a resource, and an entry of a data store.
* `Violation` -- a misuse of a handle.
* `Depot` -- resources by number, violations, and failures that were asked for.
* `find?`, `live?` -- looking a handle up; `alloc`, `modify` -- adding and changing resources.
* `use` -- notes a misuse if the handle is not alive.
* `find?_alloc`, `find?_modify`, `find?_use` -- what each of them does to looking up.
-/

/-- An entry of a data store. -/
structure Posting where
  name : Option String
  item : Item
  deriving DecidableEq, Repr

/-- A resource as the depot keeps it. -/
structure Resource where
  kind : Kind
  alive : Bool := true
  shareCount : Int := 0
  typeCode : Int
  dims : List Int
  channels : Int := 1
  colorSpace : Int := HostCode.code ColorSpace.automatic
  interleaved : Bool := true
  /-- The entries of a data store. -/
  postings : List Posting := []
  /-- The containers that a data store took over. -/
  children : List Handle := []
  /-- The implicit value and the explicit values of a sparse array. -/
  members : Option (Handle × Handle) := none
  deriving DecidableEq, Repr

namespace Resource

/-- The number of elements: the product of the dimensions, times the channels. -/
def flattenedLength (r : Resource) : Int := r.dims.foldl (· * ·) 1 * r.channels

/-- The handles of the tensors inside a sparse array. -/
def memberHandles (r : Resource) : List Handle :=
  match r.members with
  | none => []
  | some (implicit, explicit) => [implicit, explicit]

end Resource

/-- What was wrong with the use of a handle. -/
inductive Misuse where
  | released
  | unknown
  | unshared
  deriving DecidableEq, Repr

/-- A misuse of a handle by an entry. -/
structure Violation where
  operation : String
  misuse : Misuse
  handle : Handle
  deriving DecidableEq, Repr

/-- The violation in words. -/
def Violation.text (v : Violation) : String :=
  match v.misuse with
  | .released => s!"{v.operation} on released handle {v.handle.number}"
  | .unknown => s!"{v.operation} on unknown handle {v.handle.number}"
  | .unshared => s!"{v.operation} of unshared handle {v.handle.number}"

/-- The state of a depot.  Resource number `n` stands at place `n - 1`. -/
structure Depot where
  resources : List Resource := []
  violations : List Violation := []
  /-- The status of the next failure to make a resource, if one was asked for. -/
  failNew : Option Int := none
  failClone : Option Int := none
  failConvert : Option Int := none
  /-- Whether sparse arrays are updated in place. -/
  updatesInPlace : Bool := false
  deriving DecidableEq, Repr

namespace Depot

/-! ### Looking up -/

/-- The resource that a handle names, alive or not. -/
def find? (d : Depot) (h : Handle) : Option Resource :=
  if h = .ofNumber h.number ∧ h ≠ .null then d.resources[h.number - 1]? else none

/-- The resource that a handle names, if it is alive. -/
def live? (d : Depot) (h : Handle) : Option Resource := (d.find? h).filter (·.alive)

/-- Whether the handle names a resource that is alive. -/
def isAlive (d : Depot) (h : Handle) : Bool := (d.live? h).isSome

/-- The handle of the resource that is made next. -/
def nextHandle (d : Depot) : Handle := .ofNumber (d.resources.length + 1)

/-! ### Changing -/

/-- Adds a resource. -/
def alloc (d : Depot) (r : Resource) : Handle × Depot :=
  (d.nextHandle, { d with resources := d.resources ++ [r] })

/-- Changes the resource that a handle names, if there is one. -/
def modify (d : Depot) (h : Handle) (f : Resource → Resource) : Depot :=
  if (d.find? h).isSome then { d with resources := d.resources.modify (h.number - 1) f } else d

/-- Notes a violation. -/
def note (d : Depot) (operation : String) (misuse : Misuse) (h : Handle) : Depot :=
  { d with violations := d.violations ++ [⟨operation, misuse, h⟩] }

/-- Notes a misuse if the handle does not name a resource that is alive. -/
def use (d : Depot) (operation : String) (h : Handle) : Depot :=
  match d.find? h with
  | none => d.note operation .unknown h
  | some r => if r.alive then d else d.note operation .released h

/-- Adds a sparse array together with its two tensors, which come first. -/
def allocSparse (d : Depot) (typeCode : Int) (dims : List Int) : Handle × Depot :=
  let (implicit, d) := d.alloc { kind := .tensor, typeCode, dims := [] }
  let (explicit, d) := d.alloc { kind := .tensor, typeCode, dims := [1] }
  d.alloc { kind := .sparseArray, typeCode, dims, members := some (implicit, explicit) }

/-! ### What a change does to looking up -/

/-- The null handle names nothing. -/
@[simp] theorem find?_null (d : Depot) : d.find? .null = none := by simp [find?]

/-- The address of every resource is a multiple of sixteen, and not null. -/
theorem find?_eq_none {d : Depot} {h : Handle} (misplaced : ¬(h = .ofNumber h.number ∧ h ≠ .null)) :
    d.find? h = none := by
  simp only [find?, misplaced, ↓reduceIte]

/-- The handle of a number names the resource at the place before it. -/
theorem find?_ofNumber_succ (d : Depot) (n : Nat) :
    d.find? (.ofNumber (n + 1)) = d.resources[n]? := by
  simp [find?, Handle.ofNumber, Handle.number, Handle.null]

/-- A handle that can name something is that of a positive number. -/
theorem eq_ofNumber_succ {h : Handle} (placed : h = .ofNumber h.number ∧ h ≠ .null) :
    ∃ n, h = .ofNumber (n + 1) := by
  obtain ⟨a⟩ := h
  refine ⟨a / 16 - 1, ?_⟩
  simp only [Handle.ofNumber, Handle.number, Handle.null, Handle.mk.injEq, ne_eq] at placed ⊢
  omega

/-- Different numbers have different handles. -/
theorem ofNumber_succ_inj {m n : Nat} : Handle.ofNumber (m + 1) = .ofNumber (n + 1) ↔ m = n := by
  simp only [Handle.ofNumber, Handle.mk.injEq]
  omega

/-- A new resource is found under its own handle, and nothing else changes. -/
theorem find?_alloc (d : Depot) (r : Resource) (h : Handle) :
    (d.alloc r).2.find? h = if h = d.nextHandle then some r else d.find? h := by
  by_cases placed : h = .ofNumber h.number ∧ h ≠ .null
  · obtain ⟨n, rfl⟩ := eq_ofNumber_succ placed
    simp only [nextHandle, ofNumber_succ_inj, find?_ofNumber_succ, alloc]
    grind
  · have other : h ≠ d.nextHandle := by
      rintro rfl
      exact placed (by simp [nextHandle, Handle.ofNumber, Handle.number, Handle.null])
    simp only [other, ↓reduceIte, find?_eq_none placed]

/-- The next resource is not there yet. -/
@[simp] theorem find?_nextHandle (d : Depot) : d.find? d.nextHandle = none := by
  simp [nextHandle, find?_ofNumber_succ]

/-- A change is seen under the handle of the changed resource, and nowhere else. -/
theorem find?_modify (d : Depot) (h h' : Handle) (f : Resource → Resource) :
    (d.modify h f).find? h' = if h' = h then (d.find? h).map f else d.find? h' := by
  by_cases there : (d.find? h).isSome
  · simp only [modify, there, ↓reduceIte]
    have placed : h = .ofNumber h.number ∧ h ≠ .null :=
      Decidable.byContradiction fun misplaced => by simp [find?_eq_none misplaced] at there
    obtain ⟨n, rfl⟩ := eq_ofNumber_succ placed
    -- Handles that are no place of the list find nothing, so only places are compared.
    by_cases placed' : h' = .ofNumber h'.number ∧ h' ≠ .null
    · obtain ⟨m, rfl⟩ := eq_ofNumber_succ placed'
      simp only [find?_ofNumber_succ, ofNumber_succ_inj, Handle.number_ofNumber,
        Nat.add_one_sub_one, List.getElem?_modify]
      grind
    · have other : h' ≠ .ofNumber (n + 1) := by
        rintro rfl
        exact placed' (by simp [Handle.ofNumber, Handle.number, Handle.null])
      simp only [find?_eq_none placed', other, ↓reduceIte]
  · have absent : d.find? h = none := by simpa using there
    by_cases same : h' = h
    · simp [modify, same, absent]
    · simp [modify, same, absent]

/-- A note of a misuse leaves all resources where they are. -/
@[simp] theorem find?_note (d : Depot) (operation : String) (misuse : Misuse) (h h' : Handle) :
    (d.note operation misuse h).find? h' = d.find? h' := rfl

/-- Noting a misuse leaves all resources as they are. -/
@[simp] theorem find?_use (d : Depot) (operation : String) (h h' : Handle) :
    (d.use operation h).find? h' = d.find? h' := by
  unfold use
  split
  · rfl
  · split <;> rfl

/-- The use of a live handle is noted nowhere. -/
theorem use_of_isAlive {d : Depot} {h : Handle} (operation : String) (alive : d.isAlive h) :
    d.use operation h = d := by
  obtain ⟨r, found⟩ := Option.isSome_iff_exists.1 alive
  obtain ⟨found, alive⟩ := Option.filter_eq_some_iff.1 found
  simp [use, found, alive]

end Depot

end Custody
