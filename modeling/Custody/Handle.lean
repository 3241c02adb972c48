import Custody.Kind

namespace Custody

/-!
# Handles

A handle is the address by which a host names one of its resources.  The library compares
handles and hands them back; it never looks behind one.

* `Handle.null` -- the handle that names nothing.
* `Handle.ofNumber` -- hosts here number their resources from 1 and place them sixteen bytes
  apart, so resource `n` has address `16 * n`.
* `Handle.ofInt` -- the same for any whole number, within an address of 64 bits.
-/

/-- The address by which the host names a resource. -/
structure Handle where
  address : Nat
  deriving DecidableEq, Repr

namespace Handle

/-- The handle that names no resource. -/
def null : Handle := ⟨0⟩

/-- Whether the handle names no resource. -/
def isNull (h : Handle) : Bool := h == null

/-- The handle of the resource with this number. -/
def ofNumber (n : Nat) : Handle := ⟨16 * n⟩

/-- The handle that a whole number stands for.  Addresses have 64 bits, four of which tell bytes
    of one resource apart. -/
def ofInt (n : Int) : Handle := ofNumber (n % 0x1000000000000000).toNat

/-- The number of the resource that the handle names. -/
def number (h : Handle) : Nat := h.address / 16

/-- The handle as it is shown for a container of kind `k`: its type and its address in
    lowercase hexadecimal. -/
def shown (k : Kind) (h : Handle) : String :=
  s!"M{k.name}(0x" ++ String.ofList (Nat.toDigits 16 h.address) ++ ")"

/-- The one empty handle is null. -/
@[simp] theorem isNull_iff {h : Handle} : h.isNull = true ↔ h = null := by simp [isNull]

/-- Any other is not. -/
@[simp] theorem isNull_eq_false_iff {h : Handle} : h.isNull = false ↔ h ≠ null := by
  simp [isNull]

/-- A handle made of a number has this number. -/
@[simp] theorem number_ofNumber (n : Nat) : (ofNumber n).number = n := by
  simp [number, ofNumber]

end Handle

end Custody
