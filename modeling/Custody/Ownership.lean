namespace Custody

/-!
# Ownership tags and passing modes

Every wrapper carries a tag that says who releases the resource it holds.

* `Ownership` -- the tag itself: the host, the caller alone, or both by shares.
* `PassingMode` -- how an argument was handed over; `initialOwnership` is the tag a wrapper
  of that argument starts with.
-/

/-- Who is responsible for releasing a container. -/
inductive Ownership where
  | hostManaged
  | callerOwned
  | sharedWithHost
  deriving DecidableEq, Repr

/-- The ways a host hands a container to a library function. -/
inductive PassingMode where
  | automatic
  | constant
  | manual
  | shared
  deriving DecidableEq, Repr

namespace Ownership

/-- All tags. -/
def all : List Ownership := [.hostManaged, .callerOwned, .sharedWithHost]

/-- The tag as it is written in messages. -/
def name : Ownership → String
  | .hostManaged => "HostManaged"
  | .callerOwned => "CallerOwned"
  | .sharedWithHost => "SharedWithHost"

/-- The tag that a name stands for, if it is one. -/
def ofName? (text : String) : Option Ownership := all.find? (·.name == text)

/-- The tag of a wrapper that nobody said anything about. -/
def standard : Ownership := .hostManaged

/-- Whether the tag asks for a cleanup when the wrapper goes away. -/
def isOwner : Ownership → Bool
  | .hostManaged => false
  | _ => true

/-- The tag of a container received in a passing mode, if one is known. -/
def ofPassing : Option PassingMode → Ownership
  | some .manual => .callerOwned
  | some .shared => .sharedWithHost
  | some .automatic | some .constant | none => .hostManaged

/-- Only what is the host's leaves its holder nothing to clean up. -/
@[simp] theorem isOwner_eq_false_iff {o : Ownership} : o.isOwner = false ↔ o = .hostManaged := by
  cases o <;> simp [isOwner]

end Ownership

namespace PassingMode

/-- All passing modes. -/
def all : List PassingMode := [.automatic, .constant, .manual, .shared]

/-- The mode as it is written. -/
def name : PassingMode → String
  | .automatic => "Automatic"
  | .constant => "Constant"
  | .manual => "Manual"
  | .shared => "Shared"

/-- The mode that a name stands for, if it is one.  Names are matched exactly. -/
def ofName? (text : String) : Option PassingMode := all.find? (·.name == text)

/-- The mode of an argument that nobody said anything about. -/
def standard : PassingMode := .automatic

/-- The tag that a wrapper of an argument in this mode starts with. -/
def initialOwnership (mode : PassingMode) : Ownership := .ofPassing (some mode)

end PassingMode

end Custody
