import Custody.Context

namespace Custody

/-!
# Containers

A container is a handle together with the tag that says who releases it.  Letting go of a
container runs the cleanup that its tag selects: a container of the caller is destroyed, a
share of a shared one is given up, and one of the host is left alone.

* `Container` -- the wrapper; the kind is part of its type.
* `wrap`, `empty`, `fresh` -- how one comes about.
* `cleanup` -- what letting go of one does.
* `relinquish`, `intoRaw`, `pass`, `reset`, `take`, `view` -- how handle and tag change.
* `obtain`, `tryClone` -- containers that the host makes on request.
-/

/-- A handle of a resource of kind `k` with the tag that says who releases it. -/
structure Container (k : Kind) where
  handle : Handle
  ownership : Ownership
  deriving DecidableEq, Repr

namespace Container

variable {k : Kind}

/-! ### Wrapping -/

/-- The container that holds no resource. -/
def empty : Container k := ⟨.null, .hostManaged⟩

/-- The container of a resource that the host just made for the caller. -/
def fresh (h : Handle) : Container k := ⟨h, .callerOwned⟩

/-- Wraps a handle under a tag.  The null handle cannot be wrapped. -/
def wrap (h : Handle) (ownership : Ownership) : Attempt (Container k) := do
  if h.isNull then throw (.createFromNull k)
  Dialogue.tell (.wrapping k h ownership)
  return ⟨h, ownership⟩

/-- Wraps a handle that was received in a passing mode. -/
def wrapArgument (h : Handle) (mode : PassingMode) : Attempt (Container k) :=
  wrap h mode.initialOwnership

/-- Whether the container holds no resource. -/
def isNull (c : Container k) : Bool := c.handle.isNull

/-- Whether letting go of the container has something to clean up. -/
def isOwner (c : Container k) : Bool := !c.isNull && c.ownership.isOwner

/-- The container as it is shown in reports. -/
def shown (c : Container k) : String :=
  s!"GenericContainer \x7b kind: {k.name}, raw: " ++ c.handle.shown k ++
    s!", ownership: {c.ownership.name} \x7d"

/-- A view of a container as it is shown in reports. -/
def shownBorrowed (c : Container k) : String := "Borrowed(" ++ c.shown ++ ")"

/-! ### Letting go -/

/-- Calls a cleanup entry, or warns that the host has none and keeps the resource. -/
def cleanupWith (ctx : Context) (call : Call) : Dialogue Unit :=
  if ctx.provides call.entry then do let _ ← Dialogue.ask call
  else .tell (.cleanupMissing call.entry.table call.entry.function)

/-- What happens when the container goes away.  Data stores are never shared, so there is no
    share of one to give up. -/
def cleanup (ctx : Context) (c : Container k) : Dialogue Unit := do
  if c.isNull then return
  match c.ownership with
  | .hostManaged => return
  | .callerOwned =>
    .tell (.destroying k c.handle)
    cleanupWith ctx (.free k c.handle)
  | .sharedWithHost =>
    .tell (.givingUpShare k c.handle)
    if k.supportsSharing then cleanupWith ctx (.disown k c.handle)
    else .tell (.storeNeverShared c.handle)

/-! ### Changing hands -/

/-- Gives up all responsibility for the handle.  The wrapper keeps it for reading. -/
def relinquish (c : Container k) : Dialogue (Container k) := do
  .tell (.relinquishing k c.handle c.ownership)
  return { c with ownership := .hostManaged }

/-- The bare handle.  The wrapper goes away, but since it was relinquished nobody cleans up after
    the handle. -/
def intoRaw (ctx : Context) (c : Container k) : Dialogue Handle := do
  let released ← c.relinquish
  released.cleanup ctx
  return released.handle

/-- What became of a result slot. -/
structure Passing (k : Kind) where
  container : Container k
  /-- The handle written to the slot, if one was. -/
  written : Option Handle
  deriving DecidableEq, Repr

/-- Stores the handle in the slot for a function's result, if there is such a slot.  The host
    takes over what it is given, except that a share stays a share. -/
def pass (c : Container k) (hasSlot : Bool) : Dialogue (Passing k) := do
  if c.isNull then return ⟨c, none⟩
  if !hasSlot then
    .tell (.noResultSlot k c.handle)
    return ⟨c, none⟩
  let ownership := if c.ownership = .callerOwned then .hostManaged else c.ownership
  .tell (.passed k c.handle ownership)
  return ⟨{ c with ownership }, some c.handle⟩

/-- Lets go of the resource and holds `h` instead.  A handle that is already held is kept,
    and only the tag changes; the null handle is always the host's. -/
def reset (ctx : Context) (c : Container k) (h : Handle) (ownership : Ownership) :
    Dialogue (Container k) := do
  if h ≠ c.handle then c.cleanup ctx
  return ⟨h, if h.isNull then .hostManaged else ownership⟩

/-- Moves the container out: what was taken, and what is left behind. -/
def take (c : Container k) : Container k × Container k := (c, empty)

/-- A container for reading only, which cleans up nothing. -/
def view (c : Container k) : Container k := { c with ownership := .hostManaged }

/-! ### Containers made by the host -/

/-- Calls an entry that makes a container and adopts the handle it grants: `failure` is the
    error if none is granted, and `event` tells of the one that is. -/
def adopt (call : Call) (failure : Refusal → Error) (event : Handle → Event) :
    Attempt (Container k) := do
  match ← Dialogue.request call .null with
  | .error refusal => throw (failure refusal)
  | .ok h =>
    Dialogue.tell (event h)
    return fresh h

/-- The same for an operation that first has to find the entry. -/
def obtain (ctx : Context) (call : Call) (failure : Refusal → Error) (event : Handle → Event) :
    Attempt (Container k) := do
  ctx.require call.entry
  adopt call failure event

/-- A deep copy, which belongs to the caller whoever the source belongs to.  The copy of an
    empty container is empty. -/
def tryClone (ctx : Context) (c : Container k) : Attempt (Container k) := do
  if c.isNull then return empty
  obtain ctx (.clone k c.handle) (fun refusal => .cloneFailed k refusal.code)
    (.cloned k c.handle)

end Container

end Custody
