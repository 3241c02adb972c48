import Custody.Container

namespace Custody

/-!
# Reading a container

What the host tells about a container.  An empty container, and one whose host lacks the entry,
reads as zero or as nothing; the host is then not asked.

* `read` -- one whole number, or nothing.
* `shareCount`, `queryType`, `rank`, `dimensions`, ... -- the facts common to several kinds.
* `memberSlot` -- the handle of a tensor inside a sparse array.
-/

namespace Container

variable {k : Kind}

/-- The host's answer to a query, if there is a resource to ask about and an entry to ask. -/
def read (ctx : Context) (q : Query) (c : Container k) : Dialogue (Option Int) := do
  if c.isNull || !ctx.provides (.read k q) then return none
  let answer : Int ← Dialogue.ask (.read k q c.handle)
  return some answer

/-- The host's answer to a query, or zero. -/
def number (ctx : Context) (q : Query) (c : Container k) : Dialogue Int := do
  return (← c.read ctx q).getD 0

/-- The number of holders of the resource.  Kinds that cannot be shared have none. -/
def shareCount (ctx : Context) (c : Container k) : Dialogue Int :=
  if k.supportsSharing then c.number ctx .shareCount else return 0

/-- The number of dimensions. -/
def rank (ctx : Context) (c : Container k) : Dialogue Int := c.number ctx .rank

/-- The number of elements. -/
def flattenedLength (ctx : Context) (c : Container k) : Dialogue Int :=
  c.number ctx .flattenedLength

/-- The sizes in all dimensions.  The host gives the list first and its length, the rank,
    second; a rank that is not positive means that there are none. -/
def dimensions (ctx : Context) (c : Container k) : Dialogue (List Int) := do
  if c.isNull || !ctx.provides (.dimensions k) then return []
  let dims : Option (List Int) ← Dialogue.ask (.dimensions k c.handle)
  let rank ← c.rank ctx
  return (dims.getD []).take rank.toNat

/-- The handle of a tensor inside a sparse array, if the host gives one that is not null. -/
def memberSlot (m : Member) (c : Container .sparseArray) : Dialogue (Option Handle) := do
  let slot : Option Handle ← Dialogue.ask (.member m c.handle)
  return slot.filter fun h => !h.isNull

/-- The code of the element type.  A sparse array has the type of its implicit value, and a
    data store has none. -/
def queryType (ctx : Context) : {k : Kind} → Container k → Dialogue (Option Int)
  | .dataStore, _ => return none
  | .sparseArray, c => do
    if c.isNull || !ctx.provides (.member .implicitValue) then return none
    match ← c.memberSlot .implicitValue with
    | none => return none
    | some h => (⟨h, .hostManaged⟩ : Container .tensor).read ctx .type
  | .tensor, c => c.read ctx .type
  | .numericArray, c => c.read ctx .type
  | .image, c => c.read ctx .type

/-- The element type as a member of an enumeration, if the host reports one of its codes. -/
def typeAs (α : Type) [HostCode α] (ctx : Context) (c : Container k) : Dialogue (Option α) := do
  return (← c.queryType ctx).bind HostCode.ofCode?

end Container

end Custody
