import Custody.Container.Accessor
import Custody.Proofs.Paths

namespace Custody

open Dialogue

/-!
# Reading leaves everything alone

The accessors of a container only ask, and only by entries that are there.

* `read_eq`, `dimensions_eq`, `queryType_eq` -- what they ask for where it takes more than one query;
* `Container.get_each`, `Container.describe_each` -- what is true of readings with an entry is true
  of every step of an accessor;
* `Container.get_within`, `Container.describe_within` -- **every call of an accessor is a reading
  call**.
-/

/-- Whether the call only asks for something. -/
def Call.isReading : Call → Bool
  | read .. | dimensions .. | member .. => true
  | _ => false

namespace Container

variable {k : Kind} (ctx : Context)

/-- The calls of the dialogue are reading calls. -/
abbrev OnlyReads {α : Type} (d : Dialogue α) : Prop := d.Within fun c => c.isReading

/-! ### Accessors as dialogues -/

/-- A query is asked about a container that is not empty, if there is an entry for it. -/
theorem read_eq (q : Query) (c : Container k) :
    c.read ctx q =
      if c.isNull || !ctx.provides (.read k q) then .done none
      else .call (.read k q c.handle) fun n : Int => .done (some n) := by
  unfold read
  split <;> rfl

/-- The host lists the dimensions, and the rank says how many of them count. -/
theorem dimensions_eq (c : Container k) :
    c.dimensions ctx =
      if c.isNull || !ctx.provides (.dimensions k) then .done []
      else .call (.dimensions k c.handle) fun dims : Option (List Int) =>
        (c.number ctx .rank).bind fun rank => .done ((dims.getD []).take rank.toNat) := by
  unfold dimensions
  split <;> rfl

/-- A sparse array has the type of its implicit value. -/
theorem queryType_eq (c : Container .sparseArray) :
    c.queryType ctx =
      if c.isNull || !ctx.provides (.member .implicitValue) then .done none
      else .call (.member .implicitValue c.handle) fun slot : Option Handle =>
        match slot.filter fun h => !h.isNull with
        | none => .done none
        | some h => (⟨h, .hostManaged⟩ : Container .tensor).read ctx .type := by
  show (if c.isNull || !ctx.provides (.member .implicitValue) then _ else _) = _
  split <;> rfl

/-! ### Which steps they take -/

section Steps

variable {ctx : Context} {p : Happening → Prop}
  (hp : ∀ (c : Call) (a : c.Answer), c.isReading → ctx.provides c.entry → p (.called c a))

include hp

/-- A reading call is made only if there is an entry for it. -/
theorem each_asked {α : Type} {c : Container k} (request : Call)
    {next : request.Answer → Dialogue α} {value : α} (hreading : request.isReading)
    (hnext : ∀ answer, (next answer).Each p) :
    (if c.isNull || !ctx.provides request.entry then done value else call request next).Each p := by
  split
  · exact each_done value
  · next hasks =>
    have hprovided : ctx.provides request.entry := by simp_all
    exact each_call (fun answer => hp request answer hreading hprovided) hnext

/-- The answer to a query takes one step at most. -/
theorem read_each (q : Query) (c : Container k) : (c.read ctx q).Each p := by
  rw [read_eq]
  exact each_asked hp (.read k q c.handle) rfl fun _ => each_done _

/-- The number in it takes no other. -/
theorem number_each (q : Query) (c : Container k) : (c.number ctx q).Each p :=
  each_map (read_each hp q c)

/-- The number of holders is a number that is read, or nothing is. -/
theorem shareCount_each (c : Container k) : (c.shareCount ctx).Each p := by
  unfold shareCount
  split
  · exact number_each hp _ c
  · exact each_done _

/-- Dimensions are listed, and then the rank is read. -/
theorem dimensions_each (c : Container k) : (c.dimensions ctx).Each p := by
  rw [dimensions_eq]
  exact each_asked hp (.dimensions k c.handle) rfl fun _ => each_map (number_each hp .rank c)

/-- The tensor whose type is the type of a sparse array is looked for, and read if it is there. -/
theorem queryType_each (c : Container k) : (c.queryType ctx).Each p := by
  cases k with
  | tensor | numericArray | image => exact read_each hp .type c
  | dataStore => exact each_done _
  | sparseArray =>
    rw [queryType_eq]
    refine each_asked hp (.member .implicitValue c.handle) rfl fun slot => ?_
    split
    · exact each_done _
    · exact read_each hp .type _

/-- The name of a type takes the steps of the type. -/
theorem typeName_each (c : Container k) : (c.typeName ctx).Each p := by
  have htype : ∀ (α : Type) [HostCode α], (c.typeAs α ctx).Each p :=
    fun α _ => each_map (queryType_each hp c)
  cases k with
  | tensor => exact each_map (htype TensorType)
  | numericArray => exact each_map (htype NumericArrayType)
  | image => exact each_map (htype ImageDataType)
  | sparseArray | dataStore => exact each_done _

/-- A color space is a number that is read. -/
theorem colorSpace_each (i : Image) : (i.colorSpace ctx).Each p := by
  unfold Image.colorSpace
  split
  · exact each_done _
  · exact each_map (number_each hp .colorSpace i)

/-- **An accessor takes no step but to ask for something that there is an entry for.** -/
theorem get_each (a : Accessor) (c : Container k) : (c.get ctx a).Each p := by
  have hnumber : ∀ {α : Type} (q : Query) (f : Int → α),
      ((c.number ctx q).bind fun n => done (f n)).Each p :=
    fun q _ => each_map (number_each hp q c)
  cases a with
  | shareCount => exact each_map (shareCount_each hp c)
  | queryType => exact each_map (queryType_each hp c)
  | rank => exact hnumber .rank _
  | dimensions => exact each_map (dimensions_each hp c)
  | flattenedLength => exact hnumber .flattenedLength _
  | dataType => exact each_map (typeName_each hp c)
  | colorSpace =>
    cases k <;> first | exact each_done _ | exact each_map (colorSpace_each hp c)
  | rows | columns | slices | channels | length =>
    cases k <;> first | exact each_done _ | exact hnumber _ _
  | isSliced | hasAlphaChannel | isInterleaved | isEmpty =>
    cases k <;> first | exact each_done _ | exact each_map (hnumber _ _)

/-- The same of a description. -/
theorem describe_each (c : Container k) : (c.describe ctx).Each p :=
  each_mapM (fun a => each_map (get_each hp a c)) _

end Steps

/-! ### Which calls they make -/

/-- A dialogue all of whose steps are reading calls only reads. -/
theorem onlyReads_of_each {α : Type} {d : Dialogue α}
    (h : d.Each fun x => ∀ c, x.call? = some c → c.isReading) : OnlyReads d :=
  h.within fun c _ hc => hc c rfl

/-- The number of holders is only read. -/
theorem shareCount_within (c : Container k) : OnlyReads (c.shareCount ctx) :=
  onlyReads_of_each (shareCount_each (by rintro _ _ hc - _ ⟨⟩; exact hc) c)

/-- The slot of a member is only read. -/
theorem memberSlot_within (m : Member) (c : Container .sparseArray) :
    OnlyReads (c.memberSlot m) :=
  within_bind (within_ask rfl) fun _ => within_done _

/-- The type is only read. -/
theorem queryType_within (c : Container k) : OnlyReads (c.queryType ctx) :=
  onlyReads_of_each (queryType_each (by rintro _ _ hc - _ ⟨⟩; exact hc) c)

/-- **An accessor only asks.** -/
theorem get_within (a : Accessor) (c : Container k) : OnlyReads (c.get ctx a) :=
  onlyReads_of_each (get_each (by rintro _ _ hc - _ ⟨⟩; exact hc) a c)

/-- **A description only asks.** -/
theorem describe_within (c : Container k) : OnlyReads (c.describe ctx) :=
  onlyReads_of_each (describe_each (by rintro _ _ hc - _ ⟨⟩; exact hc) c)

end Container

end Custody
