import Custody.Proofs.Degradation

namespace Custody

open Dialogue

/-!
# What a missing entry reads as

An accessor that cannot ask falls back to what it gives for an empty container, so that nobody
takes the fallback for something that the host said.  There is one exception: the number that is
read for a missing color space is zero, and zero is the code of a color space.

* `Dialogue.Settles` -- whatever the host answers, the value is known beforehand, and nothing that
  is missing is called;
* `Accessor.blank`, `Container.get_of_null` -- what an accessor gives for an empty container;
* `Container.get_settles` -- accessors but that of the color space settle for this;
* `Container.get_colorSpace_settles` -- a color space that cannot be read is gray;
* `Container.get_of_missing` -- **what a missing entry reads as**.
-/

/-! ### Dialogues that settle -/

namespace Dialogue

variable {α β : Type} {ctx : Context}

/-- Whatever the host answers, the dialogue ends with this value, and every call is one that the
    host has an entry for. -/
def Settles (ctx : Context) (d : Dialogue α) (value : α) : Prop :=
  d.Always fun trace result => result = value ∧ ∀ c ∈ Happening.calls trace, ctx.provides c.entry

/-- A dialogue that is over has settled on its value. -/
theorem settles_done (value : α) : (done value).Settles ctx value :=
  ⟨rfl, fun _ hc => absurd hc List.not_mem_nil⟩

/-- A call that the host provides stands in the way of no value. -/
theorem settles_call {request : Call} {next : request.Answer → Dialogue α} {value : α}
    (hrequest : ctx.provides request.entry) (hnext : ∀ answer, (next answer).Settles ctx value) :
    (call request next).Settles ctx value := by
  intro answer
  refine (hnext answer).imp fun trace result h => ⟨h.1, ?_⟩
  exact List.forall_mem_cons.mpr ⟨hrequest, h.2⟩

/-- What is made of a settled value is settled as well. -/
theorem Settles.map {d : Dialogue α} {value : α} (hd : d.Settles ctx value) (f : α → β) :
    (d.bind fun x => done (f x)).Settles ctx (f value) := by
  refine (always_bind _ _ _).mpr (Always.imp hd fun trace result h => ?_)
  rw [always_done, List.append_nil]
  exact ⟨congrArg f h.1, h.2⟩

end Dialogue

/-! ### Empty containers -/

/-- What an accessor gives for an empty container: zero or nothing, and true if it is asked whether
    there is nothing. -/
def Accessor.blank : Accessor → Reading
  | colorSpace => .word none
  | a => a.standard

namespace Container

variable {k : Kind} {ctx : Context}

/-- An empty container is not asked about. -/
theorem get_of_null (ctx : Context) (a : Accessor) {c : Container k} (hnull : c.handle = .null) :
    c.get ctx a = .done a.blank := by
  obtain ⟨handle, ownership⟩ := c
  obtain rfl : handle = .null := hnull
  cases k <;> cases a <;> rfl

/-! ### Missing entries -/

/-- What the host has no entry for is not read. -/
theorem read_of_missing {q : Query} (h : ctx.provides (.read k q) = false) (c : Container k) :
    c.read ctx q = .done none := by
  rw [read_eq, h, Bool.not_false, Bool.or_true, if_pos rfl]

/-- A number settles on zero where its entry is missing. -/
theorem number_settles {q : Query} (h : ctx.provides (.read k q) = false) (c : Container k) :
    (c.number ctx q).Settles ctx 0 := by
  show ((c.read ctx q).bind fun answer => done (answer.getD 0)).Settles ctx 0
  rw [read_of_missing h]
  exact settles_done 0

/-- The count of shares settles on zero where its entry is missing. -/
theorem shareCount_settles (h : ctx.provides (.read k .shareCount) = false) (c : Container k) :
    (c.shareCount ctx).Settles ctx 0 := by
  unfold shareCount
  split
  · exact number_settles h c
  · exact settles_done 0

/-- Dimensions are listed in vain if the host does not tell how many there are. -/
theorem dimensions_settles
    (h : ctx.provides (.dimensions k) = false ∨ ctx.provides (.read k .rank) = false)
    (c : Container k) : (c.dimensions ctx).Settles ctx [] := by
  rw [dimensions_eq]
  split
  · exact settles_done []
  · next hasked =>
    have hdimensions : ctx.provides (.dimensions k) = true := by simp_all
    have hrank : ctx.provides (.read k .rank) = false := by
      rcases h with h | h
      · rw [hdimensions] at h
        cases h
      · exact h
    -- The list that the host gives is cut to the rank, which is zero.
    refine settles_call hdimensions fun dims : Option (List Int) => ?_
    exact (number_settles hrank c).map fun rank => (dims.getD []).take rank.toNat

/-- A sparse array has no type if the host does not tell that of the implicit value. -/
theorem queryType_settles (h : ∃ e ∈ Accessor.queryType.entries k, ctx.provides e = false)
    (c : Container k) : (c.queryType ctx).Settles ctx none := by
  have hread : ∀ {k : Kind} (c : Container k), ctx.provides (.read k .type) = false →
      (c.read ctx .type).Settles ctx none := by
    intro k c hmissing
    rw [read_of_missing hmissing]
    exact settles_done none
  cases k with
  | tensor => exact hread c (by simpa [Accessor.entries] using h)
  | numericArray => exact hread c (by simpa [Accessor.entries] using h)
  | image => exact hread c (by simpa [Accessor.entries] using h)
  | dataStore => exact settles_done none
  | sparseArray =>
    rw [queryType_eq]
    split
    · exact settles_done none
    · next hasked =>
      -- The view can be had, so it is the type of the tensor that cannot be read.
      have hmember : ctx.provides (.member .implicitValue) = true := by simp_all
      have htype : ctx.provides (.read .tensor .type) = false := by
        simpa [Accessor.entries, hmember] using h
      refine settles_call hmember fun slot : Option Handle => ?_
      split
      · exact settles_done none
      · exact hread _ htype

/-- Without a type there is no name of one. -/
theorem typeName_settles (h : ∃ e ∈ Accessor.dataType.entries k, ctx.provides e = false)
    (c : Container k) : (c.typeName ctx).Settles ctx none := by
  cases k with
  | tensor => exact ((queryType_settles h c).map _).map _
  | numericArray => exact ((queryType_settles h c).map _).map _
  | image => exact ((queryType_settles h c).map _).map _
  | sparseArray => exact settles_done none
  | dataStore => exact settles_done none

/-- **Accessors but that of the color space settle for what they give for an empty container.** -/
theorem get_settles {a : Accessor} (ha : a ≠ .colorSpace)
    (h : ∃ e ∈ a.entries k, ctx.provides e = false) (c : Container k) :
    (c.get ctx a).Settles ctx a.blank := by
  -- Most accessors read one number, for which zero stands where its entry is missing.
  have hnumber : ∀ {q : Query} {β : Type} (f : Int → β), a.entries k = [.read k q] →
      ((c.number ctx q).bind fun n => done (f n)).Settles ctx (f 0) := by
    intro q β f hentries
    have hmissing : ctx.provides (.read k q) = false := by simpa [hentries] using h
    exact (number_settles hmissing c).map f
  cases a with
  | shareCount => exact (shareCount_settles (by simpa [Accessor.entries] using h) c).map _
  | queryType => exact (queryType_settles h c).map _
  | rank => exact hnumber _ rfl
  | dimensions => exact (dimensions_settles (by simpa [Accessor.entries] using h) c).map _
  | flattenedLength => exact hnumber _ rfl
  | dataType => exact (typeName_settles h c).map _
  | rows | columns | slices | channels | length =>
    cases k <;> first | exact settles_done _ | exact hnumber _ rfl
  | isSliced | hasAlphaChannel | isInterleaved | isEmpty =>
    cases k <;> first | exact settles_done _ | exact (hnumber _ rfl).map _
  | colorSpace => exact absurd rfl ha

/-- A color space that cannot be read is gray, as the number zero would be. -/
theorem get_colorSpace_settles (h : ctx.provides (.read .image .colorSpace) = false) {i : Image}
    (hnull : i.handle ≠ .null) :
    (Container.get ctx .colorSpace i).Settles ctx
      (.word (some (HostCode.name ColorSpace.gray))) := by
  show ((Image.colorSpace ctx i).bind _).Settles ctx _
  unfold Image.colorSpace
  rw [if_neg (by simpa [isNull] using hnull)]
  exact ((number_settles h i).map _).map _

/-- **What a missing entry reads as.** Take any container, with any host and any tables and entries
    of it missing.  If an accessor reads through one that is missing, it calls neither this one nor
    any other that is missing, and gives what it gives for an empty container, about which nobody is
    asked: zero or nothing.  But the color space of an image that is not empty is given as gray, and
    that of an empty one is not given. -/
theorem get_of_missing {σ : Type} (c : Container k) (ctx : Context) (host : Host σ) (s : σ)
    (a : Accessor) (ha : a ∈ Accessor.ofKind k) (e : Entry) (he : e ∈ a.entries k)
    (hmissing : ctx.provides e = false) :
    let run := (c.get ctx a).run host s
    let blank := ((empty : Container k).get ctx a).run host s
    (∀ call ∈ run.calls, call.entry ≠ e ∧ ctx.provides call.entry) ∧
    (blank.value = a.blank ∧ blank.calls = []) ∧
    (a ≠ .colorSpace → run.value = blank.value) ∧
    (a = .colorSpace → c.handle ≠ .null →
      run.value = .word (some (HostCode.name ColorSpace.gray)) ∧ blank.value = .word none) := by
  intro run blank
  have hblank : blank.value = a.blank ∧ blank.calls = [] := by
    have hrun : blank = (done a.blank).run host s :=
      congrArg (fun d : Dialogue Reading => d.run host s) (get_of_null ctx a rfl)
    rw [hrun]
    exact ⟨rfl, rfl⟩
  have hsettled : ∀ {value : Reading}, (c.get ctx a).Settles ctx value →
      run.value = value ∧ ∀ call ∈ run.calls, ctx.provides call.entry :=
    fun h => Always.run h host s
  have hspare : (∀ call ∈ run.calls, ctx.provides call.entry) →
      ∀ call ∈ run.calls, call.entry ≠ e ∧ ctx.provides call.entry := by
    intro hcalls call hcall
    refine ⟨fun heq => ?_, hcalls call hcall⟩
    have hprovided := hcalls call hcall
    rw [heq, hmissing] at hprovided
    cases hprovided
  by_cases hcolor : a = .colorSpace
  · -- Only images have a color space, and it is read through this one entry.
    subst hcolor
    obtain rfl : k = .image := by
      cases k <;> first | rfl | exact absurd ha (by decide)
    have hcode : ctx.provides (.read .image .colorSpace) = false := by
      obtain rfl := List.mem_singleton.mp he
      exact hmissing
    by_cases hnull : c.handle = .null
    · have hempty : (c.get ctx .colorSpace).Settles ctx (Accessor.blank .colorSpace) := by
        rw [get_of_null ctx _ hnull]
        exact settles_done _
      exact ⟨hspare (hsettled hempty).2, hblank, fun h => absurd rfl h,
        fun _ h => absurd hnull h⟩
    · obtain ⟨hvalue, hcalls⟩ := hsettled (get_colorSpace_settles hcode hnull)
      exact ⟨hspare hcalls, hblank, fun h => absurd rfl h, fun _ _ => ⟨hvalue, hblank.1⟩⟩
  · obtain ⟨hvalue, hcalls⟩ := hsettled (get_settles hcolor ⟨e, he, hmissing⟩ c)
    refine ⟨hspare hcalls, hblank, fun _ => ?_, fun h => absurd h hcolor⟩
    rw [hvalue, hblank.1]

/-- A sparse array whose type is asked for, where tensors have none: the host is asked for the
    implicit value, but not for its type. -/
theorem get_of_missing_type_of_member :
    let ctx : Context := ⟨Version.tables, fun _ => true, (· != .read .tensor .type)⟩
    let a : SparseArray := ⟨.ofNumber 3, .callerOwned⟩
    let host : Host Unit := ⟨fun c s => (c.shape.deliver (.ok (.ofNumber 1)), s)⟩
    let run := (a.get ctx .queryType).run host ()
    ctx.provides (.read .tensor .type) = false ∧ run.value = .code none ∧
      run.calls = [.member .implicitValue a.handle] ∧
      ∀ call ∈ run.calls, call.entry ≠ .read .tensor .type ∧ ctx.provides call.entry := by
  intro ctx a host run
  have hmissing : ctx.provides (.read .tensor .type) = false := rfl
  obtain ⟨hcalls, -, hvalue, -⟩ := get_of_missing a ctx host () .queryType (by decide)
    (.read .tensor .type) (by decide) hmissing
  exact ⟨hmissing, hvalue (by decide), rfl, hcalls⟩

/-- Nobody was asked for the color space of this image, but it is not what that of an empty image
    is. -/
theorem get_colorSpace_ne_blank :
    let ctx : Context := ⟨Version.tables, fun _ => true, (· != .read .image .colorSpace)⟩
    let i : Image := ⟨.ofNumber 1, .hostManaged⟩
    let run := (i.get ctx .colorSpace).run Depot.host {}
    i.handle ≠ .null ∧ ctx.provides (.read .image .colorSpace) = false ∧ run.calls = [] ∧
      run.value = .word (some "Gray") ∧
      run.value ≠ (((empty : Image).get ctx .colorSpace).run Depot.host {}).value := by
  decide +kernel

end Container

end Custody
