import Mathlib.Algebra.Ring.Int.Defs
import Custody.Proofs.Adoption
import Custody.Proofs.Depot.Changes
import Custody.Proofs.Depot.Runs

namespace Custody

open Dialogue Depot

/-!
# What is made is what is read

The arguments of a new container go through checks and codes into a resource, and the accessors read
them back through queries and codes.  With a depot that has every entry and no failure to report,
nothing is lost on the way.

* `Depot.told` -- what a depot says to a question;
* `Container.ReadsAsArray`, `Image.ReadsAs` -- the accessors read what a tensor, a numeric array or
  an image was made with;
* `Commission.attempt_created` -- what is made can be read;
* `Depot.convert_of_live` -- a conversion of a live resource is a copy but for the change;
* `Container.Affects`, `Container.ConvertedFrom` -- the accessors that notice a change, and a new
  container that reads as its source but for them;
* `Depot.reads_as_made` -- **a container reads as it was made**, and is not made from bad arguments.
-/

variable {ctx : Context} {d : Depot} {k : Kind}

/-! ### Questions -/

namespace Depot

variable {α β : Type}

/-- What the depot says to a question. -/
def told (d : Depot) (q : Dialogue α) : α := (q.run Depot.host d).value

/-- What is made of an answer is made of what the depot tells. -/
theorem told_bind_done (d : Depot) (q : Dialogue α) (f : α → β) :
    d.told (q.bind fun a => .done (f a)) = f (d.told q) := by
  simp only [told, run_bind, run_done]

end Depot

namespace Container

variable {c : Container k} {r : Resource}

/-- A live resource tells the word that its fact is on the wire. -/
theorem told_number (hlive : d.live? c.handle = some r) (hfull : ∀ e, ctx.provides e) (q : Query) :
    d.told (c.number ctx q) = q.word k (fact r q) := number_run hlive (hfull _)

/-- The type is read from its code. -/
theorem told_typeAs (α : Type) [HostCode α] (ctx : Context) (d : Depot) (c : Container k) :
    d.told (c.typeAs α ctx) = (d.told (c.queryType ctx)).bind HostCode.ofCode? :=
  told_bind_done d _ _

/-! ### Arrays -/

/-- The container reads as an array of these dimensions and this type, where `typed` asks for the
    type. -/
structure ReadsAsArray {α : Type} (ctx : Context) (d : Depot) (c : Container k)
    (typed : Dialogue (Option α)) (type : α) (dims : List Int) : Prop where
  rank : d.told (c.rank ctx) = dims.length
  dimensions : d.told (c.dimensions ctx) = dims
  flattenedLength : d.told (c.flattenedLength ctx) = dims.prod
  dataType : d.told typed = some type

/-- A live resource with one channel reads as an array. -/
theorem readsAsArray_of_live? {α : Type} [HostCode α] {type : α}
    (hlive : d.live? c.handle = some r) (hfull : ∀ e, ctx.provides e) (hchannels : r.channels = 1)
    (htype : (elementType d r k).bind HostCode.ofCode? = some type) :
    ReadsAsArray ctx d c (c.typeAs α ctx) type r.dims where
  rank := told_number hlive hfull .rank
  dimensions := dimensions_run hlive (hfull _) (hfull _)
  flattenedLength := by
    have hlength : d.told (c.flattenedLength ctx) = r.flattenedLength :=
      told_number hlive hfull .flattenedLength
    rw [hlength, Resource.flattenedLength, hchannels, Int.mul_one, List.prod_eq_foldl]
  dataType := by
    have hcode : d.told (c.queryType ctx) = elementType d r k := queryType_run hlive hfull
    rw [told_typeAs, hcode, htype]

end Container

/-- A code that fits into the 32 bits of its answer is read as it was written. -/
theorem NumericArray.word_code (type : NumericArrayType) :
    Query.word .numericArray .type (HostCode.code type) = HostCode.code type := by
  cases type <;> rfl

/-! ### Images -/

/-- The resource that an image with these options is. -/
def ImageOptions.resource (o : ImageOptions) : Resource :=
  { kind := .image
    typeCode := HostCode.code o.dataType
    dims := if o.slices = 0 then [o.height, o.width] else [o.slices, o.height, o.width]
    channels := o.channels
    colorSpace := HostCode.code o.colorSpace
    interleaved := o.interleaved }

/-- The facts about the resource give the geometry back, whichever of the two layouts it has. -/
theorem ImageOptions.fact_resource (o : ImageOptions) (hslices : 0 ≤ o.slices) :
    fact o.resource .rowCount = o.height ∧ fact o.resource .columnCount = o.width ∧
      fact o.resource .sliceCount = o.slices ∧
      fact o.resource .rank = (if 0 < o.slices then 3 else 2) ∧
      fact o.resource .flattenedLength =
        o.height * o.width * o.channels * if 0 < o.slices then o.slices else 1 := by
  by_cases hflat : o.slices = 0
  · have hdims : o.resource.dims = [o.height, o.width] := if_pos hflat
    have hlength : o.resource.flattenedLength = 1 * o.height * o.width * o.channels := by
      rw [Resource.flattenedLength, hdims]
      rfl
    simp [fact, hdims, hlength, hflat]
  · have hsliced : 0 < o.slices := by omega
    have hdims : o.resource.dims = [o.slices, o.height, o.width] := if_neg hflat
    have hlength : o.resource.flattenedLength =
        1 * o.slices * o.height * o.width * o.channels := by
      rw [Resource.flattenedLength, hdims]
      rfl
    simp only [fact, hdims, hlength, hsliced, ↓reduceIte, Int.one_mul]
    refine ⟨rfl, rfl, rfl, rfl, ?_⟩
    -- The slices come first among the dimensions, and last in what is said of the length.
    ac_rfl

namespace Image

/-- Flat and sliced images are made by entries with arguments in different orders, and are the same
    but for the slices. -/
theorem make_newCall (d : Depot) (o : ImageOptions) :
    d.make (newCall o) = d.create o.resource := by
  unfold newCall ImageOptions.resource
  split <;> rfl

/-- The image reads as these options say. -/
structure ReadsAs (ctx : Context) (d : Depot) (i : Image) (o : ImageOptions) : Prop where
  rows : d.told (i.rows ctx) = o.height
  columns : d.told (i.columns ctx) = o.width
  slices : d.told (i.slices ctx) = o.slices
  channels : d.told (i.channels ctx) = o.channels
  colorSpace : d.told (i.colorSpace ctx) = some o.colorSpace
  dataType : d.told (i.dataType ctx) = some o.dataType
  isInterleaved : d.told (i.isInterleaved ctx) = o.interleaved
  isSliced : d.told (i.isSliced ctx) = decide (0 < o.slices)
  rank : d.told (i.rank ctx) = if 0 < o.slices then 3 else 2
  flattenedLength : d.told (i.flattenedLength ctx) =
    o.height * o.width * o.channels * if 0 < o.slices then o.slices else 1

/-- The code of an image type fits into the 32 bits of its answer. -/
theorem word_code (type : ImageDataType) :
    Query.word .image .type (HostCode.code type) = HostCode.code type := by
  cases type <;> rfl

/-- The code of a color space fits into the 32 bits of its answer. -/
theorem word_colorSpace (space : ColorSpace) :
    Query.word .image .colorSpace (HostCode.code space) = HostCode.code space := by
  cases space <;> rfl

/-- A flag is read as it was written. -/
theorem word_interleaved (b : Bool) :
    (Query.word .image .interleaved (if b then 1 else 0) != 0) = b := by
  cases b <;> rfl

/-- The resource reads as the options that it was made from. -/
theorem readsAs_of_live? {i : Image} {o : ImageOptions}
    (hlive : d.live? i.handle = some o.resource) (hfull : ∀ e, ctx.provides e)
    (hslices : 0 ≤ o.slices) : i.ReadsAs ctx d o := by
  have hnumber : ∀ q, d.told (i.number ctx q) = q.word .image (fact o.resource q) :=
    Container.told_number hlive hfull
  -- What is read as it stands is a fact of the resource; the rest is made of such facts.
  obtain ⟨hrows, hcolumns, hcount, hrank, hlength⟩ := o.fact_resource hslices
  refine ⟨(hnumber _).trans hrows, (hnumber _).trans hcolumns, (hnumber _).trans hcount,
    hnumber _, ?_, ?_, ?_, ?_, (hnumber _).trans hrank, (hnumber _).trans hlength⟩
  · have hasked : i.colorSpace ctx =
        (i.number ctx .colorSpace).bind fun n => .done (HostCode.ofCode? n) := by
      simp [colorSpace, Container.isNull_of_live? hlive]
    rw [hasked, told_bind_done, hnumber]
    exact (congrArg _ (word_colorSpace _)).trans (HostCode.ColorSpace.ofCode?_code o.colorSpace)
  · have hcode : d.told (i.queryType ctx) = some (HostCode.code o.dataType) :=
      (Container.queryType_run hlive hfull).trans (congrArg some (word_code o.dataType))
    rw [dataType, Container.told_typeAs, hcode]
    exact HostCode.ImageDataType.ofCode?_code o.dataType
  · refine (told_bind_done d _ _).trans ?_
    rw [hnumber]
    exact word_interleaved o.interleaved
  · refine (told_bind_done d _ _).trans ?_
    have htold : d.told (i.rank ctx) = if 0 < o.slices then 3 else 2 := (hnumber _).trans hrank
    rw [htold]
    split <;> simp [*]

end Image

/-! ### Making -/

namespace Commission

/-- A commission that the depot carries out ends with the handle that was made. -/
theorem attempt_made {o : Commission} (hadmissible : o.Admissible) (hctx : ctx.provides o.entry)
    {h : Handle} {d' : Depot} (hmake : d.make o.call = (.ok h, d')) (hnull : h ≠ .null) :
    let run := (o.attempt ctx).run.run Depot.host d
    run.value = .ok (.fresh h) ∧ run.state = d' := by
  intro run
  -- Every commission makes something, and nothing stands in the slot for it before.
  have hyield : o.call.yield?.isSome ∧ o.call.slotBefore = .null := by
    cases o with
    | image o =>
      show (Image.newCall o).yield?.isSome ∧ (Image.newCall o).slotBefore = .null
      unfold Image.newCall
      split <;> exact ⟨rfl, rfl⟩
    | _ => exact ⟨rfl, rfl⟩
  have hanswer : Depot.host.answer o.call d = (o.call.shape.deliver (.ok h), d') := by
    refine (answer_of_yield? hyield.1 d).trans ?_
    rw [hmake]
  have hgranted := granted_deliver hyield.1 hnull
  rw [Call.granted, hyield.2] at hgranted
  obtain ⟨-, hstate, hvalue⟩ := attempt_outcome Depot.host d hadmissible hctx
  rw [hanswer] at hstate hvalue
  refine ⟨?_, hstate⟩
  rw [hgranted] at hvalue
  exact hvalue

/-- What a depot creates without a failure is found under the handle that is handed out. -/
theorem attempt_created {o : Commission} (hadmissible : o.Admissible)
    (hctx : ctx.provides o.entry) (hnew : d.failNew = none) {r : Resource}
    (hmake : d.make o.call = d.create r) (halive : r.alive) :
    let run := (o.attempt ctx).run.run Depot.host d
    ∃ c, run.value = .ok c ∧ run.state.live? c.handle = some r := by
  intro run
  have hcreate : d.create r = (.ok d.nextHandle, (d.alloc r).2) := by
    simp [create, hnew, alloc]
  obtain ⟨hvalue, hstate⟩ :=
    attempt_made hadmissible hctx (hmake.trans hcreate) (nextHandle_ne_null d)
  refine ⟨_, hvalue, ?_⟩
  rw [hstate]
  exact live?_eq_some_iff.mpr ⟨find?_alloc_self d r, halive⟩

end Commission

/-- The first negative dimension is the one that is refused. -/
theorem checkDims_eq_error (k : Kind) {front back : List Int} {n : Int}
    (hfront : ∀ m ∈ front, 0 ≤ m) (hn : n < 0) :
    checkDims k (front ++ n :: back) = .error (.invalidArgument (.negativeDimension k n)) := by
  have hnone : front.find? (· < 0) = none := by simpa using hfront
  have hfirst : (front ++ n :: back).find? (· < 0) = some n := by
    simp [List.find?_append, hnone, hn]
  rw [checkDims, hfirst]

/-! ### Converting -/

namespace Depot

/-- The resource was copied with a change: the copy is new, has no shares, and is like its source
    but for the change.  Of a sparse array only the dimensions are sure to be kept. -/
structure Converted (d : Depot) (r : Resource) (change : Resource → Resource) (copy : Handle)
    (d' : Depot) : Prop where
  preserves : d.Preserves d'
  fresh : d.find? copy = none
  found : ∃ r', d'.find? copy = some (change r') ∧ r'.alive ∧ r'.shareCount = 0 ∧
    r'.dims = r.dims ∧
    (r.kind ≠ .sparseArray → r' = { r with shareCount := 0, children := r'.children })

/-- A live resource is copied, whatever else there is. -/
theorem copied_of_live {source : Handle} {r : Resource} (hlive : d.live? source = some r)
    (operation : String) :
    ∃ copy d', d.copied operation source = (.ok copy, d') ∧ Converted d r id copy d' := by
  have halive : r.alive := (live?_eq_some_iff.mp hlive).2
  unfold copied duplicate
  rw [duplicateTo_succ, hlive]
  dsimp only
  by_cases hsparse : r.kind = .sparseArray
  · -- A sparse array is made anew, with the same dimensions.
    obtain ⟨hpreserves, hfresh, implicit, explicit, harray, -⟩ :=
      allocSparse_found d r.typeCode r.dims
    rw [if_pos hsparse]
    exact ⟨_, _, rfl, hpreserves, hfresh, _, harray, rfl, rfl, rfl, fun hne => absurd hsparse hne⟩
  · -- Anything else is copied after what it holds, which leaves all that is there alone.
    have hheld : d.Preserves (copyEach operation d.resources.length r.children d).2 :=
      copyEach_preserves (duplicateTo_preserves operation _) r.children d
    rw [if_neg hsparse]
    exact ⟨_, _, rfl, hheld.trans (preserves_alloc _ _), hheld.find?_eq_none (find?_nextHandle _),
      _, find?_alloc_self _ _, halive, rfl, rfl, fun _ => rfl⟩

/-- **A live resource is converted** where no failure was asked for. -/
theorem convert_of_live {source : Handle} {r : Resource} (hfail : d.failConvert = none)
    (hlive : d.live? source = some r) (change : Resource → Resource) :
    ∃ copy d', d.convert source change = (.ok copy, d') ∧ Converted d r change copy d' := by
  obtain ⟨copy, d', hcopied, hpreserves, hfresh, r', hfound, hcopy⟩ :=
    copied_of_live hlive "convert"
  refine ⟨copy, d'.modify copy change, ?_, hpreserves.modify hfresh change, hfresh, r', ?_, hcopy⟩
  · simp only [convert, hfail, hcopied]
  · rw [find?_modify, if_pos rfl, hfound]
    rfl

end Depot

namespace Container

/-- The container was made as a copy of another one with some of its accessors changed.  It is a new
    one, with a handle that no resource had; it belongs to the caller and is shared with nobody; and
    it reads as its source does, unless what that holds is a sparse array.  The source itself reads
    as before. -/
structure ConvertedFrom (ctx : Context) (changed : List Accessor) (d : Depot) (c : Container k)
    (d' : Depot) (made : Container k) : Prop where
  owned : made.ownership = .callerOwned
  other : made.handle ≠ c.handle
  fresh : d.find? made.handle = none
  unshared : d'.told (made.get ctx .shareCount) = .number 0
  alike : (∀ r, d.find? c.handle = some r → r.kind ≠ .sparseArray) →
    ∀ a ∈ Accessor.ofKind k, a ∉ changed → d'.told (made.get ctx a) = d.told (c.get ctx a)
  source : ∀ a ∈ Accessor.ofKind k, d'.told (c.get ctx a) = d.told (c.get ctx a)

variable {c : Container k} {r : Resource}

/-- No accessor but these notices that a resource was changed.  The number of holders and the type
    are always among them. -/
structure Affects (changed : List Accessor) (change : Resource → Resource) : Prop where
  alive : ∀ r, (change r).alive = r.alive
  shareCount : ∀ r, (change r).shareCount = r.shareCount
  dims : ∀ r, (change r).dims = r.dims
  facts : ∀ a ∉ changed, ∀ q f, a.query? = some (q, f) → ∀ r, fact (change r) q = fact r q
  noticed : .shareCount ∈ changed ∧ .queryType ∈ changed ∧ .dataType ∈ changed

/-- The code of the type is read by the accessors of the type, and by the count, which is set anew.
    -/
theorem affects_type (type : Int) :
    Affects [.shareCount, .queryType, .dataType] fun r => { r with typeCode := type } where
  alive _ := rfl
  shareCount _ := rfl
  dims _ := rfl
  noticed := by decide
  facts a _ q f hquery r := by
    have hq := (Accessor.ne_of_query? hquery).2
    cases q with
    | type => exact absurd rfl hq
    | _ => rfl

/-- A conversion of an image changes besides whether its channels are interleaved. -/
theorem affects_type_interleaved (type : Int) (interleaved : Bool) :
    Affects [.shareCount, .queryType, .dataType, .isInterleaved]
      fun r => { r with typeCode := type, interleaved } where
  alive _ := rfl
  shareCount _ := rfl
  dims _ := rfl
  noticed := by decide
  facts a ha q f hquery r := by
    have hq := (Accessor.ne_of_query? hquery).2
    cases q with
    | type => exact absurd rfl hq
    | interleaved =>
      -- The only accessor that depends on it is a changed one.
      rw [Accessor.eq_isInterleaved_of_query? hquery] at ha
      exact absurd (by decide) ha
    | _ => rfl

/-- A converted resource is held by a container that was converted. -/
theorem convertedFrom_of_converted (hk : k ≠ .sparseArray) (hlive : d.live? c.handle = some r)
    (hfull : ∀ e, ctx.provides e) {change : Resource → Resource} {copy : Handle} {d' : Depot}
    (hconverted : Converted d r change copy d') {changed : List Accessor}
    (haffects : Affects changed change) :
    (∃ r', d'.live? copy = some (change r')) ∧ ConvertedFrom ctx changed d c d' (.fresh copy) := by
  obtain ⟨hfound, halive⟩ := live?_eq_some_iff.mp hlive
  obtain ⟨r', hmade, halive', hshares, hdims, hsame⟩ := hconverted.found
  have hlive' : d'.live? (fresh copy : Container k).handle = some (change r') :=
    live?_eq_some_iff.mpr ⟨hmade, (haffects.alive r').trans halive'⟩
  have hother : copy ≠ c.handle := by
    rintro rfl
    have hnothing := hconverted.fresh
    rw [hfound] at hnothing
    cases hnothing
  refine ⟨⟨r', hlive'⟩, rfl, hother, hconverted.fresh, ?_, fun hkind a ha hkept => ?_,
    fun a ha => ?_⟩
  · -- The copy is shared with nobody, and the change does not alter that.
    refine (shareCount_run hlive' hfull).trans ?_
    rw [haffects.shareCount, hshares]
    simp
  · -- What is not changed depends on a fact about the copy that is one about its source.
    have hne : ∀ b ∈ changed, a ≠ b := fun b hb hab => hkept (hab ▸ hb)
    obtain ⟨hcount, hcode, htype⟩ := haffects.noticed
    refine get_congr_of_facts hlive hlive' hfull ha (hne _ hcount) ((haffects.dims r').trans hdims)
      (fun q f hquery => ?_) ?_
    · rw [haffects.facts a hkept q f hquery, hsame (hkind r hfound)]
      have hq := (Accessor.ne_of_query? hquery).1
      cases q with
      | shareCount => exact absurd rfl hq
      | _ => rfl
    · rintro (rfl | rfl)
      · exact absurd rfl (hne _ hcode)
      · exact absurd rfl (hne _ htype)
  · -- The source is a resource that was there before, and so it is as it was.
    have hkept : d'.live? c.handle = some r :=
      live?_eq_some_iff.mpr ⟨hconverted.preserves _ _ hfound, halive⟩
    exact get_eq_of_live? hk hlive hkept hfull ha

end Container

/-! ### What each operation makes -/

/-- How a run ends that was to make an array of these dimensions and this type: if a dimension is
    negative, with an error that names the first such and without a call, and otherwise with a
    container that reads as that array. -/
structure MakesArray {α : Type} (ctx : Context) (typed : Container k → Dialogue (Option α))
    (type : α) (dims : List Int) (run : Run Depot (Except Error (Container k))) : Prop where
  refused : ∀ front n back, dims = front ++ n :: back → (∀ m ∈ front, 0 ≤ m) → n < 0 →
    run.value = .error (.invalidArgument (.negativeDimension k n)) ∧ run.calls = []
  made : (∀ n ∈ dims, 0 ≤ n) →
    ∃ c, run.value = .ok c ∧ c.ReadsAsArray ctx run.state (typed c) type dims

/-- Whether the options are no geometry of an image. -/
def ImageOptions.Impossible (o : ImageOptions) : Prop :=
  o.width < 0 ∨ o.height < 0 ∨ o.slices < 0 ∨ o.channels ≤ 0

/-- How a run ends that was to make an image: if the options are impossible, with an error that
    names the geometry and without a call, and otherwise with an image that reads as they say. -/
structure MakesImage (ctx : Context) (o : ImageOptions) (run : Run Depot (Except Error Image)) :
    Prop where
  refused : run.value =
      .error (.invalidArgument (.imageGeometry o.width o.height o.slices o.channels)) ∧
        run.calls = [] ↔ o.Impossible
  made : ¬o.Impossible → ∃ i, run.value = .ok i ∧ i.ReadsAs ctx run.state o

/-- Arrays of both kinds are made alike: the dimensions are checked, and a resource is created that
    has them and the type. -/
theorem Commission.makesArray {α : Type} [HostCode α] (hfull : ∀ e, ctx.provides e)
    (hnew : d.failNew = none) {o : Commission} {type : α} {dims : List Int}
    {next : Unit → Dialogue (Except Error (Container o.kind))}
    (hchecks : (o.attempt ctx).run = checked (checkDims o.kind dims) next)
    (hadmissible : (∀ n ∈ dims, 0 ≤ n) → o.Admissible) {r : Resource}
    (hmake : d.make o.call = d.create r)
    (hr : r.alive ∧ r.channels = 1 ∧ r.dims = dims)
    (htype : ∀ d, (Container.elementType d r o.kind).bind HostCode.ofCode? = some type) :
    MakesArray ctx (Container.typeAs α ctx) type dims ((o.attempt ctx).run.run Depot.host d) where
  refused front n back hdims hfront hn := by
    rw [hchecks, hdims, checkDims_eq_error o.kind hfront hn]
    exact ⟨rfl, rfl⟩
  made hdims := by
    obtain ⟨halive, hchannels, rfl⟩ := hr
    obtain ⟨c, hvalue, hlive⟩ :=
      attempt_created (hadmissible hdims) (hfull _) hnew hmake halive
    exact ⟨c, hvalue, Container.readsAsArray_of_live? hlive hfull hchannels (htype _)⟩

/-- A tensor is refused before any call or made as an array of the type and dimensions asked for. -/
theorem Tensor.new_makes (hfull : ∀ e, ctx.provides e) (hnew : d.failNew = none)
    (type : TensorType) (dims : List Int) :
    MakesArray ctx (Tensor.dataType ctx) type dims
      ((Tensor.new ctx type dims).run.run Depot.host d) := by
  refine Commission.makesArray (o := .tensor type dims) hfull hnew (Tensor.new_run ctx type dims)
    id rfl ⟨rfl, rfl, rfl⟩ fun _ => ?_
  exact HostCode.TensorType.ofCode?_code type

/-- A numeric array is refused before any call or made as an array of the type and dimensions asked
    for. -/
theorem NumericArray.new_makes (hfull : ∀ e, ctx.provides e) (hnew : d.failNew = none)
    (type : NumericArrayType) (dims : List Int) :
    MakesArray ctx (NumericArray.dataType ctx) type dims
      ((NumericArray.new ctx type dims).run.run Depot.host d) := by
  refine Commission.makesArray (o := .numericArray type dims) hfull hnew
    (NumericArray.new_run ctx type dims) id rfl ⟨rfl, rfl, rfl⟩ fun _ => ?_
  exact (congrArg _ (word_code type)).trans (HostCode.NumericArrayType.ofCode?_code type)

/-- An image is refused before any call or made with the options asked for. -/
theorem Image.new_makes (hfull : ∀ e, ctx.provides e) (hnew : d.failNew = none)
    (o : ImageOptions) : MakesImage ctx o ((Image.new ctx o).run.run Depot.host d) := by
  by_cases himpossible : o.Impossible
  · -- The check refuses before the entry is even looked up.
    have hfault : o.fault? =
        some (.invalidArgument (.imageGeometry o.width o.height o.slices o.channels)) :=
      if_pos himpossible
    rw [Image.new_run, hfault]
    exact ⟨iff_of_true ⟨rfl, rfl⟩ himpossible, fun h => absurd himpossible h⟩
  · have hpossible : 0 ≤ o.width ∧ 0 ≤ o.height ∧ 0 ≤ o.slices ∧ 0 < o.channels := by
      unfold ImageOptions.Impossible at himpossible
      omega
    obtain ⟨i, hvalue, hlive⟩ := Commission.attempt_created (o := .image o) hpossible
      (hfull _) hnew (make_newCall d o) rfl
    refine ⟨iff_of_false (fun h => ?_) himpossible, fun _ =>
      ⟨i, hvalue, readsAs_of_live? hlive hfull hpossible.2.2.1⟩⟩
    have hrefused := h.1.symm.trans hvalue
    cases hrefused

/-- A conversion makes what the depot makes of its source. -/
theorem Commission.attempt_converted {o : Commission} (hkind : o.kind ≠ .sparseArray)
    (hadmissible : o.Admissible) (hfull : ∀ e, ctx.provides e) (hconvert : d.failConvert = none)
    {c : Container o.kind} {r : Resource} (hlive : d.live? c.handle = some r)
    {change : Resource → Resource} (hmake : d.make o.call = d.convert c.handle change)
    {changed : List Accessor} (haffects : Container.Affects changed change) :
    let run := (o.attempt ctx).run.run Depot.host d
    ∃ made, run.value = .ok made ∧ (∃ r', run.state.live? made.handle = some (change r')) ∧
      Container.ConvertedFrom ctx changed d c run.state made := by
  intro run
  obtain ⟨copy, d', hcopy, hconverted⟩ := convert_of_live hconvert hlive change
  obtain ⟨r', hfound, -⟩ := hconverted.found
  obtain ⟨hvalue, hstate⟩ :=
    attempt_made hadmissible (hfull _) (hmake.trans hcopy) (ne_null_of_find? hfound)
  refine ⟨_, hvalue, ?_⟩
  rw [hstate]
  exact Container.convertedFrom_of_converted hkind hlive hfull hconverted haffects

/-- A numeric array is converted to any type, by any method. -/
theorem NumericArray.convert_makes (hfull : ∀ e, ctx.provides e) (hconvert : d.failConvert = none)
    {a : NumericArray} (halive : d.isAlive a.handle) (type : NumericArrayType)
    (options : ConversionOptions) :
    let run := (a.convert ctx type options).run.run Depot.host d
    ∃ made, run.value = .ok made ∧
      run.state.told (made.queryType ctx) = some (HostCode.code type) ∧
      run.state.told (NumericArray.dataType ctx made) = some type ∧
      Container.ConvertedFrom ctx [.shareCount, .queryType, .dataType] d a run.state made := by
  intro run
  obtain ⟨r, hlive⟩ := Option.isSome_iff_exists.mp halive
  obtain ⟨made, hvalue, ⟨r', hmade⟩, hfrom⟩ := Commission.attempt_converted
    (o := .convertedArray a type options) nofun (ne_null_of_live? hlive) hfull hconvert hlive
    rfl (Container.affects_type _)
  have hcode : run.state.told (made.queryType ctx) = some (HostCode.code type) :=
    (Container.queryType_run hmade hfull).trans (congrArg some (word_code type))
  refine ⟨made, hvalue, hcode, ?_, hfrom⟩
  rw [NumericArray.dataType, Container.told_typeAs, hcode]
  exact HostCode.NumericArrayType.ofCode?_code type

/-- An image is converted to any pixel type, with the values of a pixel together or apart. -/
theorem Image.convert_makes (hfull : ∀ e, ctx.provides e) (hconvert : d.failConvert = none)
    {i : Image} (halive : d.isAlive i.handle) (type : ImageDataType) (interleaved : Bool) :
    let run := (i.convert ctx type interleaved).run.run Depot.host d
    ∃ made, run.value = .ok made ∧
      run.state.told (made.queryType ctx) = some (HostCode.code type) ∧
      run.state.told (Image.dataType ctx made) = some type ∧
      run.state.told (Image.isInterleaved ctx made) = interleaved ∧
      Container.ConvertedFrom ctx [.shareCount, .queryType, .dataType, .isInterleaved] d i
        run.state made := by
  intro run
  obtain ⟨r, hlive⟩ := Option.isSome_iff_exists.mp halive
  obtain ⟨made, hvalue, ⟨r', hmade⟩, hfrom⟩ := Commission.attempt_converted
    (o := .convertedImage i type interleaved) nofun (ne_null_of_live? hlive) hfull hconvert
    hlive rfl (Container.affects_type_interleaved _ _)
  have hcode : run.state.told (made.queryType ctx) = some (HostCode.code type) :=
    (Container.queryType_run hmade hfull).trans (congrArg some (word_code type))
  refine ⟨made, hvalue, hcode, ?_, ?_, hfrom⟩
  · rw [Image.dataType, Container.told_typeAs, hcode]
    exact HostCode.ImageDataType.ofCode?_code type
  · have hnumber := Container.told_number hmade hfull .interleaved
    refine (told_bind_done _ _ _).trans ?_
    exact (congrArg (· != 0) hnumber).trans (word_interleaved interleaved)

/-- **A container reads as it was made.**  Take a host with every entry that keeps its resources in
    a depot, in any state of it in which no failure is asked for.  A tensor or a numeric array of
    any type and any dimensions is refused for the first of them that is negative, without a call,
    or reads as having these dimensions, their number as its rank, their product as its length, and
    this type.  An image is refused exactly for an impossible geometry, without a call, or reads in
    all parts as its options say.  Whatever holds a live handle is converted to any type: the copy
    is another container, of that type, and reads otherwise as its source, which reads as before. -/
theorem Depot.reads_as_made (ctx : Context) (hfull : ∀ e, ctx.provides e) (d : Depot)
    (hnew : d.failNew = none) (hconvert : d.failConvert = none) :
    (∀ type dims, MakesArray ctx (Tensor.dataType ctx) type dims
      ((Tensor.new ctx type dims).run.run Depot.host d)) ∧
    (∀ type dims, MakesArray ctx (NumericArray.dataType ctx) type dims
      ((NumericArray.new ctx type dims).run.run Depot.host d)) ∧
    (∀ o, MakesImage ctx o ((Image.new ctx o).run.run Depot.host d)) ∧
    (∀ (a : NumericArray) type options, d.isAlive a.handle →
      let run := (a.convert ctx type options).run.run Depot.host d
      ∃ made, run.value = .ok made ∧
        run.state.told (made.queryType ctx) = some (HostCode.code type) ∧
        run.state.told (NumericArray.dataType ctx made) = some type ∧
        Container.ConvertedFrom ctx [.shareCount, .queryType, .dataType] d a run.state made) ∧
    ∀ (i : Image) type interleaved, d.isAlive i.handle →
      let run := (i.convert ctx type interleaved).run.run Depot.host d
      ∃ made, run.value = .ok made ∧
        run.state.told (made.queryType ctx) = some (HostCode.code type) ∧
        run.state.told (Image.dataType ctx made) = some type ∧
        run.state.told (Image.isInterleaved ctx made) = interleaved ∧
        Container.ConvertedFrom ctx [.shareCount, .queryType, .dataType, .isInterleaved] d i
          run.state made := by
  refine ⟨Tensor.new_makes hfull hnew, NumericArray.new_makes hfull hnew,
    Image.new_makes hfull hnew, fun a type options halive => ?_,
    fun i type interleaved halive => ?_⟩
  · exact NumericArray.convert_makes hfull hconvert halive type options
  · exact Image.convert_makes hfull hconvert halive type interleaved

/-- Two slices of three rows and four columns; a tensor that is refused for its second dimension;
    and a flat image that is converted. -/
theorem Depot.reads_as_made_of_slices :
    let d : Depot := { resources := [{ kind := .image, typeCode := 2, dims := [5, 6] }] }
    let o : ImageOptions := { slices := 2, width := 4, height := 3, channels := 3 }
    let sliced := (Image.new .full o).run.run Depot.host d
    let refused := (Tensor.new .full .real [2, -1, -3]).run.run Depot.host d
    let flat : Image := ⟨.ofNumber 1, .hostManaged⟩
    let converted := (flat.convert .full .real32 false).run.run Depot.host d
    (∃ i, sliced.value = .ok i ∧ sliced.state.told (i.rows .full) = 3 ∧
      sliced.state.told (i.columns .full) = 4 ∧
      sliced.state.told (i.flattenedLength .full) = 72) ∧
    refused.value = .error (.invalidArgument (.negativeDimension .tensor (-1))) ∧
    ∃ i, converted.value = .ok i ∧ i.handle ≠ flat.handle ∧
      converted.state.told (i.dataType .full) = some .real32 ∧
      converted.state.told (i.get .full .rows) = .number 5 := by
  intro d o sliced refused flat converted
  obtain ⟨htensor, -, himage, -, hconverted⟩ :=
    Depot.reads_as_made .full (fun _ => rfl) d rfl rfl
  refine ⟨?_, ?_, ?_⟩
  · obtain ⟨i, hvalue, hreads⟩ := (himage o).made (by unfold ImageOptions.Impossible; decide)
    exact ⟨i, hvalue, hreads.rows, hreads.columns, hreads.flattenedLength⟩
  · exact ((htensor .real _).refused [2] (-1) [-3] rfl (by decide) (by decide)).1
  · obtain ⟨i, hvalue, -, htype, -, hfrom⟩ := hconverted flat .real32 false (by decide +kernel)
    have hkind : ∀ r, d.find? flat.handle = some r → r.kind ≠ .sparseArray := by
      intro r hr
      have hkinds : (d.find? flat.handle).map (·.kind) = some .image := by decide +kernel
      rw [hr] at hkinds
      have hflat : r.kind = .image := Option.some.inj hkinds
      rw [hflat]
      decide
    have hrows : d.told (flat.get .full .rows) = .number 5 := by decide +kernel
    exact ⟨i, hvalue, hfrom.other, htype,
      (hfrom.alike hkind .rows (by decide) (by decide)).trans hrows⟩

end Custody
