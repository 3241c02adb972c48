import Custody.Proofs.Depot.Making
import Custody.Proofs.Depot.Releasing

namespace Custody

/-!
# What a call changes of a resource

Most calls leave every resource as it is and at most add new ones.  The others change a resource
in one of four ways, each of which says which resource that is.

* `Depot.Preserves` -- every resource is found again as it was;
* `Depot.Replica` -- what a copy has of its source; `copied_replica`, `copied_cases`;
* `Depot.Change` -- the ways in which a call changes a resource;
* `Depot.answer_add_filled` -- an addition to a live store is carried out; `answer_add_done`;
* `Depot.answer_changes` -- **there are no other ways**.
-/

/-- What a store takes over for an item. -/
def Item.children : Item → List Handle
  | .plain _ => []
  | .container _ h => [h]

namespace Depot

variable {d d' d'' : Depot} {h x : Handle} {r : Resource}

/-! ### Resources that stay as they are -/

/-- Every resource is found again as it was. -/
def Preserves (d d' : Depot) : Prop := ∀ x r, d.find? x = some r → d'.find? x = some r

namespace Preserves

/-- A depot preserves itself. -/
theorem refl (d : Depot) : d.Preserves d := fun _ _ h => h

/-- What is preserved twice is preserved. -/
theorem trans (h : d.Preserves d') (h' : d'.Preserves d'') : d.Preserves d'' :=
  fun x r hr => h' x r (h x r hr)

/-- Where the resources are the same, each of them is. -/
theorem of_resources_eq (h : d'.resources = d.resources) : d.Preserves d' :=
  fun x r hr => by rwa [find?_of_resources_eq h]

/-- What is not there was not there. -/
theorem find?_eq_none (h : d.Preserves d') (hx : d'.find? x = none) : d.find? x = none := by
  cases hfound : d.find? x with
  | none => rfl
  | some r => simp [h x r hfound] at hx

/-- A change of what was not there before is not seen. -/
theorem modify (h : d.Preserves d') (hx : d.find? x = none) (f : Resource → Resource) :
    d.Preserves (d'.modify x f) := by
  intro y r hr
  have hother : y ≠ x := fun hyx => by simp [hyx, hx] at hr
  rw [find?_modify, if_neg hother]
  exact h y r hr

end Preserves

/-- A new resource takes a place of its own. -/
theorem preserves_alloc (d : Depot) (r : Resource) : d.Preserves (d.alloc r).2 := by
  intro x r' hr
  rw [find?_alloc, if_neg]
  · exact hr
  · rintro rfl
    simp at hr

/-- A sparse array is found as it was made, with tensors that were not there before. -/
theorem allocSparse_found (d : Depot) (typeCode : Int) (dims : List Int) :
    d.Preserves (d.allocSparse typeCode dims).2 ∧
      d.find? (d.allocSparse typeCode dims).1 = none ∧
      ∃ implicit explicit,
        (d.allocSparse typeCode dims).2.find? (d.allocSparse typeCode dims).1 =
          some { kind := .sparseArray, typeCode, dims, members := some (implicit, explicit) } ∧
        d.find? implicit = none ∧ d.find? explicit = none ∧
        (d.allocSparse typeCode dims).2.find? implicit =
          some { kind := .tensor, typeCode, dims := [] } := by
  let one : Resource := { kind := .tensor, typeCode, dims := [] }
  let two : Resource := { kind := .tensor, typeCode, dims := [1] }
  have hone := preserves_alloc d one
  have htwo := hone.trans (preserves_alloc (d.alloc one).2 two)
  let array : Resource :=
    { kind := .sparseArray, typeCode, dims
      members := some ((d.alloc one).1, ((d.alloc one).2.alloc two).1) }
  have hthree := preserves_alloc ((d.alloc one).2.alloc two).2 array
  -- The tensors come first and the array after them, each in a place of its own.
  refine ⟨htwo.trans hthree, htwo.find?_eq_none (find?_nextHandle _), (d.alloc one).1,
    ((d.alloc one).2.alloc two).1, find?_alloc_self _ array, find?_nextHandle d,
    hone.find?_eq_none (find?_nextHandle _), ?_⟩
  exact hthree _ _ (preserves_alloc (d.alloc one).2 two _ _ (find?_alloc_self d one))

/-! ### Copies -/

/-- Copying what a resource holds preserves the rest as long as each single copy does. -/
theorem copyEach_preserves {operation : String} {fuel : Nat}
    (hcopy : ∀ (h : Handle) (d : Depot), d.Preserves (duplicateTo operation fuel h d).2)
    (children : List Handle) (d : Depot) :
    d.Preserves (copyEach operation fuel children d).2 := by
  induction children generalizing d with
  | nil => exact .refl d
  | cons child rest ih => exact (hcopy child d).trans (ih _)

/-- Copying changes nothing that is there. -/
theorem duplicateTo_preserves (operation : String) (fuel : Nat) (h : Handle) (d : Depot) :
    d.Preserves (duplicateTo operation fuel h d).2 := by
  induction fuel generalizing h d with
  | zero => exact .refl d
  | succ fuel ih =>
    rw [duplicateTo_succ]
    cases d.live? h with
    | none => exact .of_resources_eq (d.use_resources operation h)
    | some r =>
      by_cases hsparse : r.kind = .sparseArray
      · simp only [hsparse, ↓reduceIte]
        exact (allocSparse_found d _ _).1
      · simp only [hsparse, ↓reduceIte]
        exact (copyEach_preserves ih r.children d).trans (preserves_alloc _ _)

/-- The resource was copied: the copy is new, and like its source but for shares, of which it has
    none, and for what it holds.  The implicit value of an array is new as well, and has the type
    of the array. -/
structure Replica (d : Depot) (r : Resource) (made : Handle × Depot) : Prop where
  preserves : d.Preserves made.2
  fresh : d.find? made.1 = none
  found : ∃ r', made.2.find? made.1 = some r' ∧ r'.alive ∧ r'.kind = r.kind ∧
    r'.shareCount = 0 ∧ r'.typeCode = r.typeCode ∧ r'.dims = r.dims ∧
    (r.kind ≠ .sparseArray → r' = { r with shareCount := 0, children := r'.children }) ∧
    (r.kind = .sparseArray → ∃ implicit explicit t, r'.members = some (implicit, explicit) ∧
      made.2.find? implicit = some t ∧ t.alive ∧ t.typeCode = r.typeCode) ∧
    ∀ m ∈ r'.memberHandles, d.find? m = none

/-- **A live resource is copied**, if there is any fuel. -/
theorem duplicateTo_replica (hd : d.WellFormed) (hlive : d.live? h = some r)
    (operation : String) (fuel : Nat) :
    ∃ copy, (duplicateTo operation (fuel + 1) h d).1 = some copy ∧
      Replica d r (copy, (duplicateTo operation (fuel + 1) h d).2) := by
  obtain ⟨hfound, halive⟩ := live?_eq_some_iff.mp hlive
  rw [duplicateTo_succ, hlive]
  dsimp only
  by_cases hsparse : r.kind = .sparseArray
  · simp only [hsparse, ↓reduceIte]
    -- An array is copied with two new tensors inside.
    obtain ⟨hpreserves, hfresh, implicit, explicit, harray, hi, he, hinner⟩ :=
      allocSparse_found d r.typeCode r.dims
    refine ⟨_, rfl, hpreserves, hfresh, _, harray, rfl, hsparse.symm, rfl, rfl, rfl,
      fun hne => absurd hsparse hne, fun _ => ⟨implicit, explicit, _, rfl, hinner, rfl, rfl⟩, ?_⟩
    intro m hm
    simp only [Resource.memberHandles, List.mem_cons, List.not_mem_nil, or_false] at hm
    rcases hm with rfl | rfl
    · exact hi
    · exact he
  · simp only [hsparse, ↓reduceIte]
    -- Anything else is copied after what it holds, and has no tensors inside.
    have hheld : d.Preserves (copyEach operation fuel r.children d).2 :=
      copyEach_preserves (duplicateTo_preserves operation fuel) r.children d
    have hmembers : r.members = none := hd.arrays h r hfound hsparse
    refine ⟨_, rfl, hheld.trans (preserves_alloc _ _),
      hheld.find?_eq_none (find?_nextHandle _), _, find?_alloc_self _ _, halive, rfl, rfl, rfl,
      rfl, fun _ => rfl, fun h => absurd h hsparse, ?_⟩
    simp [Resource.memberHandles, hmembers]

/-- A resource that is not alive is not copied. -/
theorem duplicate_of_dead (hdead : d.live? h = none) (operation : String) :
    d.duplicate operation h = (none, d.use operation h) := by
  rw [duplicate, duplicateTo_succ, hdead]

/-- **An entry makes a replica of what is alive.** -/
theorem copied_replica (hd : d.WellFormed) (hlive : d.live? h = some r) (operation : String) :
    ∃ copy, (d.copied operation h).1 = .ok copy ∧
      Replica d r (copy, (d.copied operation h).2) := by
  obtain ⟨copy, hcopy, hreplica⟩ := duplicateTo_replica hd hlive operation d.resources.length
  refine ⟨copy, ?_⟩
  unfold copied duplicate
  generalize duplicateTo operation (d.resources.length + 1) h d = made at hcopy hreplica ⊢
  obtain ⟨_, d'⟩ := made
  obtain rfl := hcopy
  exact ⟨rfl, hreplica⟩

/-- What an entry makes of a copy: nothing, or a replica. -/
theorem copied_cases (hd : d.WellFormed) (operation : String) (source : Handle) :
    (∃ code, (d.copied operation source).1 = .error code ∧
        d.Preserves (d.copied operation source).2) ∨
      ∃ r copy, d.live? source = some r ∧ (d.copied operation source).1 = .ok copy ∧
        Replica d r (copy, (d.copied operation source).2) := by
  cases hlive : d.live? source with
  | none =>
    unfold copied
    rw [duplicate_of_dead hlive]
    exact .inl ⟨_, rfl, .of_resources_eq (d.use_resources operation source)⟩
  | some r =>
    obtain ⟨copy, hcopy, hreplica⟩ := copied_replica hd hlive operation
    exact .inr ⟨r, copy, rfl, hcopy, hreplica⟩

/-! ### Calls that change nothing that is there -/

/-- Making a sparse array preserves what is there, the source included. -/
theorem createSparse_preserves (d : Depot) (operation : String) (source : Handle)
    (dims : List Int) (implicit : Handle) :
    d.Preserves (d.createSparse operation source dims implicit).2 := by
  rw [createSparse_eq]
  split
  · exact .of_resources_eq rfl
  · split
    · exact .of_resources_eq (d.use_resources operation source)
    · exact .of_resources_eq (d.use_resources operation implicit)
    · exact (allocSparse_found d _ dims).1

/-- A conversion is made in a copy, and the source is preserved. -/
theorem convert_preserves (hd : d.WellFormed) (source : Handle) (change : Resource → Resource) :
    d.Preserves (d.convert source change).2 := by
  unfold convert
  split
  · exact .of_resources_eq rfl
  · have hcases := copied_cases hd "convert" source
    generalize d.copied "convert" source = made at hcases ⊢
    obtain ⟨code | copy, d'⟩ := made
    · obtain ⟨_, _, hpreserves⟩ | ⟨_, _, _, hcopy, _⟩ := hcases
      · exact hpreserves
      · cases hcopy
    · obtain ⟨_, hcode, _⟩ | ⟨_, _, _, hcopy, hreplica⟩ := hcases
      · cases hcode
      · cases hcopy
        exact hreplica.preserves.modify hreplica.fresh change

/-- A copy preserves its source. -/
theorem copied_preserves (d : Depot) (operation : String) (source : Handle) :
    d.Preserves (d.copied operation source).2 := by
  have hpreserves := duplicateTo_preserves operation (d.resources.length + 1) source d
  unfold copied duplicate
  generalize duplicateTo operation (d.resources.length + 1) source d = made at hpreserves ⊢
  obtain ⟨_ | copy, d'⟩ := made <;> exact hpreserves

/-- Making a resource preserves the others. -/
theorem create_preserves (d : Depot) (r : Resource) : d.Preserves (d.create r).2 := by
  unfold create
  split
  · exact .of_resources_eq rfl
  · exact preserves_alloc d r

/-- A clone preserves its source. -/
theorem clone_preserves (d : Depot) (source : Handle) : d.Preserves (d.clone source).2 := by
  unfold clone
  split
  · exact .of_resources_eq rfl
  · exact copied_preserves d "clone" source

/-- What is computed from an array preserves the array. -/
theorem compute_preserves (d : Depot) (operation : String) (array : Handle)
    (tensor : Resource → Resource) : d.Preserves (d.compute operation array tensor).2 := by
  unfold compute
  split
  · exact .of_resources_eq (d.use_resources operation array)
  · exact preserves_alloc d _

/-- What is only read, and what is only made, leaves everything as it was. -/
theorem answer_preserves (hd : d.WellFormed) {c : Call} (hcleanup : c.isCleanup = false)
    (haddition : c.isAddition = false)
    (hreset : ∀ array implicit, c ≠ .resetImplicit array implicit) :
    d.Preserves (d.answer c).2 := by
  cases c with
  | newTensor | newNumericArray | newFlatImage | newSlicedImage | createStore =>
    exact create_preserves d _
  | clone k source => exact clone_preserves d source
  | convertNumericArray | convertImage => exact convert_preserves hd _ _
  -- The dimensions are looked up before the array is made, which at most adds a note.
  | sparseFromTensor data implicit =>
    exact (Preserves.of_resources_eq (peek_resources d _ data [] _)).trans
      (createSparse_preserves _ _ data _ implicit)
  | sparseFromPositions positions values extent implicit =>
    exact (Preserves.of_resources_eq (peek_resources d _ extent 0 _)).trans
      (createSparse_preserves _ _ values _ implicit)
  | explicitPositions array | toTensor array => exact compute_preserves d _ array _
  | read k q h => exact .of_resources_eq (peek_resources d _ h _ _)
  | dimensions k h => exact .of_resources_eq (peek_resources d _ h _ _)
  | member m h => exact .of_resources_eq (peek_resources d _ h _ _)
  | resetImplicit array implicit => exact absurd rfl (hreset array implicit)
  | free | disown => cases hcleanup
  | add => cases haddition

/-! ### Calls that change something -/

/-- How a call changes a resource that is there: not at all, by releasing it, by giving up a share
    of it, by another element type if it is the array whose implicit value is changed or a tensor
    inside that, or by an entry more if it is the store that is added to. -/
inductive Change (d : Depot) : Call → Handle → Resource → Resource → Prop where
  | same (c : Call) (x : Handle) (r : Resource) : Change d c x r r
  | released (k : Kind) (h x : Handle) (r : Resource) (children : List Handle) :
      Change d (.free k h) x r { r with alive := false, children }
  | disowned (k : Kind) (x : Handle) (r : Resource) (hcount : 0 < r.shareCount) :
      Change d (.disown k x) x r (disowned r)
  | retyped (array implicit x : Handle) (r a : Resource) (type : Int)
      (hlive : d.live? array = some a) (hx : x = array ∨ x ∈ a.memberHandles) :
      Change d (.resetImplicit array implicit) x r { r with typeCode := type }
  | filled (store : Handle) (name : Option String) (item : Item) (r : Resource)
      (halive : r.alive) :
      Change d (.add store name item) store r (filled item.children ⟨name, item⟩ r)

/-- A resource stays what it is. -/
theorem Change.kind {c : Call} {r' : Resource} (h : Change d c x r r') : r'.kind = r.kind := by
  cases h <;> rfl

/-- The resource stayed as it was or was released. -/
def Fades (r r' : Resource) : Prop := r' = r ∨ ∃ children, r' = { r with alive := false, children }

/-- What fades twice has faded. -/
theorem Fades.trans {r r' r'' : Resource} (h : Fades r r') (h' : Fades r' r'') : Fades r r'' := by
  obtain rfl | ⟨children, rfl⟩ := h
  · exact h'
  · obtain rfl | ⟨children', rfl⟩ := h'
    · exact .inr ⟨children, rfl⟩
    · exact .inr ⟨children', rfl⟩

/-- A burial makes resources fade at most. -/
theorem bury_found (d : Depot) (h : Handle) (buried : Resource) (hr : d.find? x = some r) :
    ∃ r', (d.bury h buried).find? x = some r' ∧ Fades r r' := by
  have hfound := find?_bury d h buried x
  rw [hr, Option.map_some] at hfound
  refine ⟨_, hfound, ?_⟩
  by_cases hspared : x ≠ h ∧ x ∉ buried.memberHandles
  · exact .inl (by simp [hspared.1, hspared.2])
  · exact .inr ⟨if x = h then [] else r.children, by simp [hspared]⟩

/-- A sweep releases, and does nothing else. -/
theorem sweep_found (fuel : Nat) (queue : List Handle) (d : Depot) (hr : d.find? x = some r) :
    ∃ r', (sweep fuel queue d).find? x = some r' ∧ Fades r r' := by
  induction fuel generalizing queue d r with
  | zero => exact ⟨r, by simpa [sweep] using hr, .inl rfl⟩
  | succ fuel ih =>
    cases queue with
    | nil => exact ⟨r, by simpa [sweep] using hr, .inl rfl⟩
    | cons h queue =>
      unfold sweep
      cases d.live? h with
      | none => exact ih queue _ ((find?_use d _ h x).trans hr)
      | some buried =>
        obtain ⟨r', hr', hfades⟩ := bury_found d h buried hr
        obtain ⟨r'', hr'', hfades'⟩ := ih (buried.children ++ queue) _ hr'
        exact ⟨r'', hr'', hfades.trans hfades'⟩

/-- A release makes resources fade at most, whatever hangs on the one that is released. -/
theorem retire_found (d : Depot) (operation : String) (h : Handle) (hr : d.find? x = some r) :
    ∃ r', (d.retire operation h).find? x = some r' ∧ Fades r r' := by
  unfold retire
  cases d.live? h with
  | none => exact ⟨r, (find?_use d _ h x).trans hr, .inl rfl⟩
  | some buried =>
    obtain ⟨r', hr', hfades⟩ := bury_found d h buried hr
    obtain ⟨r'', hr'', hfades'⟩ := sweep_found (d.childCount + 1) buried.children _ hr'
    exact ⟨r'', hr'', hfades.trans hfades'⟩

/-- Another element type is seen in the array and in its implicit value. -/
theorem find?_retype {a : Resource} (ha : d.find? h = some a) (type : Int) (x : Handle) :
    (d.retype h type).find? x = (d.find? x).map fun r =>
      if x = h ∨ some x = a.members.map Prod.fst then { r with typeCode := type } else r := by
  have hone : ∀ (d : Depot) (y : Handle),
      (d.modify y fun r => { r with typeCode := type }).find? x =
        (d.find? x).map fun r => if x = y then { r with typeCode := type } else r := fun d y => by
    rw [find?_modify]
    by_cases hx : x = y <;> simp [hx]
  simp only [retype, ha]
  cases hmembers : a.members with
  | none => simp [hone]
  | some p =>
    simp only [hone, Option.map_map, Option.map_some, Option.some.injEq]
    refine congrArg (fun f => Option.map f (d.find? x)) (funext fun r => ?_)
    by_cases hx : x = h
    · simp [hx, Function.comp]
    · simp only [Function.comp, hx, ↓reduceIte, false_or]

/-- Another element type is given to the array and to its tensors, and to nothing else. -/
theorem retype_found {a : Resource} (ha : d.find? h = some a) (type : Int)
    (hr : d.find? x = some r) :
    ∃ r', (d.retype h type).find? x = some r' ∧
      (r' = r ∨ (r' = { r with typeCode := type } ∧ (x = h ∨ x ∈ a.memberHandles))) := by
  refine ⟨_, (find?_retype ha type x).trans (congrArg _ hr), ?_⟩
  split
  · next hx =>
    refine .inr ⟨rfl, hx.imp id fun hinner => ?_⟩
    obtain ⟨p, hmembers, rfl⟩ := Option.map_eq_some_iff.mp hinner.symm
    simp [Resource.memberHandles, hmembers]
  · exact .inl rfl

/-- What is made anew is given another element type unseen by what was there. -/
theorem Replica.preserves_retype {made : Handle × Depot} (hm : Replica d r made) (type : Int) :
    d.Preserves (made.2.retype made.1 type) := by
  obtain ⟨r', hr', -, -, -, -, -, -, -, hmembers⟩ := hm.found
  intro x rx hx
  obtain ⟨rx', hrx', rfl | ⟨-, hin⟩⟩ := retype_found hr' type (hm.preserves x rx hx)
  · exact hrx'
  · rcases hin with rfl | hin
    · simp [hm.fresh] at hx
    · simp [hmembers x hin] at hx

/-- The array whose implicit value is changed is there, or it is a replica. -/
theorem target_cases (hd : d.WellFormed) (array : Handle) :
    (∃ code, (d.target array).1 = .error code ∧ d.Preserves (d.target array).2) ∨
      (∃ a, d.live? array = some a ∧ d.target array = (.ok array, d)) ∨
      ∃ a copy, d.live? array = some a ∧ (d.target array).1 = .ok copy ∧
        Replica d a (copy, (d.target array).2) := by
  unfold target
  split
  · cases hlive : d.live? array with
    | none => exact .inl ⟨_, rfl, .of_resources_eq (d.use_resources _ array)⟩
    | some a => exact .inr (.inl ⟨a, rfl, rfl⟩)
  · rcases copied_cases hd "reset_implicit_value" array with hrefused | hcopied
    · exact .inl hrefused
    · exact .inr (.inr hcopied)

/-- A change of the implicit value changes resources only as the call is allowed to. -/
theorem resetImplicit_changes (hd : d.WellFormed) (array implicit : Handle)
    (hr : d.find? x = some r) :
    ∃ r', (d.resetImplicit array implicit).2.find? x = some r' ∧
      Change d (.resetImplicit array implicit) x r r' := by
  rw [resetImplicit_eq]
  have hsame : ∀ {d' : Depot}, d.Preserves d' → ∃ r', d'.find? x = some r' ∧
      Change d (.resetImplicit array implicit) x r r' :=
    fun h => ⟨r, h x r hr, .same _ _ _⟩
  split
  · -- Without a new value at most a copy is made.
    rcases target_cases hd array with ⟨_, _, hpreserves⟩ | ⟨_, _, htarget⟩ |
      ⟨_, _, _, _, hcopy⟩
    · exact hsame hpreserves
    · rw [htarget]
      exact hsame (.refl d)
    · exact hsame hcopy.preserves
  · cases d.live? implicit with
    | none => exact hsame (.of_resources_eq (d.use_resources _ implicit))
    | some t =>
      dsimp only
      rcases target_cases hd array with ⟨code, hcode, hpreserves⟩ | ⟨a, hlive, htarget⟩ |
        ⟨_, copy, _, hcopy, hreplica⟩
      · generalize d.target array = found at hcode hpreserves ⊢
        obtain ⟨_, d'⟩ := found
        obtain rfl := hcode
        exact hsame hpreserves
      · rw [htarget]
        obtain ⟨r', hr', rfl | ⟨rfl, hx⟩⟩ :=
          retype_found (live?_eq_some_iff.mp hlive).1 t.typeCode hr
        · exact ⟨r', hr', .same _ _ _⟩
        · exact ⟨_, hr', .retyped array implicit x r a t.typeCode hlive hx⟩
      · generalize d.target array = found at hcopy hreplica ⊢
        obtain ⟨_, d'⟩ := found
        obtain rfl := hcopy
        exact hsame (hreplica.preserves_retype t.typeCode)

/-- An addition to a live store is carried out, if what is added is alive. -/
theorem answer_add_filled {store : Handle} (hlive : d.live? store = some r)
    (name : Option String) (item : Item) (hitem : ∀ h ∈ item.children, d.isAlive h) :
    (d.answer (.add store name item)).2 =
      d.modify store (filled item.children ⟨name, item⟩) := by
  cases item with
  | plain value => exact postTo_eq hlive [] _
  | container k child =>
    obtain ⟨rc, hrc⟩ := Option.isSome_iff_exists.mp (hitem child (List.mem_singleton_self child))
    have hpost : (d.answer (.add store name (.container k child))).2 =
        d.postTo store [child] ⟨name, .container k child⟩ := by
      simp only [answer, post, hrc]
    exact hpost.trans (postTo_eq hlive [child] _)

/-- An addition that is not carried out changes nothing. -/
theorem answer_add_resources {store : Handle} (name : Option String) (item : Item)
    (hnot : d.live? store = none ∨ ∃ h ∈ item.children, d.isAlive h = false) :
    (d.answer (.add store name item)).2.resources = d.resources := by
  have hpostTo : ∀ held p, d.live? store = none → (d.postTo store held p).resources = d.resources :=
    fun held p hdead => by simp [postTo, hdead]
  cases item with
  | plain value => exact hpostTo _ _ (by simpa [Item.children] using hnot)
  | container k child =>
    simp only [answer, post]
    cases hchild : d.live? child with
    | none => exact d.use_resources _ _
    | some rc =>
      refine hpostTo _ _ (hnot.resolve_right ?_)
      simp [Item.children, isAlive, hchild]

/-- An addition is carried out or changes nothing, and it is carried out only in a live store. -/
theorem answer_add_done (d : Depot) (store : Handle) (name : Option String) (item : Item) :
    (d.answer (.add store name item)).2.resources = d.resources ∨
      ((∃ r, d.live? store = some r) ∧
        (d.answer (.add store name item)).2 =
          d.modify store (filled item.children ⟨name, item⟩)) := by
  cases hlive : d.live? store with
  | none => exact .inl (answer_add_resources name item (.inl hlive))
  | some r =>
    by_cases hitem : ∀ h ∈ item.children, d.isAlive h
    · exact .inr ⟨⟨r, rfl⟩, answer_add_filled hlive name item hitem⟩
    · obtain ⟨h, hh, hdead⟩ : ∃ h ∈ item.children, ¬ d.isAlive h := by
        simpa only [not_forall, exists_prop] using hitem
      exact .inl (answer_add_resources name item (.inr ⟨h, hh, by simpa using hdead⟩))

/-- What is modified in one place changes there only. -/
theorem modify_changes {c : Call} {rh : Resource} {f : Resource → Resource}
    (hlive : d.live? h = some rh) (hchange : Change d c h rh (f rh)) (hr : d.find? x = some r) :
    ∃ r', (d.modify h f).find? x = some r' ∧ Change d c x r r' := by
  refine ⟨_, find?_modify_eq_some.mpr ⟨r, hr, rfl⟩, ?_⟩
  by_cases hx : x = h
  · subst hx
    obtain rfl : r = rh := Option.some.inj (hr.symm.trans (live?_eq_some_iff.mp hlive).1)
    rwa [if_pos rfl]
  · rw [if_neg hx]
    exact .same c x r

/-- **A call changes a resource in no other ways.** -/
theorem answer_changes (hd : d.WellFormed) (c : Call) (hr : d.find? x = some r) :
    ∃ r', (d.answer c).2.find? x = some r' ∧ Change d c x r r' := by
  have hsame : d.Preserves (d.answer c).2 → ∃ r', (d.answer c).2.find? x = some r' ∧
      Change d c x r r' := fun h => ⟨r, h x r hr, .same _ _ _⟩
  cases c with
  | free k h =>
    obtain ⟨r', hr', rfl | ⟨children, rfl⟩⟩ := retire_found d (Entry.free k).function h hr
    · exact ⟨r', hr', .same _ _ _⟩
    · exact ⟨_, hr', .released k h x r children⟩
  | disown k h =>
    simp only [answer, disown]
    cases hlive : d.live? h with
    | none => exact ⟨r, (find?_use d _ h x).trans hr, .same _ _ _⟩
    | some rh =>
      dsimp only
      split
      · next hcount => exact modify_changes hlive (.disowned k h rh hcount) hr
      · exact ⟨r, hr, .same _ _ _⟩
  | add store name item =>
    -- An addition that is not carried out is at most noted.
    rcases answer_add_done d store name item with hunchanged | ⟨⟨rs, hlive⟩, hdone⟩
    · exact hsame (.of_resources_eq hunchanged)
    · rw [hdone]
      exact modify_changes hlive (.filled store name item rs (live?_eq_some_iff.mp hlive).2) hr
  | resetImplicit array implicit => exact resetImplicit_changes hd array implicit hr
  | _ => exact hsame (answer_preserves hd rfl rfl fun _ _ h => by cases h)

end Depot

end Custody
