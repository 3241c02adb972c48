import Custody.Proofs.Depot.Changes

namespace Custody.Depot

/-!
# Arrays have the type of their implicit value

A depot keeps the element type of a sparse array twice, with the array and with its implicit
value.  The library reads the one, and a copy is made with the other, so they have to agree.

* `Depot.Uniform` -- in live arrays they do;
* `uniform_alloc`, `uniform_modify`, `uniform_retype`, `uniform_retire` -- elementary changes;
* `Depot.answer_uniform` -- **no call makes them differ**.
-/

variable {claims : Handle → Nat} {d d' : Depot} {h x : Handle} {r : Resource}

/-- Live arrays have tensors inside, and the type of their implicit value. -/
def Uniform (d : Depot) : Prop :=
  ∀ x r, d.find? x = some r → r.alive → r.kind = .sparseArray →
    ∃ implicit explicit t, r.members = some (implicit, explicit) ∧
      d.find? implicit = some t ∧ t.typeCode = r.typeCode

/-- Whether a depot is uniform depends on the resources alone. -/
theorem Uniform.of_resources_eq (hu : d.Uniform) (h : d'.resources = d.resources) :
    d'.Uniform := by
  intro x r hr halive hkind
  rw [find?_of_resources_eq h] at hr
  obtain ⟨implicit, explicit, t, hmembers, ht, htype⟩ := hu x r hr halive hkind
  exact ⟨implicit, explicit, t, hmembers, (find?_of_resources_eq h implicit).trans ht, htype⟩

/-- The tensors inside an array are held by it. -/
theorem contains_implicit {implicit explicit : Handle} (hr : d.find? x = some r) (halive : r.alive)
    (hmembers : r.members = some (implicit, explicit)) : d.Contains x implicit :=
  ⟨r, hr, by simp [Resource.contents, halive, Resource.memberHandles, hmembers]⟩

/-! ### Elementary changes -/

/-- A new resource is no array, or an array with a matching tensor inside. -/
theorem uniform_alloc (hu : d.Uniform)
    (hr : r.kind = .sparseArray → ∃ implicit explicit t, r.members = some (implicit, explicit) ∧
      d.find? implicit = some t ∧ t.typeCode = r.typeCode) : (d.alloc r).2.Uniform := by
  have hkept := preserves_alloc d r
  intro x rx hx halive hkind
  rw [find?_alloc] at hx
  have hold : ∃ implicit explicit t, rx.members = some (implicit, explicit) ∧
      d.find? implicit = some t ∧ t.typeCode = rx.typeCode := by
    split at hx
    · obtain rfl := Option.some.inj hx
      exact hr hkind
    · exact hu x rx hx halive hkind
  obtain ⟨implicit, explicit, t, hmembers, ht, htype⟩ := hold
  exact ⟨implicit, explicit, t, hmembers, hkept implicit t ht, htype⟩

/-- A new sparse array has the type of the tensors that are made for it. -/
theorem uniform_allocSparse (hu : d.Uniform) (typeCode : Int) (dims : List Int) :
    (d.allocSparse typeCode dims).2.Uniform := by
  let one : Resource := { kind := .tensor, typeCode, dims := [] }
  let two : Resource := { kind := .tensor, typeCode, dims := [1] }
  have hone := uniform_alloc (r := one) hu nofun
  have htwo := uniform_alloc (r := two) hone nofun
  exact uniform_alloc htwo fun _ => ⟨_, _, one, rfl,
    preserves_alloc (d.alloc one).2 two _ _ (find?_alloc_self d one), rfl⟩

/-- A change that concerns neither life nor kind nor type nor members leaves the types alone. -/
theorem uniform_modify (hu : d.Uniform) {f : Resource → Resource}
    (hf : ∀ r, (f r).alive = r.alive ∧ (f r).kind = r.kind ∧ (f r).typeCode = r.typeCode ∧
      (f r).members = r.members) (h : Handle) : (d.modify h f).Uniform := by
  intro x rx hx halive hkind
  obtain ⟨r, hr, rfl⟩ := find?_modify_eq_some.mp hx
  have hsame : ∀ y (r : Resource), (if y = h then f r else r).alive = r.alive ∧
      (if y = h then f r else r).kind = r.kind ∧
      (if y = h then f r else r).typeCode = r.typeCode ∧
      (if y = h then f r else r).members = r.members := fun y r => by
    split
    · exact hf r
    · exact ⟨rfl, rfl, rfl, rfl⟩
  obtain ⟨ha, hk, ht, hm⟩ := hsame x r
  obtain ⟨implicit, explicit, t, hmembers, hfound, htype⟩ :=
    hu x r hr (ha ▸ halive) (hk.symm.trans hkind)
  refine ⟨implicit, explicit, _, hm.trans hmembers, find?_modify_eq_some.mpr ⟨t, hfound, rfl⟩, ?_⟩
  exact (hsame implicit t).2.2.1.trans (htype.trans ht.symm)

/-- What no array holds can get another type, if it is no array itself. -/
theorem uniform_modify_loose (hu : d.Uniform) (hgrip : d.grip h = 0)
    (hkind : ∀ r, d.find? h = some r → r.kind ≠ .sparseArray) {f : Resource → Resource}
    (hf : ∀ r, (f r).kind = r.kind) : (d.modify h f).Uniform := by
  intro x rx hx halive hkind'
  obtain ⟨r, hr, rfl⟩ := find?_modify_eq_some.mp hx
  have hother : x ≠ h := by
    rintro rfl
    simp only [↓reduceIte, hf] at hkind'
    exact hkind r hr hkind'
  simp only [hother, ↓reduceIte] at halive hkind' ⊢
  obtain ⟨implicit, explicit, t, hmembers, hfound, htype⟩ := hu x r hr halive hkind'
  have hloose : implicit ≠ h := by
    rintro rfl
    exact grip_eq_zero_iff.mp hgrip x (contains_implicit hr halive hmembers)
  refine ⟨implicit, explicit, t, hmembers, ?_, htype⟩
  exact find?_modify_eq_some.mpr ⟨t, hfound, by simp [hloose]⟩

/-- The array and its implicit value get the same type. -/
theorem uniform_retype (hd : d.Tidy claims) (hu : d.Uniform) {a : Resource}
    (hlive : d.live? h = some a) (hkind : a.kind = .sparseArray) (type : Int) :
    (d.retype h type).Uniform := by
  obtain ⟨ha, halive⟩ := live?_eq_some_iff.mp hlive
  obtain ⟨i, e, t, hmembers, ht, -⟩ := hu h a ha halive hkind
  have hfind : ∀ x, (d.retype h type).find? x =
      (d.find? x).map fun r => if x = h ∨ x = i then { r with typeCode := type } else r := by
    intro x
    rw [find?_retype ha, hmembers]
    simp
  -- What is inside an array is a tensor, and so it is no array.
  have hne : ∀ {x y j e : Handle} {r s : Resource}, d.find? x = some r →
      r.members = some (j, e) → d.find? y = some s → s.kind = .sparseArray → y ≠ j := by
    rintro x y j e r s hr hin hs hk rfl
    obtain ⟨s', hs', hk'⟩ := hd.tensors x r hr y (by simp [Resource.memberHandles, hin])
    obtain rfl : s = s' := Option.some.inj (hs.symm.trans hs')
    simp [hk'] at hk
  intro x rx hx hxalive hxkind
  rw [hfind] at hx
  obtain ⟨r, hr, rfl⟩ := Option.map_eq_some_iff.mp hx
  have hsame : (if x = h ∨ x = i then { r with typeCode := type } else r) =
      { r with typeCode := if x = h ∨ x = i then type else r.typeCode } := by
    split <;> rfl
  rw [hsame] at hxalive hxkind ⊢
  obtain ⟨j, e', s, hmembers', hs, htype⟩ := hu x r hr hxalive hxkind
  refine ⟨j, e', _, hmembers', (hfind j).trans (congrArg (Option.map _) hs), ?_⟩
  have hjh : j ≠ h := (hne hr hmembers' ha hkind).symm
  have hxi : x ≠ i := hne ha hmembers hr hxkind
  -- Another array has another implicit value, for nothing is held twice.
  have hji : j = i ↔ x = h := by
    constructor
    · rintro rfl
      have hunique := hd.unique j
      exact eq_of_contains (by omega) (contains_implicit hr hxalive hmembers')
        (contains_implicit ha halive hmembers)
    · rintro rfl
      obtain rfl : r = a := Option.some.inj (hr.symm.trans ha)
      exact congrArg Prod.fst (Option.some.inj (hmembers'.symm.trans hmembers))
  by_cases hxh : x = h
  · simp [hxh, hji.mpr hxh]
  · simp [hxh, hxi, hjh, mt hji.mp hxh, htype]

/-! ### Releasing -/

/-- What is dead has a type still. -/
theorem uniform_bury (hu : d.Uniform) (h : Handle) (buried : Resource) :
    (d.bury h buried).Uniform := by
  intro x r' hr' halive hkind
  rw [find?_bury] at hr'
  obtain ⟨r, hr, rfl⟩ := Option.map_eq_some_iff.mp hr'
  simp only [Bool.and_eq_true] at halive
  obtain ⟨i, e, t, hmembers, ht, htype⟩ := hu x r hr halive.1 hkind
  exact ⟨i, e, _, hmembers, (find?_bury d h buried i).trans (congrArg (Option.map _) ht), htype⟩

/-- A sweep leaves the types as they are. -/
theorem uniform_sweep (hu : d.Uniform) (fuel : Nat) (queue : List Handle) :
    (sweep fuel queue d).Uniform := by
  induction fuel generalizing queue d with
  | zero => simpa only [sweep] using hu
  | succ fuel ih =>
    cases queue with
    | nil => simpa only [sweep] using hu
    | cons h queue =>
      unfold sweep
      cases d.live? h with
      | none => exact ih (hu.of_resources_eq (d.use_resources _ h)) queue
      | some r => exact ih (uniform_bury hu h r) (r.children ++ queue)

/-- A release leaves the types as they are. -/
theorem uniform_retire (hu : d.Uniform) (operation : String) (h : Handle) :
    (d.retire operation h).Uniform := by
  unfold retire
  cases d.live? h with
  | none => exact hu.of_resources_eq (d.use_resources _ h)
  | some r => exact uniform_sweep (uniform_bury hu h r) (d.childCount + 1) r.children

/-! ### Calls -/

/-- Copying what a resource holds leaves a depot uniform as long as each single copy does. -/
theorem copyEach_uniform {operation : String} {fuel : Nat}
    (hcopy : ∀ (h : Handle) (d : Depot), d.Uniform → (duplicateTo operation fuel h d).2.Uniform)
    (children : List Handle) (hu : d.Uniform) :
    (copyEach operation fuel children d).2.Uniform := by
  induction children generalizing d with
  | nil => exact hu
  | cons child rest ih => exact ih (hcopy child d hu)

/-- A copy of an array is made with the type of the array for its implicit value too. -/
theorem duplicateTo_uniform (operation : String) (fuel : Nat) (h : Handle) (d : Depot)
    (hu : d.Uniform) : (duplicateTo operation fuel h d).2.Uniform := by
  induction fuel generalizing h d with
  | zero => exact hu
  | succ fuel ih =>
    rw [duplicateTo_succ]
    cases d.live? h with
    | none => exact hu.of_resources_eq (d.use_resources operation h)
    | some r =>
      by_cases hsparse : r.kind = .sparseArray
      · simp only [hsparse, ↓reduceIte]
        exact uniform_allocSparse hu _ _
      · simp only [hsparse, ↓reduceIte]
        exact uniform_alloc (copyEach_uniform ih r.children hu) fun h => absurd h hsparse

/-- A copy of an array has the types of its source. -/
theorem copied_uniform (hu : d.Uniform) (operation : String) (source : Handle) :
    (d.copied operation source).2.Uniform := by
  have hcopy := duplicateTo_uniform operation (d.resources.length + 1) source d hu
  unfold copied duplicate
  generalize duplicateTo operation (d.resources.length + 1) source d = made at hcopy ⊢
  obtain ⟨_ | copy, d'⟩ := made <;> exact hcopy

/-- A resource that is no array leaves a depot uniform. -/
theorem create_uniform (hu : d.Uniform) (hr : r.kind ≠ .sparseArray) :
    (d.create r).2.Uniform := by
  unfold create
  split
  · exact hu.of_resources_eq rfl
  · exact uniform_alloc hu fun h => absurd h hr

/-- What is converted is no array, and its copy is held by none. -/
theorem convert_uniform (hd : d.Tidy claims) (hu : d.Uniform) {source : Handle} {k : Kind}
    (hsource : ∀ r, d.find? source = some r → r.kind = k) (hk : k ≠ .sparseArray)
    {change : Resource → Resource} (hchange : ∀ r, (change r).kind = r.kind) :
    (d.convert source change).2.Uniform := by
  unfold convert
  split
  · exact hu.of_resources_eq rfl
  · have hgrants := copied_grants hd (by decide : releasing.contains "convert" = false) hsource
      (.inl rfl : Handle.null = .null ∨ Handle.null = source)
    have hcopied := copied_uniform hu "convert" source
    generalize d.copied "convert" source = made at hgrants hcopied ⊢
    obtain ⟨code | copy, d'⟩ := made
    · exact hcopied
    · obtain ⟨hnull, hmakes⟩ := hgrants
      have hmakes := (hmakes.resolve_left fun h => hnull h.1).2
      -- The copy is claimed, so no array holds it, and its type may change alone.
      have hunique := hmakes.tidy.unique copy
      simp only [List.count_singleton_self] at hunique
      refine uniform_modify_loose hcopied (show d'.grip copy = 0 by omega) (fun r hr => ?_) hchange
      obtain ⟨r', hr', hkind⟩ := hmakes.kind
      obtain rfl : r = r' := Option.some.inj (hr.symm.trans hr')
      exact hkind ▸ hk

/-- An array that is made has matching types, or the call was refused. -/
theorem createSparse_uniform (hu : d.Uniform) (operation : String) (source : Handle)
    (dims : List Int) (implicit : Handle) :
    (d.createSparse operation source dims implicit).2.Uniform := by
  rw [createSparse_eq]
  split
  · exact hu.of_resources_eq rfl
  · split
    · exact hu.of_resources_eq (d.use_resources operation source)
    · exact hu.of_resources_eq (d.use_resources operation implicit)
    · exact uniform_allocSparse hu _ dims

/-- **A change of the implicit value** changes the type of the array with it. -/
theorem resetImplicit_uniform (hd : d.Tidy claims) (hu : d.Uniform) {array : Handle}
    (harray : ∀ r, d.find? array = some r → r.kind = .sparseArray) (implicit : Handle) :
    (d.resetImplicit array implicit).2.Uniform := by
  have htarget : (d.target array).2.Uniform := by
    unfold target
    split
    · cases d.live? array with
      | none => exact hu.of_resources_eq (d.use_resources _ array)
      | some r => exact hu
    · exact copied_uniform hu _ array
  rw [resetImplicit_eq]
  split
  · exact htarget
  · cases d.live? implicit with
    | none => exact hu.of_resources_eq (d.use_resources _ implicit)
    | some t =>
      dsimp only
      have hgrants := target_grants hd harray
      -- The call was refused, or the array itself is retyped, or the copy that is made of it.
      rcases target_cases hd.toWellFormed array with ⟨code, hcode, _⟩ | ⟨a, hlive, hsame⟩ |
        ⟨a, copy, hlive, hcopy, hreplica⟩
      · generalize d.target array = found at hcode htarget ⊢
        obtain ⟨_, d'⟩ := found
        obtain rfl := hcode
        exact htarget
      · rw [hsame]
        exact uniform_retype hd hu hlive (harray a (live?_eq_some_iff.mp hlive).1) t.typeCode
      · obtain ⟨r', hr', halive, hkind, -⟩ := hreplica.found
        have hother : copy ≠ array := fun h => by
          simp [← h, hreplica.fresh, live?] at hlive
        generalize d.target array = found at hcopy hgrants htarget hr' ⊢
        obtain ⟨_, d'⟩ := found
        obtain rfl := hcopy
        have hmakes := (hgrants.2.resolve_left fun h => hother h.1).2
        exact uniform_retype hmakes.tidy htarget (live?_eq_some_iff.mpr ⟨hr', halive⟩)
          (hkind.trans (harray a (live?_eq_some_iff.mp hlive).1)) t.typeCode

/-- A tensor that is computed leaves the arrays alone. -/
theorem compute_uniform (hu : d.Uniform) (operation : String) (array : Handle)
    {tensor : Resource → Resource} (htensor : ∀ r, (tensor r).kind = .tensor) :
    (d.compute operation array tensor).2.Uniform := by
  unfold compute
  split
  · exact hu.of_resources_eq (d.use_resources operation array)
  · exact uniform_alloc hu fun h => by simp [htensor] at h

/-- **No call makes an array and its implicit value differ in type.** -/
theorem answer_uniform (hd : d.Tidy claims) (hu : d.Uniform) {c : Call}
    (hsource : ∀ k h r, c.source? = some (k, h) → d.find? h = some r → r.kind = k) :
    (d.answer c).2.Uniform := by
  have hkind : ∀ {k h}, c.source? = some (k, h) → ∀ r, d.find? h = some r → r.kind = k :=
    fun hs r hr => hsource _ _ r hs hr
  cases c with
  | newTensor | newNumericArray | newFlatImage | newSlicedImage | createStore =>
    exact create_uniform hu nofun
  | clone k source =>
    show (d.clone source).2.Uniform
    unfold clone
    split
    · exact hu.of_resources_eq rfl
    · exact copied_uniform hu "clone" source
  | convertNumericArray source type method tolerance =>
    exact convert_uniform hd hu (hkind rfl) nofun fun _ => rfl
  | convertImage source type interleaved =>
    exact convert_uniform hd hu (hkind rfl) nofun fun _ => rfl
  | sparseFromTensor data implicit =>
    exact createSparse_uniform (hu.of_resources_eq (peek_resources d _ data [] _)) _ data _ implicit
  | sparseFromPositions positions values extent implicit =>
    exact createSparse_uniform (hu.of_resources_eq (peek_resources d _ extent 0 _)) _ values _
      implicit
  | resetImplicit array implicit => exact resetImplicit_uniform hd hu (hkind rfl) implicit
  | explicitPositions array | toTensor array => exact compute_uniform hu _ array fun _ => rfl
  | read k q h => exact hu.of_resources_eq (peek_resources d _ h _ _)
  | dimensions k h => exact hu.of_resources_eq (peek_resources d _ h _ _)
  | member m h => exact hu.of_resources_eq (peek_resources d _ h _ _)
  -- What is released keeps its type, so arrays still match the tensors inside them.
  | free k h => exact uniform_retire hu _ h
  | disown k h =>
    show (d.disown h).Uniform
    unfold disown
    split
    · exact hu.of_resources_eq (d.use_resources _ h)
    · split
      · exact uniform_modify (f := disowned) hu (fun _ => ⟨rfl, rfl, rfl, rfl⟩) h
      · exact hu.of_resources_eq rfl
  | add store name item =>
    rcases answer_add_done d store name item with hsame | ⟨-, hdone⟩
    · exact hu.of_resources_eq hsame
    · rw [hdone]
      exact uniform_modify (f := filled item.children ⟨name, item⟩) hu
        (fun _ => ⟨rfl, rfl, rfl, rfl⟩) store

end Custody.Depot
