import Custody.Proofs.Depot.Copying
import Custody.Proofs.Hands

namespace Custody.Depot

/-!
# What is made is claimed

The calls that make a resource leave a tidy depot tidy: either nothing has changed, or there is
one resource more, of the kind that was asked for, and the answer grants it.

* `Depot.Yields` -- nothing was made, or a resource that is granted;
* `Depot.answer_yields` -- **what a call makes comes into the hands of the caller**.
-/

variable {claims : Handle → Nat} {d : Depot}

/-- The call ended with a status or with the handle that stood in the slot before, and nothing
    has changed; or it ended with a resource of kind `k` that was made. -/
def Grants (claims : Handle → Nat) (k : Kind) (slot : Handle) (d : Depot)
    (made : Except Int Handle × Depot) : Prop :=
  match made.1 with
  | .error _ => d.Alike made.2
  | .ok h => h ≠ .null ∧ ((h = slot ∧ d.Alike made.2) ∨ (h ≠ slot ∧ Makes claims k d (h, made.2)))

variable {k : Kind} {slot : Handle}

/-- What is made stands under a handle that is not null. -/
theorem Makes.ne_null {made : Handle × Depot} (h : Makes claims k d made) : made.1 ≠ .null := by
  obtain ⟨r, hr, -⟩ := h.kind
  exact ne_null_of_find? hr

/-- A new resource is granted where nothing stood in the slot before. -/
theorem Makes.grants {h : Handle} {d' : Depot} (hmakes : Makes claims k d (h, d')) :
    Grants claims k .null d (.ok h, d') := ⟨hmakes.ne_null, .inr ⟨hmakes.ne_null, hmakes⟩⟩

/-- A call is granted after a step by which nothing changed hands as it is without it. -/
theorem Alike.grants {d' : Depot} {made : Except Int Handle × Depot} (h : d.Alike d')
    (h' : Grants claims k slot d' made) : Grants claims k slot d made := by
  unfold Grants at h' ⊢
  split at h'
  · exact h.trans h'
  · exact h'.imp id (.imp (.imp id h.trans) (.imp id h.makes))

/-! ### One call after the other -/

/-- Depots with the same resources and violations are alike. -/
theorem alike_of_eq {d' : Depot} (hresources : d'.resources = d.resources)
    (hviolations : d'.violations = d.violations) : d.Alike d' :=
  .of_resources_eq hresources (by rw [misreleases, hviolations, misreleases])

/-- A resource without contents is made and granted. -/
theorem create_grants (hd : d.Tidy claims) {r : Resource} (hr : r.alive)
    (hmembers : r.members = none) (hchildren : r.children = []) :
    Grants claims r.kind .null d (d.create r) := by
  unfold create
  split
  · exact alike_of_eq rfl rfl
  · exact (alloc_makes hd hr hmembers hchildren).grants

/-- A copy is granted, unless the slot held its source, or nothing has changed. -/
theorem copied_grants (hd : d.Tidy claims) {operation : String}
    (hop : releasing.contains operation = false) {source : Handle}
    (hkind : ∀ r, d.find? source = some r → r.kind = k) (hslot : slot = .null ∨ slot = source) :
    Grants claims k slot d (d.copied operation source) := by
  have h := duplicateTo_makesLike hop (d.resources.length + 1) claims source d hd
  unfold copied duplicate
  generalize duplicateTo operation (d.resources.length + 1) source d = made at h ⊢
  obtain ⟨_ | copy, d'⟩ := made
  · exact h
  · obtain ⟨r, hfound, hmakes⟩ := h
    -- The source was there before the copy, so they differ.
    have hother : copy ≠ source := fun heq => by simp [← heq, hmakes.fresh] at hfound
    refine ⟨hmakes.ne_null, .inr ⟨?_, hkind r hfound ▸ hmakes⟩⟩
    rcases hslot with rfl | rfl
    · exact hmakes.ne_null
    · exact hother

/-- A clone is granted, or nothing has changed. -/
theorem clone_grants (hd : d.Tidy claims) {source : Handle}
    (hkind : ∀ r, d.find? source = some r → r.kind = k) :
    Grants claims k .null d (d.clone source) := by
  unfold clone
  split
  · exact alike_of_eq rfl rfl
  · exact copied_grants hd (by decide) hkind (.inl rfl)

/-- A conversion is granted, or nothing has changed: it changes its copy only on the surface. -/
theorem convert_grants (hd : d.Tidy claims) {source : Handle}
    (hkind : ∀ r, d.find? source = some r → r.kind = k) {change : Resource → Resource}
    (hchange : Superficial change) (hcount : ∀ r, (change r).shareCount = r.shareCount) :
    Grants claims k .null d (d.convert source change) := by
  unfold convert
  split
  · exact alike_of_eq rfl rfl
  · have h : Grants claims k .null d (d.copied "convert" source) :=
      copied_grants hd (by decide) hkind (.inl rfl)
    generalize d.copied "convert" source = made at h ⊢
    obtain ⟨code | copy, d'⟩ := made
    · exact h
    · obtain ⟨hnull, hmakes⟩ := h
      -- Nothing stood in the slot, so what is there now was made, and it is changed after that.
      have hmakes := (hmakes.resolve_left fun h => hnull h.1).2
      exact (hmakes.after (.modify hchange hcount _ _)).grants

/-- A sparse array is granted, or nothing has changed. -/
theorem createSparse_grants (hd : d.Tidy claims) {operation : String}
    (hop : releasing.contains operation = false) (source : Handle) (dims : List Int)
    (implicit : Handle) :
    Grants claims .sparseArray .null d (d.createSparse operation source dims implicit) := by
  rw [createSparse_eq]
  split
  · exact alike_of_eq rfl rfl
  · split
    · exact .use hop d source
    · exact .use hop d implicit
    · exact (allocSparse_makes hd _ dims).grants

/-- The array whose implicit value is to change is the one in the slot, or a copy of it where it is
    shared. -/
theorem target_grants (hd : d.Tidy claims) {array : Handle}
    (hkind : ∀ r, d.find? array = some r → r.kind = .sparseArray) :
    Grants claims .sparseArray array d (d.target array) := by
  unfold target
  split
  · split
    · exact .use (by decide) d array
    · next hlive => exact ⟨ne_null_of_live? hlive, .inl ⟨rfl, .refl d⟩⟩
  · exact copied_grants hd (by decide) hkind (.inr rfl)

/-- Another element type is a superficial change. -/
theorem alike_retype (d : Depot) (h : Handle) (type : Int) : d.Alike (d.retype h type) := by
  have hmodify : ∀ (d : Depot) (h : Handle),
      d.Alike (d.modify h fun r => { r with typeCode := type }) := fun d h => by
    refine .modify ?_ ?_ d h
    · exact fun _ => ⟨rfl, rfl, rfl, rfl⟩
    · exact fun _ => rfl
  unfold retype
  split
  · exact .refl d
  · dsimp only
    split
    · exact hmodify d h
    · exact (hmodify d h).trans (hmodify _ _)

/-- A change of the implicit value ends with the array in the slot or grants a copy. -/
theorem resetImplicit_grants (hd : d.Tidy claims) {array : Handle} (implicit : Handle)
    (hkind : ∀ r, d.find? array = some r → r.kind = .sparseArray) :
    Grants claims .sparseArray array d (d.resetImplicit array implicit) := by
  rw [resetImplicit_eq]
  have h := target_grants hd hkind
  split
  · exact h
  · split
    · exact .use (by decide) d implicit
    · next r _ =>
      generalize d.target array = found at h ⊢
      obtain ⟨code | h', d'⟩ := found
      · exact h
      · have hretype := alike_retype d' h' r.typeCode
        exact h.imp id (.imp (.imp id (·.trans hretype)) (.imp id (·.after hretype)))

/-- What is computed from an array is granted, or nothing has changed. -/
theorem compute_grants (hd : d.Tidy claims) {operation : String}
    (hop : releasing.contains operation = false) (array : Handle) {tensor : Resource → Resource}
    (htensor : ∀ r, (tensor r).kind = k ∧ (tensor r).alive ∧ (tensor r).members = none ∧
      (tensor r).children = []) :
    Grants claims k .null d (d.compute operation array tensor) := by
  unfold compute
  split
  · exact .use hop d array
  · next r _ =>
    obtain ⟨hkind, halive, hmembers, hchildren⟩ := htensor r
    exact (hkind ▸ alloc_makes hd halive hmembers hchildren : Makes claims k d _).grants

/-- Looking at a resource changes nothing for those who claim or hold something. -/
theorem alike_peek {α : Type} {operation : String} (hop : releasing.contains operation = false)
    (d : Depot) (h : Handle) (standard : α) (f : Resource → α) :
    d.Alike (d.peek operation h standard f).2 := by
  unfold peek
  split
  · exact .use hop d h
  · exact .refl d

/-- Only the depot's notes are changed by a call that only asks. -/
theorem alike_of_isReading {c : Call} (hc : c.isReading) (d : Depot) : d.Alike (d.answer c).2 := by
  cases c with
  | read k q h => exact alike_peek (by cases q <;> cases k <;> decide) d h _ _
  | dimensions k h => exact alike_peek (by decide) d h _ _
  | member m h => exact alike_peek (by cases m <;> decide) d h _ _
  | _ => cases hc

/-! ### All of them -/

/-- **What is made is granted**, and of the kind that the call makes, if its source is of the
    kind that the call takes it for. -/
theorem make_grants (hd : d.Tidy claims) {c : Call} (hc : c.yield? = some k)
    (hsource : ∀ k' h r, c.source? = some (k', h) → d.find? h = some r → r.kind = k') :
    Grants claims k c.slotBefore d (d.make c) := by
  have hkind : ∀ {k' h}, c.source? = some (k', h) → ∀ r, d.find? h = some r → r.kind = k' :=
    fun hs r hr => hsource _ _ r hs hr
  cases c with
  | newTensor | newNumericArray | newFlatImage | newSlicedImage | createStore =>
    obtain rfl := Option.some.inj hc
    exact create_grants hd rfl rfl rfl
  | clone kind source =>
    obtain rfl := Option.some.inj hc
    exact clone_grants hd (hkind rfl)
  | convertNumericArray source type method tolerance =>
    obtain rfl := Option.some.inj hc
    exact convert_grants hd (hkind rfl) (fun _ => ⟨rfl, rfl, rfl, rfl⟩) fun _ => rfl
  | convertImage source type interleaved =>
    obtain rfl := Option.some.inj hc
    exact convert_grants hd (hkind rfl) (fun _ => ⟨rfl, rfl, rfl, rfl⟩) fun _ => rfl
  | sparseFromTensor data implicit =>
    obtain rfl := Option.some.inj hc
    have halike := alike_peek (by decide : releasing.contains "from_tensor" = false) d data []
      (·.dims)
    exact halike.grants (createSparse_grants (halike.tidy _ hd) (by decide) _ _ _)
  | sparseFromPositions positions values extent implicit =>
    obtain rfl := Option.some.inj hc
    have halike := alike_peek (by decide : releasing.contains "from_explicit_positions" = false) d
      extent 0 (·.flattenedLength)
    exact halike.grants (createSparse_grants (halike.tidy _ hd) (by decide) _ _ _)
  | resetImplicit array implicit =>
    obtain rfl := Option.some.inj hc
    exact resetImplicit_grants hd implicit (hkind rfl)
  | explicitPositions array | toTensor array =>
    obtain rfl := Option.some.inj hc
    exact compute_grants hd (by decide) array fun _ => ⟨rfl, rfl, rfl, rfl⟩
  | read | dimensions | member | free | disown | add => cases hc

/-- **What a call makes comes into the hands of the caller**, and otherwise nothing has
    changed. -/
theorem answer_yields (hd : d.Tidy claims) {c : Call} (hc : c.yield? = some k)
    (hsource : ∀ k' h r, c.source? = some (k', h) → d.find? h = some r → r.kind = k') :
    (c.brings? (d.answer c).1 = none ∧ d.Alike (d.answer c).2) ∨
      ∃ h, c.brings? (d.answer c).1 = some ⟨k, .fresh h⟩ ∧
        Makes claims k d (h, (d.answer c).2) := by
  have hyield : c.yield?.isSome := by simp [hc]
  have hgrants := make_grants hd hc hsource
  rw [answer_of_yield? hyield]
  unfold Grants at hgrants
  cases hmade : (d.make c).1 with
  | error code =>
    rw [hmade] at hgrants
    exact .inl ⟨brings?_deliver_error c code, hgrants⟩
  | ok h =>
    rw [hmade] at hgrants
    obtain ⟨hnull, ⟨rfl, halike⟩ | ⟨hslot, hmakes⟩⟩ := hgrants
    · exact .inl ⟨brings?_deliver_slotBefore hyield hnull, halike⟩
    · refine .inr ⟨h, ?_, hmakes⟩
      unfold Call.brings?
      rw [granted_deliver hyield hnull, hc]
      exact if_neg hslot

end Custody.Depot
