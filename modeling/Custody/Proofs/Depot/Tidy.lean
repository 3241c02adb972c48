import Custody.Proofs.Depot.Contents

namespace Custody

/-!
# Tidy depots

In a tidy depot every resource has at most one party that will release it: a claimant outside,
or the one live resource that holds it.  Claimants are counted by a function, so that the same
statements serve for one container and for many.

* `Depot.Tidy` -- the invariant;
* `Depot.Root` -- a live resource that no other holds;
* `Depot.Grows` -- nothing is lost from one depot to the other;
* `Depot.Alike` -- nothing has changed for those who claim or hold something;
* `Depot.Makes` -- a resource was made, which is claimed; `alloc_makes`, `allocSparse_makes`;
* `Alike.modify` -- a superficial change leaves a depot alike.
-/

/-- The entries that release something, and the release of what a store holds. -/
def releasing : List String := ["free", "delete", "delete with store", "disown"]

namespace Depot

/-! ### The invariant -/

/-- Only sparse arrays have tensors inside, which are tensors, and only data stores hold
    containers. -/
structure WellFormed (d : Depot) : Prop where
  arrays : ∀ h r, d.find? h = some r → r.kind ≠ .sparseArray → r.members = none
  tensors : ∀ h r, d.find? h = some r → ∀ m ∈ r.memberHandles,
    ∃ t, d.find? m = some t ∧ t.kind = .tensor
  stores : ∀ h r, d.find? h = some r → r.kind ≠ .dataStore → r.children = []

/-- Whatever is claimed or held is alive, and claimed or held once. -/
structure Tidy (claims : Handle → Nat) (d : Depot) : Prop extends d.WellFormed where
  unique : ∀ x, claims x + d.grip x ≤ 1
  alive : ∀ x, 0 < claims x + d.grip x → d.isAlive x

/-- A live resource that no other holds. -/
def Root (d : Depot) (x : Handle) : Prop := d.isAlive x ∧ d.grip x = 0

/-- Every resource stays what it is, and has the same number of holders. -/
def Keeps (d d' : Depot) : Prop :=
  ∀ h r, d.find? h = some r → ∃ r', d'.find? h = some r' ∧
    r'.kind = r.kind ∧ r'.members = r.members ∧ r'.shareCount = r.shareCount

/-- The misuses that happened while something was released. -/
def misreleases (d : Depot) : List Violation :=
  d.violations.filter fun v => releasing.contains v.operation

variable {claims : Handle → Nat} {d d' d'' : Depot} {h : Handle} {r : Resource}

namespace Keeps

/-- A depot keeps itself. -/
theorem refl (d : Depot) : d.Keeps d := fun _ r hfound => ⟨r, hfound, rfl, rfl, rfl⟩

/-- What is kept twice is kept. -/
theorem trans (h : d.Keeps d') (h' : d'.Keeps d'') : d.Keeps d'' := by
  intro x r hfound
  obtain ⟨r', hfound', hkind, hmembers, hcount⟩ := h x r hfound
  obtain ⟨r'', hfound'', hkind', hmembers', hcount'⟩ := h' x r' hfound'
  exact ⟨r'', hfound'', hkind'.trans hkind, hmembers'.trans hmembers, hcount'.trans hcount⟩

/-- What is not there was not there. -/
theorem find?_eq_none (h : d.Keeps d') {x : Handle} (hx : d'.find? x = none) :
    d.find? x = none := by
  cases hfound : d.find? x with
  | none => rfl
  | some r =>
    obtain ⟨r', hfound', -⟩ := h x r hfound
    simp [hx] at hfound'

end Keeps

/-- Fewer claims are as good. -/
theorem Tidy.mono {claims' : Handle → Nat} (hd : d.Tidy claims) (h : ∀ x, claims' x ≤ claims x) :
    d.Tidy claims' where
  toWellFormed := hd.toWellFormed
  unique x := by
    have := hd.unique x
    have := h x
    omega
  alive x hx := hd.alive x (by have := h x; omega)

/-- What does not exist is neither claimed nor held. -/
theorem Tidy.eq_zero_of_find?_eq_none (hd : d.Tidy claims) {x : Handle}
    (hx : d.find? x = none) : claims x + d.grip x = 0 := by
  refine Nat.eq_zero_of_not_pos fun hpos => ?_
  obtain ⟨r, hr, -⟩ := isAlive_iff.mp (hd.alive x hpos)
  simp [hx] at hr

/-! ### Notes -/

/-- Looking up depends on the resources alone. -/
theorem find?_of_resources_eq (h : d'.resources = d.resources) (x : Handle) :
    d'.find? x = d.find? x := by
  unfold find?
  rw [h]

/-- How often a handle is held depends on the resources alone. -/
theorem grip_of_resources_eq (h : d'.resources = d.resources) (x : Handle) :
    d'.grip x = d.grip x := total_eq_of_resources_eq h _

/-- What is alive depends on the resources alone. -/
theorem isAlive_of_resources_eq (h : d'.resources = d.resources) (x : Handle) :
    d'.isAlive x = d.isAlive x := by
  unfold isAlive live?
  rw [find?_of_resources_eq h]

/-- Whether a depot is tidy depends on the resources alone. -/
theorem Tidy.of_resources_eq (hd : d.Tidy claims) (h : d'.resources = d.resources) :
    d'.Tidy claims where
  arrays x r hx := hd.arrays x r (find?_of_resources_eq h x ▸ hx)
  tensors x r hx m hm := by
    rw [find?_of_resources_eq h] at hx ⊢
    exact hd.tensors x r hx m hm
  stores x r hx := hd.stores x r (find?_of_resources_eq h x ▸ hx)
  unique x := by
    rw [grip_of_resources_eq h]
    exact hd.unique x
  alive x hx := by
    rw [grip_of_resources_eq h] at hx
    rw [isAlive_of_resources_eq h]
    exact hd.alive x hx

/-- With the same resources everything is kept. -/
theorem Keeps.of_resources_eq (h : d'.resources = d.resources) : d.Keeps d' := by
  intro x r hfound
  rw [← find?_of_resources_eq h] at hfound
  exact ⟨r, hfound, rfl, rfl, rfl⟩

/-- The roots depend on the resources alone. -/
theorem root_of_resources_eq (h : d'.resources = d.resources) {x : Handle} :
    d'.Root x ↔ d.Root x := by
  rw [Root, Root, isAlive_of_resources_eq h, grip_of_resources_eq h]

/-- A note that no release made is no misrelease. -/
theorem misreleases_note {operation : String} (hop : releasing.contains operation = false)
    (misuse : Misuse) (h : Handle) :
    (d.note operation misuse h).misreleases = d.misreleases := by
  have hnot : operation ∉ releasing := by simpa using hop
  simp [misreleases, note, List.filter_append, hnot]

/-- A use that no release made is no misrelease. -/
theorem misreleases_use {operation : String} (hop : releasing.contains operation = false)
    (h : Handle) : (d.use operation h).misreleases = d.misreleases := by
  unfold use
  split
  · exact misreleases_note hop _ h
  · split
    · rfl
    · exact misreleases_note hop _ h

/-- Nothing is lost from one depot to the other: every resource stays what it is, those that are
    alive stay alive, and no release goes wrong. -/
structure Grows (d d' : Depot) : Prop where
  keeps : d.Keeps d'
  lives : ∀ x, d.isAlive x → d'.isAlive x
  clean : d'.misreleases = d.misreleases

namespace Grows

/-- A depot that stays the same loses nothing. -/
theorem refl (d : Depot) : d.Grows d := ⟨.refl d, fun _ h => h, rfl⟩

/-- What loses nothing twice loses nothing. -/
theorem trans (h : d.Grows d') (h' : d'.Grows d'') : d.Grows d'' :=
  ⟨h.keeps.trans h'.keeps, fun x hx => h'.lives x (h.lives x hx), h'.clean.trans h.clean⟩

/-- With the same resources and misreleases nothing is lost. -/
theorem of_resources_eq (h : d'.resources = d.resources) (hclean : d'.misreleases = d.misreleases) :
    d.Grows d' :=
  ⟨.of_resources_eq h, fun x hx => by rwa [isAlive_of_resources_eq h], hclean⟩

end Grows

/-- From one depot to the other nothing has changed for those who claim or hold something. -/
structure Alike (d d' : Depot) : Prop extends d.Grows d' where
  tidy : ∀ claims, d.Tidy claims → d'.Tidy claims
  roots : ∀ x, d'.Root x → d.Root x

namespace Alike

/-- A depot is like itself. -/
theorem refl (d : Depot) : d.Alike d := ⟨.refl d, fun _ h => h, fun _ h => h⟩

/-- Depots that are like a third are alike in a row. -/
theorem trans (h : d.Alike d') (h' : d'.Alike d'') : d.Alike d'' where
  toGrows := h.toGrows.trans h'.toGrows
  tidy claims hd := h'.tidy claims (h.tidy claims hd)
  roots x hx := h.roots x (h'.roots x hx)

/-- Depots with the same resources and misreleases are alike. -/
theorem of_resources_eq (h : d'.resources = d.resources) (hclean : d'.misreleases = d.misreleases) :
    d.Alike d' where
  toGrows := .of_resources_eq h hclean
  tidy _ hd := hd.of_resources_eq h
  roots _ := (root_of_resources_eq h).mp

/-- A misuse is noted by an entry that releases nothing. -/
theorem use {operation : String} (hop : releasing.contains operation = false) (d : Depot)
    (h : Handle) : d.Alike (d.use operation h) :=
  .of_resources_eq (d.use_resources operation h) (misreleases_use hop h)

end Alike

/-! ### New resources -/

/-- Alive after an allocation is what was alive, and the new resource if it is. -/
theorem isAlive_alloc (hr : r.alive) (x : Handle) :
    (d.alloc r).2.isAlive x ↔ x = d.nextHandle ∨ d.isAlive x := by
  rw [isAlive_iff, isAlive_iff, find?_alloc]
  by_cases hx : x = d.nextHandle <;> simp [hx, hr]

/-- A new resource holds what it holds, on top of what was held. -/
theorem grip_alloc (d : Depot) (r : Resource) (x : Handle) :
    (d.alloc r).2.grip x = d.grip x + r.contents.count x := total_alloc d r _

/-- A new resource leaves the others as they are. -/
theorem keeps_alloc (d : Depot) (r : Resource) : d.Keeps (d.alloc r).2 := by
  intro x r' hfound
  refine ⟨r', ?_, rfl, rfl, rfl⟩
  rw [find?_alloc]
  split
  · next hx => simp [hx] at hfound
  · exact hfound

/-- Nothing is lost by a live resource more. -/
theorem grows_alloc (hr : r.alive) : d.Grows (d.alloc r).2 :=
  ⟨keeps_alloc d r, fun x hx => (isAlive_alloc hr x).mpr (.inr hx), rfl⟩

/-- A new resource takes over the claims to what it holds, and is claimed itself. -/
theorem tidy_alloc (hd : d.Tidy fun x => claims x + r.contents.count x) (hr : r.alive)
    (harrays : r.kind ≠ .sparseArray → r.members = none)
    (htensors : ∀ m ∈ r.memberHandles, ∃ t, d.find? m = some t ∧ t.kind = .tensor)
    (hstores : r.kind ≠ .dataStore → r.children = []) :
    (d.alloc r).2.Tidy fun x => claims x + [(d.alloc r).1].count x := by
  -- The next handle is free, so nobody can have claimed or held it before.
  have hnext := hd.eq_zero_of_find?_eq_none d.find?_nextHandle
  have hold : ∀ {x r'}, (d.alloc r).2.find? x = some r' →
      (x = d.nextHandle ∧ r' = r) ∨ d.find? x = some r' := fun {x r'} hx => by
    rw [find?_alloc] at hx
    split at hx
    · next heq => exact .inl ⟨heq, (Option.some.inj hx).symm⟩
    · exact .inr hx
  have hkept : ∀ {m}, (∃ t, d.find? m = some t ∧ t.kind = .tensor) →
      ∃ t, (d.alloc r).2.find? m = some t ∧ t.kind = .tensor := fun ⟨t, ht, hkind⟩ => by
    obtain ⟨t', ht', hkind', -⟩ := keeps_alloc d r _ t ht
    exact ⟨t', ht', hkind'.trans hkind⟩
  constructor
  · constructor
    · intro x r' hx hkind
      rcases hold hx with ⟨-, rfl⟩ | hx
      · exact harrays hkind
      · exact hd.arrays x r' hx hkind
    · intro x r' hx m hm
      rcases hold hx with ⟨-, rfl⟩ | hx
      · exact hkept (htensors m hm)
      · exact hkept (hd.tensors x r' hx m hm)
    · intro x r' hx hkind
      rcases hold hx with ⟨-, rfl⟩ | hx
      · exact hstores hkind
      · exact hd.stores x r' hx hkind
  · intro x
    have hx := hd.unique x
    rw [grip_alloc, List.count_singleton]
    split
    · next heq =>
      obtain rfl : d.nextHandle = x := by simpa [alloc] using heq
      omega
    · omega
  · intro x hpos
    rw [isAlive_alloc hr]
    by_cases hx : x = d.nextHandle
    · exact .inl hx
    · have hne : (d.alloc r).1 ≠ x := fun h => hx h.symm
      rw [grip_alloc, List.count_singleton, if_neg (by simpa using hne)] at hpos
      exact .inr (hd.alive x (by omega))

/-- The only new root is the new resource, and what it holds is no root any more. -/
theorem root_alloc (hr : r.alive) {x : Handle} (hx : (d.alloc r).2.Root x) :
    x = (d.alloc r).1 ∨ (d.Root x ∧ x ∉ r.contents) := by
  obtain ⟨halive, hgrip⟩ := hx
  rw [grip_alloc] at hgrip
  rcases (isAlive_alloc hr x).mp halive with hx | hx
  · exact .inl hx
  · exact .inr ⟨⟨hx, by omega⟩, List.count_eq_zero.mp (by omega)⟩

/-- A resource of kind `k` was made: it is claimed, and nothing else has changed. -/
structure Makes (claims : Handle → Nat) (k : Kind) (d : Depot) (made : Handle × Depot) :
    Prop extends d.Grows made.2 where
  fresh : d.find? made.1 = none
  tidy : made.2.Tidy fun x => claims x + [made.1].count x
  kind : ∃ r, made.2.find? made.1 = some r ∧ r.kind = k
  roots : ∀ x, made.2.Root x → x = made.1 ∨ d.Root x

/-- A new resource is found under its handle. -/
theorem find?_alloc_self (d : Depot) (r : Resource) :
    (d.alloc r).2.find? (d.alloc r).1 = some r := by
  rw [find?_alloc]
  exact if_pos rfl

/-- What was made is still made when nothing changed hands afterwards. -/
theorem Makes.after {k : Kind} {made : Handle × Depot} (h : Makes claims k d made)
    (h' : made.2.Alike d') : Makes claims k d (made.1, d') where
  toGrows := h.toGrows.trans h'.toGrows
  fresh := h.fresh
  tidy := h'.tidy _ h.tidy
  kind := by
    obtain ⟨r, hr, hk⟩ := h.kind
    obtain ⟨r', hr', hk', -⟩ := h'.keeps _ r hr
    exact ⟨r', hr', hk'.trans hk⟩
  roots x hx := h.roots x (h'.roots x hx)

/-- What is made after a step by which nothing changed hands is made without it. -/
theorem Alike.makes {k : Kind} {made : Handle × Depot} (h : d.Alike d')
    (h' : Makes claims k d' made) : Makes claims k d made where
  toGrows := h.toGrows.trans h'.toGrows
  fresh := h.keeps.find?_eq_none h'.fresh
  tidy := h'.tidy
  kind := h'.kind
  roots x hx := (h'.roots x hx).imp id (h.roots x)

/-- A resource that holds nothing can be made at any time. -/
theorem alloc_makes (hd : d.Tidy claims) (hr : r.alive) (hmembers : r.members = none)
    (hchildren : r.children = []) : Makes claims r.kind d (d.alloc r) where
  toGrows := grows_alloc hr
  fresh := d.find?_nextHandle
  tidy := by
    have hcontents : r.contents = [] := by
      simp [Resource.contents, hchildren, Resource.memberHandles, hmembers]
    refine tidy_alloc (by simpa [hcontents] using hd) hr (fun _ => hmembers) ?_ fun _ => hchildren
    simp [Resource.memberHandles, hmembers]
  kind := ⟨r, find?_alloc_self d r, rfl⟩
  roots x hx := (root_alloc hr hx).imp id And.left

/-- A sparse array is made together with its tensors, which it holds. -/
theorem allocSparse_makes (hd : d.Tidy claims) (typeCode : Int) (dims : List Int) :
    Makes claims .sparseArray d (d.allocSparse typeCode dims) := by
  let implicit : Resource := { kind := .tensor, typeCode, dims := [] }
  let explicit : Resource := { kind := .tensor, typeCode, dims := [1] }
  have hone := alloc_makes (r := implicit) hd rfl rfl rfl
  have htwo := alloc_makes (r := explicit) hone.tidy rfl rfl rfl
  let array : Resource :=
    { kind := .sparseArray, typeCode, dims
      members := some ((d.alloc implicit).1, ((d.alloc implicit).2.alloc explicit).1) }
  have hcontents : array.contents =
      [(d.alloc implicit).1, ((d.alloc implicit).2.alloc explicit).1] := rfl
  -- Both tensors are claimed when they are made, and the array takes over these claims.
  have hclaims : (((d.alloc implicit).2.alloc explicit).2).Tidy fun x =>
      claims x + array.contents.count x := htwo.tidy.mono fun x => by
    simp only [hcontents, List.count_cons, List.count_nil]
    omega
  have hgrows := hone.toGrows.trans htwo.toGrows
  refine ⟨hgrows.trans (grows_alloc (r := array) rfl),
    hgrows.keeps.find?_eq_none (find?_nextHandle _),
    tidy_alloc hclaims rfl (fun h => absurd rfl h) ?_ fun _ => rfl, ?_, ?_⟩
  · intro m hm
    have hm : m ∈ [(d.alloc implicit).1, ((d.alloc implicit).2.alloc explicit).1] := hm
    simp only [List.mem_cons, List.not_mem_nil, or_false] at hm
    rcases hm with rfl | rfl
    · obtain ⟨t, ht, hkind⟩ := hone.kind
      obtain ⟨t', ht', hkind', -⟩ := htwo.keeps _ t ht
      exact ⟨t', ht', hkind'.trans hkind⟩
    · exact htwo.kind
  · exact ⟨array, find?_alloc_self _ array, rfl⟩
  · intro x hx
    rcases root_alloc (r := array) rfl hx with hx | ⟨hx, hnot⟩
    · exact .inl hx
    · simp only [hcontents, List.mem_cons, List.not_mem_nil, or_false, not_or] at hnot
      exact .inr (((htwo.roots x hx).resolve_left hnot.2 |> hone.roots x).resolve_left hnot.1)

/-! ### Changes of what is not held -/

/-- A change of a resource that concerns neither its kind nor its life nor what it holds. -/
def Superficial (f : Resource → Resource) : Prop :=
  ∀ r, (f r).kind = r.kind ∧ (f r).alive = r.alive ∧ (f r).children = r.children ∧
    (f r).members = r.members

variable {f : Resource → Resource}

/-- On the surface means that contents stay. -/
theorem Superficial.contents (hf : Superficial f) (r : Resource) : (f r).contents = r.contents := by
  obtain ⟨-, halive, hchildren, hmembers⟩ := hf r
  simp [Resource.contents, Resource.memberHandles, halive, hchildren, hmembers]

/-- Every resource is found again, as it was or changed. -/
theorem find?_modify_eq_some {x : Handle} {r' : Resource} :
    (d.modify h f).find? x = some r' ↔
      ∃ r, d.find? x = some r ∧ r' = if x = h then f r else r := by
  rw [find?_modify]
  by_cases hx : x = h
  · subst hx
    cases d.find? x <;> simp [eq_comm]
  · simp [hx, eq_comm]

/-- A change on the surface changes nothing of what is held. -/
theorem grip_modify (hf : Superficial f) (h x : Handle) : (d.modify h f).grip x = d.grip x := by
  cases hfound : d.find? h with
  | none => simp [modify, hfound]
  | some r =>
    have hmodify := total_modify hfound f fun r => r.contents.count x
    rw [hf.contents] at hmodify
    exact Nat.add_right_cancel hmodify

/-- A change that keeps kinds and members, and fills nothing but stores, keeps a depot well
    formed. -/
theorem WellFormed.modify (hd : d.WellFormed) (hkind : ∀ r, (f r).kind = r.kind)
    (hmembers : ∀ r, (f r).members = r.members)
    (hstores : ∀ r, d.find? h = some r → r.kind ≠ .dataStore → (f r).children = []) :
    (d.modify h f).WellFormed where
  arrays x r' hx hk := by
    obtain ⟨r, hr, rfl⟩ := find?_modify_eq_some.mp hx
    by_cases hxh : x = h
    · simp only [hxh, ↓reduceIte] at hk ⊢
      exact (hmembers r).trans (hd.arrays x r hr (hkind r ▸ hk))
    · simp only [hxh, ↓reduceIte] at hk ⊢
      exact hd.arrays x r hr hk
  tensors x r' hx m hm := by
    obtain ⟨r, hr, rfl⟩ := find?_modify_eq_some.mp hx
    have hsame : (if x = h then f r else r).memberHandles = r.memberHandles := by
      split
      · simp only [Resource.memberHandles, hmembers]
      · rfl
    obtain ⟨t, ht, hk⟩ := hd.tensors x r hr m (hsame ▸ hm)
    -- The tensor inside may be the one that is changed, which stays a tensor.
    refine ⟨_, find?_modify_eq_some.mpr ⟨t, ht, rfl⟩, ?_⟩
    split
    · exact (hkind t).trans hk
    · exact hk
  stores x r' hx hk := by
    obtain ⟨r, hr, rfl⟩ := find?_modify_eq_some.mp hx
    by_cases hxh : x = h
    · subst hxh
      simp only [↓reduceIte] at hk ⊢
      exact hstores r hr (hkind r ▸ hk)
    · simp only [hxh, ↓reduceIte] at hk ⊢
      exact hd.stores x r hr hk

/-- A change that leaves lives alone leaves alive what was alive. -/
theorem isAlive_modify (halive : ∀ r, (f r).alive = r.alive) (h x : Handle) :
    (d.modify h f).isAlive x ↔ d.isAlive x := by
  simp only [isAlive_iff, find?_modify_eq_some]
  constructor
  · rintro ⟨r', ⟨r, hr, rfl⟩, hr'⟩
    refine ⟨r, hr, ?_⟩
    split at hr'
    · rwa [← halive r]
    · exact hr'
  · rintro ⟨r, hr, hr'⟩
    refine ⟨_, ⟨r, hr, rfl⟩, ?_⟩
    split
    · rwa [halive r]
    · exact hr'

/-- A change that leaves kinds, members and counts alone keeps every resource. -/
theorem keeps_modify (hkind : ∀ r, (f r).kind = r.kind) (hmembers : ∀ r, (f r).members = r.members)
    (hcount : ∀ r, (f r).shareCount = r.shareCount) (h : Handle) : d.Keeps (d.modify h f) := by
  intro x r hr
  refine ⟨_, find?_modify_eq_some.mpr ⟨r, hr, rfl⟩, ?_⟩
  split
  · exact ⟨hkind r, hmembers r, hcount r⟩
  · exact ⟨rfl, rfl, rfl⟩

/-- A change of a resource is no misrelease. -/
@[simp] theorem misreleases_modify (d : Depot) (h : Handle) (f : Resource → Resource) :
    (d.modify h f).misreleases = d.misreleases := by
  unfold modify
  split <;> rfl

/-- A change on the surface leaves a depot tidy. -/
theorem tidy_modify (hd : d.Tidy claims) (hf : Superficial f) (h : Handle) :
    (d.modify h f).Tidy claims where
  toWellFormed := hd.modify (fun r => (hf r).1) (fun r => (hf r).2.2.2) fun r hr hk =>
    (hf r).2.2.1.trans (hd.stores h r hr hk)
  unique x := by
    rw [grip_modify hf]
    exact hd.unique x
  alive x hx := by
    rw [grip_modify hf] at hx
    exact (isAlive_modify (fun r => (hf r).2.1) h x).mpr (hd.alive x hx)

/-- A change on the surface leaves the roots where they are. -/
theorem root_modify (hf : Superficial f) (h x : Handle) : (d.modify h f).Root x ↔ d.Root x := by
  rw [Root, Root, isAlive_modify fun r => (hf r).2.1, grip_modify hf]

/-- Nothing is lost by a change on the surface that leaves the counts alone. -/
theorem Grows.modify (hf : Superficial f) (hcount : ∀ r, (f r).shareCount = r.shareCount)
    (d : Depot) (h : Handle) : d.Grows (d.modify h f) where
  keeps := keeps_modify (fun r => (hf r).1) (fun r => (hf r).2.2.2) hcount h
  lives x := (isAlive_modify (fun r => (hf r).2.1) h x).mpr
  clean := misreleases_modify d h f

/-- A change on the surface that leaves the counts alone leaves the depot alike. -/
theorem Alike.modify (hf : Superficial f) (hcount : ∀ r, (f r).shareCount = r.shareCount)
    (d : Depot) (h : Handle) : d.Alike (d.modify h f) where
  toGrows := .modify hf hcount d h
  tidy _ hd := tidy_modify hd hf h
  roots x := (root_modify hf h x).mp

end Depot

end Custody
