import Custody.Proofs.Depot.Tidy

namespace Custody.Depot

/-!
# Releasing keeps a depot tidy

A claimed resource is released with everything that hangs on it, and since all of that was held
by it alone, nothing is met twice.  Handing a container over to a store turns the claim to it
into a hold.

* `Depot.Releases` -- the claims to some resources are gone;
* `sweep_releases`, `retire_releases` -- **a claimed resource is released with all it holds**;
* `postTo_releases` -- **a store takes over what is put into it**.
-/

variable {claims : Handle → Nat} {d d' : Depot} {h : Handle} {r : Resource}

/-! ### Burying -/

/-- Resources were released: the claims to them are gone, and nothing else has changed. -/
structure Releases (claims : Handle → Nat) (gone : List Handle) (d d' : Depot) : Prop where
  tidy : d'.Tidy claims
  keeps : d.Keeps d'
  clean : d'.misreleases = d.misreleases
  roots : ∀ x, d'.Root x → d.Root x ∧ x ∉ gone

/-- The tensors inside an array hold nothing themselves. -/
theorem WellFormed.contents_eq_nil (hd : d.WellFormed) (hfound : d.find? h = some r) :
    ∀ m ∈ r.memberHandles, ∀ t, d.find? m = some t → t.contents = [] := by
  intro m hm t ht
  obtain ⟨t', ht', hkind⟩ := hd.tensors h r hfound m hm
  obtain rfl : t = t' := Option.some.inj (ht.symm.trans ht')
  have hchildren := hd.stores m t ht (by simp [hkind])
  have hmembers := hd.arrays m t ht (by simp [hkind])
  simp [Resource.contents, Resource.memberHandles, hchildren, hmembers]

/-- What is buried stays what it was, with the same number of holders. -/
theorem keeps_bury (d : Depot) (h : Handle) (r : Resource) : d.Keeps (d.bury h r) := by
  intro x r' hx
  have hfound := find?_bury d h r x
  rw [hx, Option.map_some] at hfound
  exact ⟨_, hfound, rfl, rfl, rfl⟩

/-- A burial goes wrong in no way. -/
theorem misreleases_bury (d : Depot) (h : Handle) (r : Resource) :
    (d.bury h r).misreleases = d.misreleases := by
  unfold bury
  generalize r.memberHandles = ms
  -- Burials change nothing but resources, one after the other.
  suffices hfold : ∀ d' : Depot, (ms.foldl (fun d m => d.modify m Resource.dead) d').misreleases =
      d'.misreleases from (hfold _).trans (misreleases_modify d h _)
  induction ms with
  | nil => exact fun _ => rfl
  | cons m ms ih => exact fun d' => (ih _).trans (misreleases_modify d' m _)

/-- Alive after a burial is what was alive, but for the buried resource and its tensors. -/
theorem isAlive_bury (x : Handle) :
    (d.bury h r).isAlive x ↔ d.isAlive x ∧ x ≠ h ∧ x ∉ r.memberHandles := by
  simp only [isAlive_iff, find?_bury, Option.map_eq_some_iff]
  constructor
  · rintro ⟨_, ⟨r', hr', rfl⟩, halive⟩
    simp only [Bool.and_eq_true, decide_eq_true_eq] at halive
    exact ⟨⟨r', hr', halive.1⟩, halive.2⟩
  · rintro ⟨⟨r', hr', halive⟩, hne⟩
    exact ⟨_, ⟨r', hr', rfl⟩, by simp [halive, hne]⟩

/-- A claimed resource that is buried leaves the claims to what a store held. -/
theorem tidy_bury (hd : d.Tidy fun x => claims x + [h].count x) (hlive : d.live? h = some r) :
    (d.bury h r).Tidy fun x => claims x + r.children.count x := by
  obtain ⟨hfound, halive⟩ := live?_eq_some_iff.mp hlive
  have hgrip := fun x => grip_bury hfound (hd.contents_eq_nil hfound) x
  -- The members die with the resource, so only the children are left over.
  have hcontents : ∀ x, r.contents.count x = r.children.count x + r.memberHandles.count x :=
    fun x => by simp [Resource.contents, halive]
  have hold : ∀ {x r'}, (d.bury h r).find? x = some r' → ∃ r₀, d.find? x = some r₀ ∧
      r'.kind = r₀.kind ∧ r'.members = r₀.members ∧
        (r'.children = [] ∨ r'.children = r₀.children) := fun {x r'} hx => by
    rw [find?_bury] at hx
    obtain ⟨r₀, hr₀, rfl⟩ := Option.map_eq_some_iff.mp hx
    refine ⟨r₀, hr₀, rfl, rfl, ?_⟩
    by_cases hxh : x = h
    · exact .inl (if_pos hxh)
    · exact .inr (if_neg hxh)
  constructor
  · constructor
    · intro x r' hx hkind
      obtain ⟨r₀, hr₀, hk, hm, -⟩ := hold hx
      exact hm.trans (hd.arrays x r₀ hr₀ (hk ▸ hkind))
    · intro x r' hx m hmem
      obtain ⟨r₀, hr₀, -, hm, -⟩ := hold hx
      obtain ⟨t, ht, hkind⟩ := hd.tensors x r₀ hr₀ m (by rwa [Resource.memberHandles, ← hm])
      obtain ⟨t', ht', hkind', -⟩ := keeps_bury d h r m t ht
      exact ⟨t', ht', hkind'.trans hkind⟩
    · intro x r' hx hkind
      obtain ⟨r₀, hr₀, hk, -, hc⟩ := hold hx
      exact hc.elim id fun hc => hc.trans (hd.stores x r₀ hr₀ (hk ▸ hkind))
  · intro x
    have hunique := hd.unique x
    have := hgrip x
    have := hcontents x
    omega
  · intro x hpos
    have hunique := hd.unique x
    have hg := hgrip x
    have hc := hcontents x
    refine (isAlive_bury x).mpr ⟨hd.alive x (by omega), ?_, ?_⟩
    · -- The resource itself has lost its only claim.
      rintro rfl
      simp only [List.count_singleton_self] at hunique
      omega
    · -- A member was held by the resource, and so by nothing else.
      intro hmem
      have := List.count_pos_iff.mpr hmem
      omega

/-- The roots after a burial are those from before and what the buried resource held. -/
theorem root_bury (hd : d.Tidy fun x => claims x + [h].count x) (hlive : d.live? h = some r)
    {x : Handle} (hx : (d.bury h r).Root x) : (d.Root x ∨ x ∈ r.children) ∧ x ≠ h := by
  obtain ⟨hfound, halive⟩ := live?_eq_some_iff.mp hlive
  obtain ⟨hxalive, hxgrip⟩ := hx
  obtain ⟨hxalive, hne, hmem⟩ := (isAlive_bury x).mp hxalive
  have hgrip := grip_bury hfound (hd.contents_eq_nil hfound) x
  have hcontents : r.contents.count x = r.children.count x + r.memberHandles.count x := by
    simp [Resource.contents, halive]
  refine ⟨?_, hne⟩
  by_cases hchild : x ∈ r.children
  · exact .inr hchild
  · rw [List.count_eq_zero.mpr hmem, List.count_eq_zero.mpr hchild] at hcontents
    exact .inl ⟨hxalive, by omega⟩

/-- The first handle in a queue is claimed next to the others. -/
theorem tidy_head {queue : List Handle} (hd : d.Tidy fun x => claims x + (h :: queue).count x) :
    d.Tidy fun x => (claims x + queue.count x) + [h].count x :=
  hd.mono fun x => by
    simp only [List.count_cons, List.count_nil]
    omega

/-- Each step of a sweep takes one handle from the queue, and moves its children into the queue. -/
theorem sweep_step {fuel : Nat} {queue : List Handle}
    (hd : d.Tidy fun x => claims x + (h :: queue).count x) (hlive : d.live? h = some r)
    (hfuel : (h :: queue).length + d.childCount ≤ fuel + 1) :
    ((d.bury h r).Tidy fun x => claims x + (r.children ++ queue).count x) ∧
      (r.children ++ queue).length + (d.bury h r).childCount ≤ fuel := by
  have hchildren := childCount_bury (live?_eq_some_iff.mp hlive).1
  refine ⟨(tidy_bury (tidy_head hd) hlive).mono fun x => ?_, ?_⟩
  · rw [List.count_append]
    omega
  · simp only [List.length_append, List.length_cons] at hfuel ⊢
    omega

/-- What is claimed is there. -/
theorem Tidy.exists_live {queue : List Handle}
    (hd : d.Tidy fun x => claims x + (h :: queue).count x) : ∃ r, d.live? h = some r := by
  have halive : d.isAlive h := hd.alive h (by
    rw [List.count_cons_self]
    omega)
  exact Option.isSome_iff_exists.mp halive

/-- **A sweep releases its queue** and all that hangs on it: with a step for each handle in the
    queue and each container in a store it does not stop early, and it meets nothing twice. -/
theorem sweep_releases {fuel : Nat} {queue : List Handle}
    (hd : d.Tidy fun x => claims x + queue.count x)
    (hfuel : queue.length + d.childCount ≤ fuel) :
    Releases claims queue d (sweep fuel queue d) := by
  induction fuel generalizing queue d with
  | zero =>
    obtain rfl : queue = [] := List.length_eq_zero_iff.mp (by omega)
    exact ⟨hd.mono fun _ => Nat.le_add_right _ _, .refl d, rfl, fun x hx => ⟨hx, by simp⟩⟩
  | succ fuel ih =>
    cases queue with
    | nil => exact ⟨hd.mono fun _ => Nat.le_add_right _ _, .refl d, rfl, fun x hx => ⟨hx, by simp⟩⟩
    | cons h queue =>
      -- What stands in the queue is claimed, so it is alive, and its contents take its place there.
      obtain ⟨r, hlive⟩ := hd.exists_live
      obtain ⟨hclaims, henough⟩ := sweep_step hd hlive hfuel
      have hrest := ih hclaims henough
      simp only [sweep, hlive]
      refine ⟨hrest.tidy, (keeps_bury d h r).trans hrest.keeps,
        hrest.clean.trans (misreleases_bury d h r), fun x hx => ?_⟩
      obtain ⟨hroot, hnot⟩ := hrest.roots x hx
      rw [List.mem_append, not_or] at hnot
      obtain ⟨hroot, hne⟩ := root_bury (tidy_head hd) hlive hroot
      exact ⟨hroot.resolve_right hnot.1, by simp [hne, hnot.2]⟩

/-- Releasing a live resource is a sweep of it alone. -/
theorem retire_eq_sweep (hlive : d.live? h = some r) (operation : String) :
    d.retire operation h = sweep (d.childCount + 2) [h] d := by
  simp only [retire, sweep, hlive, List.append_nil]

/-- **A claimed resource is released with all that it holds**, and nothing is noted. -/
theorem retire_releases (hd : d.Tidy fun x => claims x + [h].count x) (operation : String) :
    Releases claims [h] d (d.retire operation h) := by
  obtain ⟨r, hlive⟩ := hd.exists_live
  rw [retire_eq_sweep hlive]
  refine sweep_releases hd ?_
  rw [List.length_singleton]
  omega

/-! ### Handing over -/

/-- A store with an entry more, and what it holds for that. -/
def filled (held : List Handle) (p : Posting) (r : Resource) : Resource :=
  { r with postings := r.postings ++ [p], children := r.children ++ held }

/-- An addition to a live store fills it with one entry. -/
theorem postTo_eq {store : Handle} (hlive : d.live? store = some r) (held : List Handle)
    (p : Posting) : d.postTo store held p = d.modify store (filled held p) := by
  simp only [postTo, hlive]
  rfl

/-- **A store takes over what is put into it**: it is claimed no more, but held. -/
theorem postTo_releases {store : Handle} {held : List Handle}
    (hd : d.Tidy fun x => claims x + held.count x) (hlive : d.live? store = some r)
    (hkind : r.kind = .dataStore) (p : Posting) :
    Releases claims held d (d.postTo store held p) := by
  obtain ⟨hfound, halive⟩ := live?_eq_some_iff.mp hlive
  -- What was claimed before is held now, so the sum of claims and holds stays the same.
  have hgrip : ∀ x, (d.modify store (filled held p)).grip x = d.grip x + held.count x := by
    intro x
    have hmodify := total_modify hfound (filled held p) fun r => r.contents.count x
    have hfilled : (filled held p r).contents.count x = r.contents.count x + held.count x := by
      simp only [Resource.contents, filled, halive, Resource.memberHandles, ↓reduceIte,
        List.count_append]
      omega
    rw [hfilled] at hmodify
    unfold grip
    omega
  have hsame := isAlive_modify (d := d) (f := filled held p) (fun _ => rfl) store
  rw [postTo_eq hlive]
  constructor
  · constructor
    · refine hd.modify (fun _ => rfl) (fun _ => rfl) fun r' hr' hk => ?_
      obtain rfl : r' = r := Option.some.inj (hr'.symm.trans hfound)
      exact absurd hkind hk
    · intro x
      have := hd.unique x
      rw [hgrip]
      omega
    · intro x hx
      rw [hgrip] at hx
      exact (hsame x).mpr (hd.alive x (by omega))
  · exact keeps_modify (f := filled held p) (fun _ => rfl) (fun _ => rfl) (fun _ => rfl) store
  · exact misreleases_modify d store _
  · rintro x ⟨hxalive, hxgrip⟩
    rw [hgrip] at hxgrip
    exact ⟨⟨(hsame x).mp hxalive, by omega⟩, List.count_eq_zero.mp (by omega)⟩

/-- An addition fails for a container that is not alive, or puts something into the store. -/
theorem answer_add_cases (d : Depot) (store : Handle) (name : Option String) (item : Item) :
    d.Alike (d.answer (.add store name item)).2 ∨
      ∃ held p, (d.answer (.add store name item)).2 = d.postTo store held p := by
  cases item with
  | plain value => exact .inr ⟨_, _, rfl⟩
  | container k child =>
    simp only [Depot.answer, post]
    split
    · exact .inl (.use (by decide) d child)
    · exact .inr ⟨_, _, rfl⟩

/-- A store that is not alive stays as it is. -/
theorem alike_of_add {store : Handle} (name : Option String) (item : Item)
    (hdead : d.isAlive store = false) : d.Alike (d.answer (.add store name item)).2 := by
  have hlive : d.live? store = none := by simpa [Depot.isAlive] using hdead
  rcases answer_add_cases d store name item with halike | ⟨held, p, hpost⟩
  · exact halike
  · rw [hpost, postTo, hlive]
    exact .use (by decide) d store

/-- Additions leave alive what is alive. -/
theorem isAlive_answer_add (store : Handle) (name : Option String) (item : Item) (x : Handle)
    (hx : d.isAlive x) : (d.answer (.add store name item)).2.isAlive x := by
  rcases answer_add_cases d store name item with halike | ⟨held, p, hpost⟩
  · exact halike.lives x hx
  · rw [hpost]
    cases hlive : d.live? store with
    | none =>
      rw [postTo, hlive]
      exact (Alike.use (by decide) d store).lives x hx
    | some r =>
      rw [postTo_eq hlive, isAlive_modify (f := filled held p) fun _ => rfl]
      exact hx

/-- The resource with a share less. -/
def disowned (r : Resource) : Resource := { r with shareCount := r.shareCount - 1 }

/-- A share less is a change on the surface. -/
theorem superficial_disowned : Superficial disowned := fun _ => ⟨rfl, rfl, rfl, rfl⟩

/-- A share is given up, and nothing else has changed. -/
theorem disown_eq (hlive : d.live? h = some r) (hcount : 0 < r.shareCount) :
    d.disown h = d.modify h disowned := by
  simp only [disown, hlive, if_pos hcount]
  rfl

end Custody.Depot
