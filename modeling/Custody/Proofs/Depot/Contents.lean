import Mathlib.Algebra.GroupWithZero.Nat
import Custody.Proofs.Depot.Forms

namespace Custody

/-!
# What resources hold

A live data store holds the containers that were pushed into it, and a live sparse array its two
tensors.  How often a handle is held anywhere is a sum over all resources, which each change of
a depot changes in one place.

* `Resource.contents` -- what a resource holds;
* `Depot.total` -- a sum over all resources; `total_alloc`, `total_modify`;
* `Depot.grip` -- how often live resources hold a handle;
* `Depot.Contains` -- the same as a relation between handles; `grip_eq_zero_iff`,
  `eq_of_contains`;
* `find?_bury`, `grip_bury` -- what is left when a resource is marked as dead.
-/

/-- What a resource holds.  A resource that is not alive holds nothing. -/
def Resource.contents (r : Resource) : List Handle :=
  if r.alive then r.children ++ r.memberHandles else []

/-- The resource marked as dead. -/
def Resource.dead (r : Resource) : Resource := { r with alive := false }

@[simp] theorem Resource.contents_dead (r : Resource) : r.dead.contents = [] := rfl

namespace Depot

variable {d : Depot} {h : Handle} {r : Resource}

/-! ### Sums over all resources -/

/-- The sum of a number over all resources. -/
def total (d : Depot) (g : Resource → Nat) : Nat := (d.resources.map g).sum

/-- A resource stands somewhere among the others, and a change of it changes nothing else. -/
theorem split_of_find? (hfound : d.find? h = some r) :
    ∃ before after, d.resources = before ++ r :: after ∧
      ∀ f, (d.modify h f).resources = before ++ f r :: after := by
  obtain ⟨n, rfl, hn⟩ := found_cases hfound
  obtain ⟨hlt, hr⟩ := List.getElem?_eq_some_iff.mp hn
  refine ⟨d.resources.take n, d.resources.drop (n + 1), ?_, fun f => ?_⟩
  · rw [← hr]
    simp
  · simp only [modify, hfound, Option.isSome_some, ↓reduceIte, Handle.number_ofNumber,
      Nat.add_one_sub_one]
    rw [List.modify_eq_take_cons_drop hlt, hr]

/-- A sum depends on the resources alone. -/
theorem total_eq_of_resources_eq {d' : Depot} (h : d'.resources = d.resources)
    (g : Resource → Nat) : d'.total g = d.total g := by rw [total, h, total]

/-- A new resource adds its own number to the sum. -/
theorem total_alloc (d : Depot) (r : Resource) (g : Resource → Nat) :
    (d.alloc r).2.total g = d.total g + g r := by simp [total, alloc]

/-- A change of one resource changes the sum by the difference that it makes there. -/
theorem total_modify (hfound : d.find? h = some r) (f : Resource → Resource)
    (g : Resource → Nat) : (d.modify h f).total g + g r = d.total g + g (f r) := by
  obtain ⟨before, after, hd, hmodify⟩ := split_of_find? hfound
  simp only [total, hd, hmodify f, List.map_append, List.map_cons, List.sum_append,
    List.sum_cons]
  omega

/-- A summand is at most the sum. -/
theorem le_total (hfound : d.find? h = some r) (g : Resource → Nat) : g r ≤ d.total g := by
  obtain ⟨before, after, hd, -⟩ := split_of_find? hfound
  simp only [total, hd, List.map_append, List.map_cons, List.sum_append, List.sum_cons]
  omega

/-- A sum that is not zero has a part that is not. -/
theorem exists_of_total_pos {g : Resource → Nat} (hpos : 0 < d.total g) :
    ∃ h r, d.find? h = some r ∧ 0 < g r := by
  obtain ⟨n, hn, hne⟩ := List.sum_pos_iff_exists_pos_nat.mp hpos
  obtain ⟨r, hr, rfl⟩ := List.mem_map.mp hn
  obtain ⟨i, hi, rfl⟩ := List.mem_iff_getElem.mp hr
  exact ⟨.ofNumber (i + 1), d.resources[i], by simp [find?_ofNumber_succ, hi], hne⟩

/-! ### Holding -/

/-- How often live resources hold a handle. -/
def grip (d : Depot) (x : Handle) : Nat := d.total fun r => r.contents.count x

/-- A live resource holds a handle. -/
def Contains (d : Depot) (h x : Handle) : Prop := ∃ r, d.find? h = some r ∧ x ∈ r.contents

/-- A handle that is held at all is held by some live resource. -/
theorem grip_pos_iff {x : Handle} : 0 < d.grip x ↔ ∃ h, d.Contains h x := by
  constructor
  · intro hpos
    obtain ⟨h, r, hfound, hcount⟩ := exists_of_total_pos hpos
    exact ⟨h, r, hfound, List.count_pos_iff.mp hcount⟩
  · rintro ⟨h, r, hfound, hmem⟩
    exact Nat.lt_of_lt_of_le (List.count_pos_iff.mpr hmem)
      (le_total hfound fun r => r.contents.count x)

/-- A handle is not held if no live resource holds it. -/
theorem grip_eq_zero_iff {x : Handle} : d.grip x = 0 ↔ ∀ h, ¬ d.Contains h x := by
  rw [← not_exists, ← grip_pos_iff]
  omega

/-- What is held once is held in one place. -/
theorem eq_of_contains {a b x : Handle} (hgrip : d.grip x ≤ 1) (ha : d.Contains a x)
    (hb : d.Contains b x) : a = b := by
  refine Decidable.byContradiction fun hne => ?_
  obtain ⟨ra, hfounda, hmema⟩ := ha
  obtain ⟨rb, hfoundb, hmemb⟩ := hb
  -- With the one holder dead, the other one still counts.
  have hmodify := total_modify hfounda Resource.dead fun r => r.contents.count x
  have hother : (d.modify a Resource.dead).find? b = some rb := by
    rw [find?_modify, if_neg (Ne.symm hne), hfoundb]
  have hrest := le_total hother fun r => r.contents.count x
  have hposa := List.count_pos_iff.mpr hmema
  have hposb := List.count_pos_iff.mpr hmemb
  simp only [Resource.contents_dead, List.count_nil] at hmodify
  unfold grip at hgrip
  omega

/-! ### Marking as dead -/

/-- Marking resources as dead one after the other marks all of them. -/
theorem find?_foldl_dead (ms : List Handle) (d : Depot) (x : Handle) :
    (ms.foldl (fun d m => d.modify m Resource.dead) d).find? x =
      (d.find? x).map fun r => if x ∈ ms then r.dead else r := by
  induction ms generalizing d with
  | nil => simp
  | cons m ms ih =>
    rw [List.foldl_cons, ih, find?_modify]
    by_cases hx : x = m
    · subst hx
      cases d.find? x <;> simp [Resource.dead]
    · simp [hx]

/-- What a burial leaves of each resource. -/
theorem find?_bury (d : Depot) (h : Handle) (r : Resource) (x : Handle) :
    (d.bury h r).find? x = (d.find? x).map fun r' =>
      { r' with
        alive := r'.alive && decide (x ≠ h ∧ x ∉ r.memberHandles)
        children := if x = h then [] else r'.children } := by
  -- Nothing says here that a resource is no member of itself, so both changes are composed.
  have hbury : d.bury h r = r.memberHandles.foldl (fun d m => d.modify m Resource.dead)
      (d.modify h fun r => { r with alive := false, children := [] }) := rfl
  rw [hbury, find?_foldl_dead, find?_modify]
  by_cases hx : x = h
  · subst hx
    cases d.find? x <;> simp [Resource.dead]
  · cases d.find? x with
    | none => simp [hx]
    | some r' => by_cases hmem : x ∈ r.memberHandles <;> simp [hx, hmem, Resource.dead]

/-- A sum is kept by marking resources as dead that count the same then. -/
theorem total_foldl_dead {g : Resource → Nat} {ms : List Handle}
    (hg : ∀ m ∈ ms, ∀ r, d.find? m = some r → g r.dead = g r) :
    (ms.foldl (fun d m => d.modify m Resource.dead) d).total g = d.total g := by
  induction ms generalizing d with
  | nil => rfl
  | cons m ms ih =>
    obtain ⟨hm, hms⟩ := List.forall_mem_cons.mp hg
    have hstep : (d.modify m Resource.dead).total g = d.total g := by
      cases hfound : d.find? m with
      | none => simp [modify, hfound]
      | some r =>
        have := total_modify hfound Resource.dead g
        have := hm r hfound
        omega
    rw [List.foldl_cons, ih, hstep]
    -- A member that occurs twice is dead already when it is met again.
    intro m' hm' r' hfound
    rw [find?_modify] at hfound
    split at hfound
    · obtain ⟨r, hr, rfl⟩ := Option.map_eq_some_iff.mp hfound
      rfl
    · exact hms m' hm' r' hfound

/-- A burial takes the number of what is buried from the sum, as long as its tensors count the same
    dead. -/
theorem total_bury {g : Resource → Nat} (hfound : d.find? h = some r)
    (hg : ∀ m ∈ r.memberHandles, ∀ t, d.find? m = some t → g t.dead = g t)
    (hdead : ∀ r : Resource, g { r with alive := false, children := [] } = 0) :
    (d.bury h r).total g + g r = d.total g := by
  have hmodify := total_modify hfound (fun r => { r with alive := false, children := [] }) g
  have hbury : (d.bury h r).total g =
      (d.modify h fun r => { r with alive := false, children := [] }).total g := by
    refine total_foldl_dead fun m hm t ht => ?_
    rw [find?_modify] at ht
    split at ht
    · obtain ⟨t, -, rfl⟩ := Option.map_eq_some_iff.mp ht
      rfl
    · exact hg m hm t ht
  rw [hdead] at hmodify
  omega

/-- What a buried resource held is held no more, and everything else as often as before. -/
theorem grip_bury (hfound : d.find? h = some r)
    (hmembers : ∀ m ∈ r.memberHandles, ∀ t, d.find? m = some t → t.contents = []) (x : Handle) :
    (d.bury h r).grip x + r.contents.count x = d.grip x := by
  refine total_bury (g := fun r => r.contents.count x) hfound (fun m hm t ht => ?_) fun _ => rfl
  simp [hmembers m hm t ht]

/-- The children in a depot are counted resource by resource. -/
theorem childCount_eq_total (d : Depot) : d.childCount = d.total fun r => r.children.length := by
  simp [childCount, total, List.length_flatMap]

/-- Each burial leaves fewer containers in stores. -/
theorem childCount_bury (hfound : d.find? h = some r) :
    (d.bury h r).childCount + r.children.length = d.childCount := by
  rw [childCount_eq_total, childCount_eq_total]
  exact total_bury (g := fun r => r.children.length) hfound (fun _ _ _ _ => rfl) fun _ => rfl

end Depot

end Custody
