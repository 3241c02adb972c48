import Mathlib.Data.Fintype.Card
import Mathlib.Data.Fintype.EquivFin
import Mathlib.Logic.Relation
import Custody.Proofs.Depot.Releasing

namespace Custody.Depot

open Relation

/-!
# Nested stores

As long as no store contains itself, everything that is alive hangs on some root.  Releasing only
takes away, so it does not put a store into itself.

* `Depot.Acyclic` -- no resource contains itself, directly or through others;
* `Depot.root_above` -- **every live resource is a root or hangs on one**;
* `Depot.Shrinks` -- nothing is held that was not held before; `shrinks_answer` says so of
  cleanups.
-/

variable {d d' d'' : Depot} {h x : Handle}

/-- No resource contains itself, directly or through others. -/
def Acyclic (d : Depot) : Prop := ∀ h, ¬ TransGen d.Contains h h

/-! ### Roots -/

/-- What holds something is alive. -/
theorem isAlive_of_contains (hcontains : d.Contains h x) : d.isAlive h := by
  obtain ⟨r, hfound, hmem⟩ := hcontains
  refine isAlive_iff.mpr ⟨r, hfound, ?_⟩
  cases halive : r.alive with
  | false => simp [Resource.contents, halive] at hmem
  | true => rfl

/-- There are finitely many resources. -/
theorem finite_found (d : Depot) : Finite {h : Handle // ∃ r, d.find? h = some r} := by
  have hplace : ∀ h : {h : Handle // ∃ r, d.find? h = some r},
      ∃ n, n < d.resources.length ∧ h.1 = .ofNumber (n + 1) := by
    rintro ⟨h, r, hr⟩
    obtain ⟨n, rfl, hn⟩ := found_cases hr
    exact ⟨n, (List.getElem?_eq_some_iff.mp hn).1, rfl⟩
  choose place hlt heq using hplace
  let number h : Fin d.resources.length := ⟨place h, hlt h⟩
  refine Finite.of_injective number fun h h' hsame => ?_
  have hsame : place h = place h' := Fin.mk.inj hsame
  exact Subtype.ext (by rw [heq h, heq h', hsame])

/-- A depot is acyclic if each resource holds only what was made before it. -/
theorem acyclic_of_made_before
    (hd : ∀ i, ∀ _ : i < d.resources.length, ∀ x ∈ d.resources[i].contents, x.number ≤ i) :
    d.Acyclic := by
  -- Numbers fall along every step, and so along every chain of steps.
  have hstep : ∀ h x, d.Contains h x → x.number < h.number := by
    rintro h x ⟨r, hr, hmem⟩
    obtain ⟨n, rfl, hn⟩ := found_cases hr
    obtain ⟨hlt, rfl⟩ := List.getElem?_eq_some_iff.mp hn
    have := hd n hlt x hmem
    rw [Handle.number_ofNumber]
    omega
  have htrans : ∀ h x, TransGen d.Contains h x → x.number < h.number := fun h x hx => by
    induction hx with
    | single hx => exact hstep _ _ hx
    | tail _ hx ih => exact (hstep _ _ hx).trans ih
  exact fun h hh => Nat.lt_irrefl _ (htrans h h hh)

/-- **Every live resource is a root or hangs on one.** -/
theorem root_above (hacyclic : d.Acyclic) (hx : d.isAlive x) :
    ∃ root, d.Root root ∧ ReflTransGen d.Contains root x := by
  -- The induction goes from a resource to one that holds it.  It comes to an end because there
  -- are finitely many resources and none contains itself.
  let below (h h' : {h : Handle // ∃ r, d.find? h = some r}) : Prop := TransGen d.Contains h.1 h'.1
  have : IsTrans _ below := ⟨fun _ _ _ => TransGen.trans⟩
  have : Std.Irrefl below := ⟨fun h => hacyclic h.1⟩
  have := finite_found d
  have hwf : WellFounded below := Finite.wellFounded_of_trans_of_irrefl below
  suffices hall : ∀ y : {h : Handle // ∃ r, d.find? h = some r}, d.isAlive y.1 →
      ∃ root, d.Root root ∧ ReflTransGen d.Contains root y.1 by
    obtain ⟨r, hr, -⟩ := isAlive_iff.mp hx
    exact hall ⟨x, r, hr⟩ hx
  intro y
  induction y using hwf.induction with
  | _ y ih =>
    intro hy
    rcases Nat.eq_zero_or_pos (d.grip y.1) with hgrip | hgrip
    · exact ⟨y.1, ⟨hy, hgrip⟩, .refl⟩
    · obtain ⟨h, hcontains⟩ := grip_pos_iff.mp hgrip
      have halive := isAlive_of_contains hcontains
      obtain ⟨r, hr, -⟩ := isAlive_iff.mp halive
      obtain ⟨root, hroot, habove⟩ := ih ⟨h, r, hr⟩ (.single hcontains) halive
      exact ⟨root, hroot, habove.tail hcontains⟩

/-! ### Releasing -/

/-- Nothing is held that was not held before. -/
def Shrinks (d d' : Depot) : Prop := ∀ h x, d'.Contains h x → d.Contains h x

namespace Shrinks

/-- A depot that stays the same holds nothing new. -/
theorem refl (d : Depot) : d.Shrinks d := fun _ _ h => h

/-- What shrinks twice has shrunk. -/
theorem trans (h : d.Shrinks d') (h' : d'.Shrinks d'') : d.Shrinks d'' :=
  fun y x hcontains => h y x (h' y x hcontains)

/-- With the same resources nothing new is held. -/
theorem of_resources_eq (h : d'.resources = d.resources) : d.Shrinks d' := by
  rintro y x ⟨r, hr, hmem⟩
  exact ⟨r, by rwa [← find?_of_resources_eq h], hmem⟩

/-- A depot that shrinks stays acyclic. -/
theorem acyclic (h : d.Shrinks d') (hacyclic : d.Acyclic) : d'.Acyclic :=
  fun y hy => hacyclic y (TransGen.mono h y y hy)

end Shrinks

/-- A resource that came to no life, child or member holds at most what it held. -/
theorem contents_subset {r r' : Resource} (halive : r'.alive → r.alive)
    (hchildren : ∀ m ∈ r'.children, m ∈ r.children) (hmembers : r'.members = r.members) :
    ∀ m ∈ r'.contents, m ∈ r.contents := by
  intro m hm
  have hsame : r'.memberHandles = r.memberHandles := by
    simp only [Resource.memberHandles, hmembers]
  cases hr' : r'.alive with
  | false => simp [Resource.contents, hr'] at hm
  | true =>
    simp only [Resource.contents, hr', halive hr', ↓reduceIte, List.mem_append, hsame] at hm ⊢
    exact hm.imp (hchildren m) id

/-- A burial puts nothing into anything. -/
theorem shrinks_bury (d : Depot) (h : Handle) (r : Resource) : d.Shrinks (d.bury h r) := by
  rintro y x ⟨r', hr', hmem⟩
  rw [find?_bury] at hr'
  obtain ⟨r₀, hr₀, rfl⟩ := Option.map_eq_some_iff.mp hr'
  refine ⟨r₀, hr₀, ?_⟩
  refine contents_subset ?_ ?_ ?_ x hmem
  · intro halive
    simp only [Bool.and_eq_true] at halive
    exact halive.1
  · intro m hm
    by_cases hy : y = h
    · simp [hy] at hm
    · simpa [hy] using hm
  · rfl

/-- A sweep puts nothing into anything. -/
theorem shrinks_sweep (fuel : Nat) (queue : List Handle) (d : Depot) :
    d.Shrinks (sweep fuel queue d) := by
  induction fuel generalizing queue d with
  | zero => exact .refl d
  | succ fuel ih =>
    cases queue with
    | nil => exact .refl d
    | cons h queue =>
      simp only [sweep]
      split
      · exact Shrinks.trans (.of_resources_eq (d.use_resources _ h)) (ih _ _)
      · next r _ => exact (shrinks_bury d h r).trans (ih _ _)

/-- A release puts nothing into anything. -/
theorem shrinks_retire (d : Depot) (operation : String) (h : Handle) :
    d.Shrinks (d.retire operation h) := by
  unfold retire
  split
  · exact .of_resources_eq (d.use_resources operation h)
  · next r _ => exact (shrinks_bury d h r).trans (shrinks_sweep _ _ _)

/-- Giving up a share puts nothing into anything. -/
theorem shrinks_disown (d : Depot) (h : Handle) : d.Shrinks (d.disown h) := by
  unfold disown
  split
  · exact .of_resources_eq (d.use_resources _ h)
  · split
    · rintro y x ⟨r', hr', hmem⟩
      obtain ⟨r, hr, rfl⟩ := find?_modify_eq_some.mp hr'
      refine ⟨r, hr, ?_⟩
      split at hmem <;> exact hmem
    · exact .of_resources_eq rfl

/-- A cleanup only takes away. -/
theorem shrinks_answer {c : Call} (hc : c.isCleanup) (d : Depot) : d.Shrinks (d.answer c).2 := by
  cases c with
  | free k h => exact shrinks_retire d _ h
  | disown k h => exact shrinks_disown d h
  | _ => cases hc

end Custody.Depot
