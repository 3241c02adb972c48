import Mathlib.Logic.Relation
import Custody.Proofs.Depot.Releasing

namespace Custody

/-!
# What hangs on a handle

A resource that is released takes with it what it holds, and what that holds, and so on.  What is
gone afterwards can be said without the order in which a sweep meets things, and so two releases one
after the other leave what either order of them leaves.

* `Depot.Hangs` -- a resource is one of the roots or held by one of them, directly or not;
* `Depot.Settles` -- what hangs on some roots is gone, and shares of some resources are given up;
* `Settles.trans`, `Settles.unique` -- **what was settled in turn is settled together**, and only
  one list of resources is left by it, in whatever order it was settled;
* `sweep_settles`, `retire_settles`, `disown_settles` -- cleanups settle.
-/

namespace Resource

/-- The resource when it was released. -/
def gone (r : Resource) : Resource := { r with alive := false, children := [] }

/-- The resource with shares less. -/
def less (n : Nat) (r : Resource) : Resource := { r with shareCount := r.shareCount - n }

@[simp] theorem contents_gone (r : Resource) : r.gone.contents = [] := rfl

@[simp] theorem contents_less (n : Nat) (r : Resource) : (r.less n).contents = r.contents := rfl

@[simp] theorem less_zero (r : Resource) : r.less 0 = r := by simp [less]

/-- Shares that are given up in two portions are given up together. -/
theorem less_less (n m : Nat) (r : Resource) : (r.less n).less m = r.less (n + m) := by
  have hsub : r.shareCount - n - m = r.shareCount - ((n + m : Nat) : Int) := by omega
  simp only [less, hsub]

end Resource

namespace Depot

open Relation

variable {d d' d'' : Depot} {h x : Handle} {r : Resource} {roots roots' queue : List Handle}

/-! ### Hanging -/

/-- The resource is one of the roots, or some live resource that hangs on them holds it. -/
def Hangs (d : Depot) (roots : List Handle) (x : Handle) : Prop :=
  ∃ root ∈ roots, ReflTransGen d.Contains root x

/-- Nothing hangs on no roots. -/
theorem not_hangs_nil (x : Handle) : ¬ d.Hangs [] x := by
  rintro ⟨root, hroot, -⟩
  exact List.not_mem_nil hroot

/-- A root hangs on itself. -/
theorem hangs_of_mem (hx : x ∈ roots) : d.Hangs roots x := ⟨x, hx, .refl⟩

/-- What a resource holds hangs where the resource hangs. -/
theorem Hangs.tail {y : Handle} (hx : d.Hangs roots x) (hy : d.Contains x y) : d.Hangs roots y := by
  obtain ⟨root, hroot, hpath⟩ := hx
  exact ⟨root, hroot, hpath.tail hy⟩

/-- What hangs on a resource that hangs on the roots hangs on the roots. -/
theorem Hangs.trans {y : Handle} (hx : d.Hangs roots x) (hy : ReflTransGen d.Contains x y) :
    d.Hangs roots y := by
  obtain ⟨root, hroot, hpath⟩ := hx
  exact ⟨root, hroot, hpath.trans hy⟩

/-- What hangs on two lists of roots hangs on one of them. -/
theorem hangs_append :
    d.Hangs (roots ++ roots') x ↔ d.Hangs roots x ∨ d.Hangs roots' x := by
  constructor
  · rintro ⟨root, hroot, hpath⟩
    rcases List.mem_append.mp hroot with hroot | hroot
    · exact .inl ⟨root, hroot, hpath⟩
    · exact .inr ⟨root, hroot, hpath⟩
  · rintro (⟨root, hroot, hpath⟩ | ⟨root, hroot, hpath⟩)
    · exact ⟨root, List.mem_append_left _ hroot, hpath⟩
    · exact ⟨root, List.mem_append_right _ hroot, hpath⟩

/-- The order of the roots does not matter. -/
theorem hangs_congr (h : ∀ root, root ∈ roots ↔ root ∈ roots') :
    d.Hangs roots x ↔ d.Hangs roots' x := by
  constructor
  · rintro ⟨root, hroot, hpath⟩
    exact ⟨root, (h root).mp hroot, hpath⟩
  · rintro ⟨root, hroot, hpath⟩
    exact ⟨root, (h root).mpr hroot, hpath⟩

/-- Where less is held, less hangs. -/
theorem Hangs.mono (hmono : ∀ a b, d'.Contains a b → d.Contains a b) (hx : d'.Hangs roots x) :
    d.Hangs roots x := by
  obtain ⟨root, hroot, hpath⟩ := hx
  exact ⟨root, hroot, ReflTransGen.mono hmono _ _ hpath⟩

/-! ### Settling -/

/-- What hangs on the roots is gone, each of the shares is given up, and nothing else has
    changed. -/
structure Settles (roots shared : List Handle) (d d' : Depot) : Prop where
  gone : ∀ x, d.Hangs roots x →
    d'.find? x = (d.find? x).map fun r => r.gone.less (shared.count x)
  rest : ∀ x, ¬ d.Hangs roots x →
    d'.find? x = (d.find? x).map fun r => r.less (shared.count x)

namespace Settles

variable {shared shared' : List Handle}

/-- Without roots or shares nothing is settled. -/
theorem refl (d : Depot) : Settles [] [] d d where
  gone x hx := absurd hx (not_hangs_nil x)
  rest x _ := by simp

/-- What is gone holds nothing, and the rest holds what it held. -/
theorem contains_iff (h : Settles roots shared d d') {a b : Handle} :
    d'.Contains a b ↔ d.Contains a b ∧ ¬ d.Hangs roots a := by
  unfold Contains
  by_cases ha : d.Hangs roots a
  · rw [h.gone a ha]
    constructor
    · rintro ⟨r, hr, hmem⟩
      obtain ⟨r', -, rfl⟩ := Option.map_eq_some_iff.mp hr
      rw [Resource.contents_less, Resource.contents_gone] at hmem
      exact absurd hmem List.not_mem_nil
    · exact fun hcontains => absurd ha hcontains.2
  · rw [h.rest a ha]
    constructor
    · rintro ⟨r, hr, hmem⟩
      obtain ⟨r', hr', rfl⟩ := Option.map_eq_some_iff.mp hr
      exact ⟨⟨r', hr', hmem⟩, ha⟩
    · rintro ⟨⟨r, hr, hmem⟩, -⟩
      exact ⟨_, Option.map_eq_some_iff.mpr ⟨r, hr, rfl⟩, hmem⟩

/-- What hangs on more roots hangs on the first ones, or on the others when the first ones and what
    hangs on them are gone. -/
theorem hangs_append_iff (h : Settles roots shared d d') :
    d.Hangs (roots ++ roots') x ↔ d.Hangs roots x ∨ d'.Hangs roots' x := by
  have hmono : ∀ a b, d'.Contains a b → d.Contains a b := fun a b hab => (h.contains_iff.mp hab).1
  rw [hangs_append]
  constructor
  · rintro (hx | ⟨root, hroot, hpath⟩)
    · exact .inl hx
    · -- A path either stays clear of what is gone, or leads to something that is gone with it.
      induction hpath with
      | refl => exact .inr (hangs_of_mem hroot)
      | tail _ hstep ih =>
        rename_i b c _
        rcases ih with hb | hb
        · exact .inl (hb.tail hstep)
        · by_cases hgone : d.Hangs roots b
          · exact .inl (hgone.tail hstep)
          · exact .inr (hb.tail (h.contains_iff.mpr ⟨hstep, hgone⟩))
  · exact fun hx => hx.imp id (Hangs.mono hmono)

/-- **What was settled in turn is settled together.** -/
theorem trans (h : Settles roots shared d d') (h' : Settles roots' shared' d' d'') :
    Settles (roots ++ roots') (shared ++ shared') d d'' where
  gone x hx := by
    rw [h.hangs_append_iff] at hx
    rw [List.count_append]
    by_cases hfirst : d.Hangs roots x
    · have hd' := h.gone x hfirst
      by_cases hsecond : d'.Hangs roots' x
      · rw [h'.gone x hsecond, hd', Option.map_map]
        exact congrArg (Option.map · _) (funext fun r => Resource.less_less _ _ r.gone)
      · rw [h'.rest x hsecond, hd', Option.map_map]
        exact congrArg (Option.map · _) (funext fun r => Resource.less_less _ _ r.gone)
    · rw [h'.gone x (hx.resolve_left hfirst), h.rest x hfirst, Option.map_map]
      exact congrArg (Option.map · _) (funext fun r => Resource.less_less _ _ r.gone)
  rest x hx := by
    rw [h.hangs_append_iff, not_or] at hx
    rw [List.count_append, h'.rest x hx.2, h.rest x hx.1, Option.map_map]
    exact congrArg (Option.map · _) (funext fun r => Resource.less_less _ _ r)

/-- **The order in which things were settled does not matter.** -/
theorem unique (h : Settles roots shared d d') (h' : Settles roots' shared' d d'')
    (hroots : roots.Perm roots') (hshared : shared.Perm shared') :
    d'.resources = d''.resources := by
  have hsame : ∀ x, d'.find? x = d''.find? x := by
    intro x
    have hhangs : d.Hangs roots x ↔ d.Hangs roots' x := hangs_congr fun _ => hroots.mem_iff
    by_cases hx : d.Hangs roots x
    · rw [h.gone x hx, h'.gone x (hhangs.mp hx), hshared.count_eq]
    · rw [h.rest x hx, h'.rest x (mt hhangs.mpr hx), hshared.count_eq]
  refine List.ext_getElem? fun n => ?_
  rw [← find?_ofNumber_succ, ← find?_ofNumber_succ, hsame]

end Settles

/-! ### Cleanups -/

/-- A resource that is not buried is found again as it was, and a buried one is gone. -/
theorem find?_bury_eq (hd : d.WellFormed) (hlive : d.live? h = some r) (x : Handle) :
    (d.bury h r).find? x =
      if x = h ∨ x ∈ r.memberHandles then (d.find? x).map Resource.gone else d.find? x := by
  obtain ⟨hfound, -⟩ := live?_eq_some_iff.mp hlive
  rw [find?_bury]
  cases hx : d.find? x with
  | none => simp
  | some r₀ =>
    by_cases hself : x = h
    · simp [hself, Resource.gone]
    · by_cases hmember : x ∈ r.memberHandles
      · -- A tensor inside an array has no children to lose.
        obtain ⟨t, ht, hkind⟩ := hd.tensors h r hfound x hmember
        obtain rfl : r₀ = t := Option.some.inj (hx.symm.trans ht)
        have hchildren : r₀.children = [] := hd.stores x r₀ hx (by simp [hkind])
        simp [hself, hmember, Resource.gone, hchildren]
      · simp [hself, hmember]

/-- When a resource is buried, it holds nothing any more, and the others hold what they held. -/
theorem contains_bury (hd : d.WellFormed) (hlive : d.live? h = some r) {a b : Handle} :
    (d.bury h r).Contains a b ↔ d.Contains a b ∧ a ≠ h := by
  obtain ⟨hfound, -⟩ := live?_eq_some_iff.mp hlive
  unfold Contains
  rw [find?_bury_eq hd hlive]
  by_cases ha : a = h
  · simp [ha]
  · by_cases hmember : a ∈ r.memberHandles
    · -- The tensors inside an array held nothing before.
      have hnothing := hd.contents_eq_nil hfound a hmember
      simp only [hmember, or_true, if_true, Option.map_eq_some_iff]
      constructor
      · rintro ⟨r', ⟨r₀, -, rfl⟩, hmem⟩
        exact absurd hmem List.not_mem_nil
      · rintro ⟨⟨r₀, hr₀, hmem⟩, -⟩
        rw [hnothing r₀ hr₀] at hmem
        exact absurd hmem List.not_mem_nil
    · simp [ha, hmember]

/-- What hangs on a resource and a queue is the resource, its members, and what hangs on its
    children and the queue when it is buried. -/
theorem hangs_bury (hd : d.WellFormed) (hlive : d.live? h = some r) :
    d.Hangs (h :: queue) x ↔
      x = h ∨ x ∈ r.memberHandles ∨ (d.bury h r).Hangs (r.children ++ queue) x := by
  obtain ⟨hfound, halive⟩ := live?_eq_some_iff.mp hlive
  have hcontents : ∀ y, d.Contains h y ↔ y ∈ r.children ∨ y ∈ r.memberHandles := by
    intro y
    unfold Contains
    simp [hfound, Resource.contents, halive]
  have hmono : ∀ a b, (d.bury h r).Contains a b → d.Contains a b :=
    fun a b hab => ((contains_bury hd hlive).mp hab).1
  constructor
  · rintro ⟨root, hroot, hpath⟩
    induction hpath with
    | refl =>
      rcases List.mem_cons.mp hroot with rfl | hroot
      · exact .inl rfl
      · exact .inr (.inr (hangs_of_mem (List.mem_append_right _ hroot)))
    | tail _ hstep ih =>
      rename_i b c _
      by_cases hb : b = h
      · -- The path comes from the resource itself.
        subst hb
        rcases (hcontents c).mp hstep with hchild | hmember
        · exact .inr (.inr (hangs_of_mem (List.mem_append_left _ hchild)))
        · exact .inr (.inl hmember)
      · rcases ih with rfl | hmember | hhangs
        · exact absurd rfl hb
        · -- The tensors inside an array hold nothing.
          obtain ⟨t, ht, hmem⟩ := hstep
          rw [hd.contents_eq_nil hfound b hmember t ht] at hmem
          exact absurd hmem List.not_mem_nil
        · exact .inr (.inr (hhangs.tail ((contains_bury hd hlive).mpr ⟨hstep, hb⟩)))
  · have hself : d.Hangs (h :: queue) h := hangs_of_mem List.mem_cons_self
    rintro (rfl | hmember | ⟨root, hroot, hpath⟩)
    · exact hself
    · exact hself.tail ((hcontents x).mpr (.inr hmember))
    · have hpath : ReflTransGen d.Contains root x := ReflTransGen.mono hmono _ _ hpath
      rcases List.mem_append.mp hroot with hchild | hqueue
      · exact (hself.tail ((hcontents root).mpr (.inl hchild))).trans hpath
      · exact ⟨root, List.mem_cons_of_mem _ hqueue, hpath⟩

/-- **A sweep settles its queue**, if it has steps enough. -/
theorem sweep_settles {claims : Handle → Nat} {fuel : Nat}
    (hd : d.Tidy fun x => claims x + queue.count x)
    (hfuel : queue.length + d.childCount ≤ fuel) :
    Settles queue [] d (sweep fuel queue d) := by
  induction fuel generalizing queue d with
  | zero =>
    obtain rfl : queue = [] := List.length_eq_zero_iff.mp (by omega)
    exact .refl d
  | succ fuel ih =>
    cases queue with
    | nil => exact .refl d
    | cons h queue =>
      obtain ⟨r, hlive⟩ := hd.exists_live
      obtain ⟨hclaims, henough⟩ := sweep_step hd hlive hfuel
      have hrest := ih hclaims henough
      simp only [sweep, hlive]
      constructor
      · intro x hx
        rw [hangs_bury hd.toWellFormed hlive] at hx
        by_cases hlater : (d.bury h r).Hangs (r.children ++ queue) x
        · -- What is buried already does not change when it is released again.
          rw [hrest.gone x hlater, find?_bury_eq hd.toWellFormed hlive]
          split
          · rw [Option.map_map]
            rfl
          · rfl
        · have hburied : x = h ∨ x ∈ r.memberHandles :=
            hx.imp id fun hx => hx.resolve_right hlater
          rw [hrest.rest x hlater, find?_bury_eq hd.toWellFormed hlive, if_pos hburied,
            Option.map_map]
          rfl
      · intro x hx
        rw [hangs_bury hd.toWellFormed hlive, not_or, not_or] at hx
        rw [hrest.rest x hx.2.2, find?_bury_eq hd.toWellFormed hlive, if_neg]
        exact not_or.mpr ⟨hx.1, hx.2.1⟩

/-- A claimed resource is released with what hangs on it. -/
theorem retire_settles {claims : Handle → Nat} (hd : d.Tidy fun x => claims x + [h].count x)
    (operation : String) : Settles [h] [] d (d.retire operation h) := by
  obtain ⟨r, hlive⟩ := hd.exists_live
  rw [retire_eq_sweep hlive]
  refine sweep_settles hd ?_
  rw [List.length_singleton]
  omega

/-- A share that is given up is the only thing that changes. -/
theorem disown_settles (d : Depot) (h : Handle) : Settles [] [h] d (d.modify h disowned) where
  gone x hx := absurd hx (not_hangs_nil x)
  rest x _ := by
    rw [find?_modify, List.count_singleton]
    by_cases hx : x = h
    · rw [if_pos hx, hx, if_pos (beq_self_eq_true h)]
      rfl
    · simp [hx, Ne.symm hx]

end Depot

end Custody
