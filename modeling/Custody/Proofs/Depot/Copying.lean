import Custody.Proofs.Depot.Tidy

namespace Custody.Depot

/-!
# Copying keeps a depot tidy

A copy holds copies of its own, so nobody's claim is touched by one.

* `Depot.MakesAll` -- some resources were made, which are claimed;
* `duplicateTo_makesLike` -- **a copy is a new resource of the same kind**.
-/

variable {claims : Handle → Nat} {d : Depot}

/-- Some resources were made, which are claimed, and nothing else has changed. -/
structure MakesAll (claims : Handle → Nat) (d : Depot) (made : List Handle × Depot) : Prop
    extends d.Grows made.2 where
  tidy : made.2.Tidy fun x => claims x + made.1.count x
  roots : ∀ x, made.2.Root x → x ∈ made.1 ∨ d.Root x

/-- Nothing was made, or a resource of the kind of another one. -/
def MakesLike (claims : Handle → Nat) (source : Handle) (d : Depot)
    (made : Option Handle × Depot) : Prop :=
  match made.1 with
  | none => d.Alike made.2
  | some copy => ∃ r, d.find? source = some r ∧ Makes claims r.kind d (copy, made.2)

/-- The copies of all that a resource holds are made one after the other, each claimed once. -/
theorem copyEach_makesAll {operation : String} {fuel : Nat}
    (hcopy : ∀ (claims : Handle → Nat) (h : Handle) (d : Depot), d.Tidy claims →
      MakesLike claims h d (duplicateTo operation fuel h d))
    (children : List Handle) (hd : d.Tidy claims) :
    MakesAll claims d (copyEach operation fuel children d) := by
  -- Copies that are made already count as claimed while the next one is made.
  induction children generalizing claims d with
  | nil => exact ⟨.refl d, hd.mono fun _ => Nat.le_refl _, fun x hx => .inr hx⟩
  | cons child rest ih =>
    have hfirst := hcopy claims child d hd
    unfold MakesLike at hfirst
    cases hmade : (duplicateTo operation fuel child d).1 with
    | none =>
      rw [hmade] at hfirst
      have hrest := ih (hfirst.tidy _ hd)
      simp only [copyEach, hmade, Option.toList_none, List.nil_append]
      exact ⟨hfirst.toGrows.trans hrest.toGrows, hrest.tidy,
        fun x hx => (hrest.roots x hx).imp id (hfirst.roots x)⟩
    | some copy =>
      rw [hmade] at hfirst
      obtain ⟨r, -, hfirst⟩ := hfirst
      have hrest := ih hfirst.tidy
      simp only [copyEach, hmade, Option.toList_some, List.cons_append, List.nil_append]
      refine ⟨hfirst.toGrows.trans hrest.toGrows, hrest.tidy.mono fun x => ?_, fun x hx => ?_⟩
      · simp only [List.count_cons, List.count_nil]
        omega
      · rcases hrest.roots x hx with hx | hx
        · exact .inl (List.mem_cons_of_mem _ hx)
        · exact (hfirst.roots x hx).imp (fun h => by simp [h]) id

/-- **A copy is a new resource of the same kind**, whatever it holds. -/
theorem duplicateTo_makesLike {operation : String}
    (hop : releasing.contains operation = false) (fuel : Nat) (claims : Handle → Nat)
    (h : Handle) (d : Depot) (hd : d.Tidy claims) :
    MakesLike claims h d (duplicateTo operation fuel h d) := by
  induction fuel generalizing claims h d with
  | zero => exact .refl d
  | succ fuel ih =>
    rw [duplicateTo_succ]
    cases hlive : d.live? h with
    | none => exact .use hop d h
    | some r =>
      obtain ⟨hfound, halive⟩ := live?_eq_some_iff.mp hlive
      by_cases hsparse : r.kind = .sparseArray
      · simp only [hsparse, ↓reduceIte]
        exact ⟨r, hfound, hsparse ▸ allocSparse_makes hd _ _⟩
      · simp only [hsparse, ↓reduceIte]
        -- The copy takes over the claims to the copies of what its source holds.
        have hheld := copyEach_makesAll ih r.children hd
        generalize hcopies : copyEach operation fuel r.children d = copied at hheld
        let copy : Resource := { r with shareCount := 0, children := copied.1 }
        have hmembers : r.members = none := hd.arrays h r hfound hsparse
        have hcontents : copy.contents = copied.1 := by
          simp [copy, Resource.contents, halive, Resource.memberHandles, hmembers]
        refine ⟨r, hfound, hheld.toGrows.trans (grows_alloc (r := copy) halive),
          hheld.keeps.find?_eq_none (find?_nextHandle _),
          tidy_alloc (r := copy) ?_ halive (fun _ => hmembers) ?_ ?_, ?_, ?_⟩
        · rw [hcontents]
          exact hheld.tidy
        · simp [copy, Resource.memberHandles, hmembers]
        · -- Where the source is no store it holds nothing, so nothing was copied.
          intro hstore
          rw [hd.stores h r hfound hstore] at hcopies
          show copied.1 = []
          rw [← hcopies]
          rfl
        · exact ⟨copy, find?_alloc_self _ copy, rfl⟩
        · intro x hx
          rcases root_alloc (r := copy) halive hx with hx | ⟨hx, hnot⟩
          · exact .inl hx
          · rw [hcontents] at hnot
            exact .inr ((hheld.roots x hx).resolve_left hnot)

end Custody.Depot
