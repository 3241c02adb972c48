import Custody.Proofs.Atomicity
import Custody.Proofs.Depot.Forms
import Custody.Proofs.Disturbance

namespace Custody

/-!
# A depot that grants nothing keeps everything

A call that makes a resource ends with a handle or with a status.  With a status the resources
of the depot are those from before, whatever failure was asked for.

* `Depot.Settled` -- a handle that is not null, or the resources from before;
* `Depot.make_settled` -- every call that makes a resource is settled;
* `Host.Walks.resources_eq` -- steps by which nothing changed hands leave the resources alone;
* `Operation.failure_is_atomic` -- so an operation that fails leaves caller and depot alone.
-/

namespace Depot

/-! ### Making resources -/

/-- The call ended with a handle that is not null, or with a status and the resources from
    before. -/
def Settled (d : Depot) (made : Except Int Handle × Depot) : Prop :=
  match made.1 with
  | .ok h => h ≠ .null
  | .error _ => made.2.resources = d.resources

variable {d : Depot}

/-- What a call does to its source's resources before it makes anything does not matter. -/
theorem Settled.of_resources_eq {d' : Depot} {made : Except Int Handle × Depot}
    (h : d'.Settled made) (hd : d'.resources = d.resources) : d.Settled made := by
  unfold Settled at h ⊢
  split at h
  · exact h
  · exact h.trans hd

/-- A resource is made, or refused with the resources as they were. -/
theorem create_settled (d : Depot) (r : Resource) : d.Settled (d.create r) := by
  unfold create
  split
  · rfl
  · exact d.nextHandle_ne_null

/-- A sparse array stands under a handle that is not null. -/
theorem allocSparse_ne_null (d : Depot) (typeCode : Int) (dims : List Int) :
    (d.allocSparse typeCode dims).1 ≠ .null := nextHandle_ne_null _

/-- A copy is made, or refused with the resources as they were. -/
theorem copied_settled (d : Depot) (operation : String) (source : Handle) :
    d.Settled (d.copied operation source) := by
  unfold copied duplicate
  rw [duplicateTo_succ]
  cases d.live? source with
  | none => exact d.use_resources operation source
  | some r =>
    by_cases hsparse : r.kind = .sparseArray
    · simp only [hsparse, ↓reduceIte]
      exact d.allocSparse_ne_null _ _
    · simp only [hsparse, ↓reduceIte]
      exact nextHandle_ne_null _

/-- A clone is made, or refused with the resources as they were. -/
theorem clone_settled (d : Depot) (source : Handle) : d.Settled (d.clone source) := by
  unfold clone
  split
  · rfl
  · exact d.copied_settled _ source

/-- A conversion is made, or refused with the resources as they were. -/
theorem convert_settled (d : Depot) (source : Handle) (change : Resource → Resource) :
    d.Settled (d.convert source change) := by
  unfold convert
  split
  · rfl
  · have h := d.copied_settled "convert" source
    generalize d.copied "convert" source = made at h ⊢
    obtain ⟨_ | copy, d'⟩ := made <;> exact h

/-- A sparse array is made, or refused with the resources as they were. -/
theorem createSparse_settled (d : Depot) (operation : String) (source : Handle)
    (dims : List Int) (implicit : Handle) :
    d.Settled (d.createSparse operation source dims implicit) := by
  rw [createSparse_eq]
  split
  · rfl
  · split
    · exact d.use_resources operation source
    · exact d.use_resources operation implicit
    · exact d.allocSparse_ne_null _ _

/-- The array to change is found or copied, or the call is refused with the resources as they
    were. -/
theorem target_settled (d : Depot) (array : Handle) : d.Settled (d.target array) := by
  unfold target
  split
  · split
    · exact d.use_resources _ array
    · next hlive => exact ne_null_of_live? hlive
  · exact d.copied_settled _ array

/-- A change of the implicit value is carried out, or refused with the resources as they were. -/
theorem resetImplicit_settled (d : Depot) (array implicit : Handle) :
    d.Settled (d.resetImplicit array implicit) := by
  rw [resetImplicit_eq]
  have h := d.target_settled array
  split
  · exact h
  · split
    · exact d.use_resources _ implicit
    · generalize d.target array = found at h ⊢
      obtain ⟨_ | h', d'⟩ := found <;> exact h

/-- What is computed is made, or refused with the resources as they were. -/
theorem compute_settled (d : Depot) (operation : String) (array : Handle)
    (tensor : Resource → Resource) : d.Settled (d.compute operation array tensor) := by
  unfold compute
  split
  · exact d.use_resources operation array
  · exact d.nextHandle_ne_null

/-- **A call that makes a resource makes one with a handle, or changes none.** -/
theorem make_settled (d : Depot) (c : Call) : d.Settled (d.make c) := by
  cases c with
  | newTensor | newNumericArray | newFlatImage | newSlicedImage | createStore =>
    exact d.create_settled _
  | clone kind source => exact d.clone_settled source
  | convertNumericArray | convertImage => exact d.convert_settled _ _
  | sparseFromTensor | sparseFromPositions =>
    exact (createSparse_settled _ _ _ _ _).of_resources_eq (d.peek_resources _ _ _ _)
  | resetImplicit array implicit => exact d.resetImplicit_settled array implicit
  | explicitPositions | toTensor => exact d.compute_settled _ _ _
  | read | dimensions | member | free | disown | add => rfl

/-! ### Answers -/

/-- A call by which nothing changed hands leaves the resources of the depot alone. -/
theorem answer_resources {c : Call} {d : Depot}
    (hharmless : (Happening.called c (d.answer c).1).Harmless) :
    (d.answer c).2.resources = d.resources := by
  obtain ⟨⟨refusal, hrefused⟩, hcleanup, haddition⟩ := hharmless
  by_cases hc : c.yield?.isSome
  · rw [answer_of_yield? hc] at hrefused ⊢
    have hmade := d.make_settled c
    unfold Settled at hmade
    cases h : (d.make c).1 with
    | error code => rwa [h] at hmade
    | ok handle =>
      -- A handle that is not null would have been granted.
      rw [h] at hmade hrefused
      rw [granted_deliver hc hmade] at hrefused
      cases hrefused
  · cases c with
    | read | dimensions | member => exact d.peek_resources _ _ _ _
    | free | disown => cases hcleanup
    | add => cases haddition
    | _ => exact absurd rfl hc

end Depot

/-- **Steps by which nothing changed hands leave the resources alone**, with no late effect
    among those that wait. -/
theorem Host.Walks.resources_eq {s s' : Disturbed Depot} {trace : List Happening}
    (hwalk : Depot.host.disturbed.Walks s trace s') (hs : s.Prompt)
    (hharmless : ∀ x ∈ trace, x.Harmless) : s'.state.resources = s.state.resources := by
  induction hwalk with
  | nil s => rfl
  | @called s s' trace c rest ih =>
    obtain ⟨hfirst, hothers⟩ := List.forall_mem_cons.mp hharmless
    obtain ⟨hprompt, ⟨hanswer, hstate⟩ | hstate⟩ := Depot.host.disturbed_of_prompt (c := c) hs
    · rw [hanswer] at hfirst
      rw [ih hprompt hothers, hstate]
      exact Depot.answer_resources hfirst
    · rw [ih hprompt hothers, hstate]
  | logged e rest ih => exact ih hs (List.forall_mem_cons.mp hharmless).2

/-- **Failing operations are atomic.** An operation other than a push that fails leaves every
    container of the caller under its handle and tag, makes none, and calls no cleanup; if the
    argument was at fault, it calls nothing at all.  A depot without late effects keeps its
    resources, even where it wrote a handle next to its error code. -/
theorem Operation.failure_is_atomic (ctx : Context) (w : Workspace) (op : Operation)
    (hop : op.isPush = false) :
    (∀ {σ : Type} (host : Host σ) (s : σ) (failure : Failure),
      let run := (op.perform ctx w).run host s
      run.value.1 = .error failure →
        run.value.2 = w ∧ (∀ c ∈ run.calls, c.isCleanup = false) ∧
          ∀ e, failure = .library e → e.isUpfront → run.calls = []) ∧
    ∀ (s : Disturbed Depot) (failure : Failure), s.Prompt →
      let run := (op.perform ctx w).run Depot.host.disturbed s
      run.value.1 = .error failure → run.state.state.resources = s.state.resources := by
  have hreverts : (op.perform ctx w).Reverts w := Operation.perform_reverts hop
  constructor
  · intro σ host s failure run hfailed
    obtain ⟨hsame, hharmless, hupfront⟩ := hreverts.run host s failure hfailed
    exact ⟨hsame, fun c hc => (Happening.calls_of_harmless hharmless c hc).1, hupfront⟩
  · intro s failure hprompt run hfailed
    obtain ⟨-, hharmless, -⟩ := hreverts.run Depot.host.disturbed s failure hfailed
    exact (Dialogue.run_walks _ _ s).resources_eq hprompt hharmless

/-- An array whose implicit value is to be changed, by a host that writes a handle next to its
    error code. -/
theorem failure_is_atomic_of_setImplicit :
    let w : Workspace := { holdings := [("a", ⟨.sparseArray, .fresh (.ofNumber 3)⟩)] }
    let depot : Depot := (({} : Depot).allocSparse 2 [4]).2
    let effect : Effect := { code := Status.functionError, value := some 7 }
    let s : Disturbed Depot := ⟨[(⟨.sparseArray, "reset_implicit_value"⟩, effect)], depot⟩
    let run := ((Operation.resparsify "a").perform .full w).run Depot.host.disturbed s
    run.value = (.error (.library (.sparseFailed "set_implicit_value" Status.functionError)), w) ∧
      run.calls = [.resetImplicit (.ofNumber 3) .null] ∧
        run.state.state.resources = depot.resources := by
  intro w depot effect s run
  have hfailed : run.value.1 =
      .error (.library (.sparseFailed "set_implicit_value" Status.functionError)) := rfl
  obtain ⟨hevery, hdepot⟩ := Operation.failure_is_atomic .full w (.resparsify "a") rfl
  exact ⟨Prod.ext hfailed (hevery _ s _ hfailed).1, rfl,
    hdepot s _ (by simp [s, effect, Disturbed.Prompt]) hfailed⟩

end Custody
