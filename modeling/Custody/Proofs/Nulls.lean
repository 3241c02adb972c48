import Custody.Proofs.Ledger
import Custody.Proofs.Speeches

namespace Custody

open Dialogue

/-!
# Null handles

A null handle comes from everywhere: it is what a moved container leaves behind, what a container is
reset to, and what a host may hand out or write into a slot.  It goes nowhere.

* `Container.Proper.isOwner_eq` -- the tag of a container alone tells whether there is something to
  clean up;
* `Speech.subjects_ne_null` -- no call of a speech names a null handle where it needs a handle;
* `Container.adopt_eq_adoptAsserting` -- the handle that is adopted never has to be checked again;
* `Container.cleanup_calls` -- letting go of a container makes one call or none;
* `Operation.null_discipline` -- **all of this after any number of operations, with any host**.
-/

variable {ctx : Context}

/-! ### Tags -/

namespace Container

variable {k : Kind}

/-- What letting go has to clean up can be told from the tag alone. -/
theorem Proper.isOwner_eq {c : Container k} (hc : c.Proper) : c.ownership.isOwner = c.isOwner := by
  rw [isOwner]
  cases hnull : c.isNull with
  | false => rfl
  | true =>
    have hhost : c.ownership = .hostManaged := hc (Handle.isNull_iff.mp hnull)
    rw [hhost]
    rfl

end Container

/-! ### Calls -/

/-- A call of one turn needs no handle that is null. -/
theorem Phrase.subjects_ne_null {phrase : List Happening} (h : Phrase ctx phrase) :
    ∀ c ∈ Happening.calls phrase, .null ∉ c.subjects := by
  have hsingle : ∀ {c : Call}, .null ∉ c.subjects → ∀ c' ∈ [c], .null ∉ c'.subjects := by
    intro c hc c' hmem
    rwa [List.mem_singleton.mp hmem]
  induction h with
  | remark | withheld | neverShared => exact fun _ hmem => absurd hmem List.not_mem_nil
  | reading c a hc hsubjects => exact hsingle hsubjects
  | refused c a hc hsubjects => exact hsingle hsubjects
  | granted c a e h hc hsubjects => exact hsingle hsubjects
  | released e c a hannounced hsubjects => exact hsingle hsubjects
  | added c a hc hsubjects => exact hsingle hsubjects

/-- No call needs a handle that is null. -/
theorem Speech.subjects_ne_null {trace : List Happening} (h : Speech ctx trace) :
    ∀ c ∈ Happening.calls trace, .null ∉ c.subjects := by
  induction h with
  | nil => exact fun _ hmem => absurd hmem List.not_mem_nil
  | cons first rest ih =>
    rw [Happening.calls_append]
    intro c hmem
    rcases List.mem_append.mp hmem with hfirst | hrest
    · exact first.subjects_ne_null c hfirst
    · exact ih c hrest

/-! ### Adopting -/

namespace Container

variable {k : Kind}

/-- Adopts a handle as `adopt` does, and asserts that it is not null: `failed` is what is done if
    the assertion fails. -/
def adoptAsserting (call : Call) (failure : Refusal → Error) (event : Handle → Event)
    (failed : Dialogue (Except Error (Container k))) : Dialogue (Except Error (Container k)) :=
  (request call .null).bind fun
    | .error refusal => done (.error (failure refusal))
    | .ok h => log (event h) (if h.isNull then failed else done (.ok (fresh h)))

/-- The assertion never fails, whatever is asked for and whoever answers. -/
theorem adopt_eq_adoptAsserting (call : Call) (failure : Refusal → Error) (event : Handle → Event)
    (failed : Dialogue (Except Error (Container k))) :
    (adopt call failure event).run = adoptAsserting call failure event failed := by
  simp only [adopt_run, adoptAsserting, request, call_bind, done_bind]
  refine congrArg (Dialogue.call call) (funext fun answer => ?_)
  cases hgranted : call.shape.granted .null answer with
  | error refusal => rfl
  | ok h =>
    have hne : h.isNull = false := by simpa using Shape.ne_null_of_granted hgranted
    dsimp only
    rw [hne]
    rfl

end Container

/-! ### Letting go -/

/-- The host can destroy containers of every kind, and give up shares of those that can be
    shared. -/
def Context.ProvidesCleanups (ctx : Context) : Prop :=
  ∀ k, ctx.provides (.free k) ∧ (k.supportsSharing → ctx.provides (.disown k))

namespace Holding

/-- Whether the container is a share of a data store.  There are none, so that nobody cleans up
    after it. -/
def isStoreShare (x : Holding) : Bool :=
  x.kind = .dataStore && x.container.ownership = .sharedWithHost

/-- The cleanup of a container that has one: on its own handle, through the table of its kind. -/
def cleanup (x : Holding) : Call :=
  if x.container.ownership = .callerOwned then .free x.kind x.container.handle
  else .disown x.kind x.container.handle

/-- There is a cleanup for every container that is somebody's, but for shares of data stores. -/
theorem release?_eq (x : Holding) :
    x.release? = if x.isOwner && !x.isStoreShare then some x.cleanup else none := by
  obtain ⟨k, h, ownership⟩ := x
  have hstore : k.supportsSharing = !decide (k = .dataStore) := by cases k <;> rfl
  cases hnull : h.isNull with
  | true => simp [release?, isOwner, Container.isOwner, Container.isNull, hnull]
  | false =>
    cases ownership <;>
      simp [release?, isOwner, isStoreShare, cleanup, Container.isOwner, Container.isNull, hnull,
        Ownership.isOwner, hstore]

end Holding

namespace Container

variable {k : Kind}

/-- A cleanup whose entry the host has is exactly its one call. -/
theorem cleanupWith_calls {call : Call} (hprovided : ctx.provides call.entry) :
    (cleanupWith ctx call).Always fun trace _ => Happening.calls trace = [call] := by
  rw [cleanupWith, if_pos hprovided]
  exact fun _ => rfl

/-- Letting go of a container makes the call that cleans up after it, and no other. -/
theorem cleanup_calls (hctx : ctx.ProvidesCleanups) (c : Container k) :
    (c.cleanup ctx).Always fun trace _ =>
      Happening.calls trace = (⟨k, c⟩ : Holding).release?.toList := by
  rw [cleanup_eq, Holding.release?]
  dsimp only
  split
  · exact rfl
  · cases c.ownership with
    | hostManaged => exact rfl
    | callerOwned => exact cleanupWith_calls (hctx k).1
    | sharedWithHost =>
      dsimp only
      by_cases hsharing : k.supportsSharing
      · rw [if_pos hsharing, if_pos hsharing]
        exact cleanupWith_calls ((hctx k).2 hsharing)
      · rw [if_neg hsharing, if_neg hsharing]
        exact rfl

end Container

namespace Operation

/-- To drop a variable is to clean up after its container and to remove the variable. -/
theorem perform_drop {w : Workspace} {name : String} {x : Holding} (hx : w.find? name = some x) :
    (drop name).perform ctx w =
      (x.container.cleanup ctx).bind fun _ => done (.ok .nothing, w.remove name) := by
  simp [perform, plan, Workspace.holding, hx]

/-- Dropping a variable lets go of its container. -/
theorem drop_calls (hctx : ctx.ProvidesCleanups) {w : Workspace} {name : String} {x : Holding}
    (hx : w.find? name = some x) :
    ((drop name).perform ctx w).Always fun trace _ =>
      Happening.calls trace = x.release?.toList := by
  rw [perform_drop hx]
  refine (always_bind _ _ _).mpr ((x.container.cleanup_calls hctx).imp fun trace _ hcalls => ?_)
  rwa [always_done, List.append_nil]

end Operation

/-- **Null discipline.** Take any host, any tables and any operations.  No container in a variable
    is both null and somebody's, so that its tag tells whether it has an owner, and neither is one
    in an answer or a view.  No call that is made, then or when all variables go away, names
    a null handle where it needs one, and the handle that is adopted is not null.  If the host has
    the cleanups, letting go of a container that has an owner and is no share of a data store makes
    exactly one call, which cleans up after it, and letting go of any other makes none. -/
theorem Operation.null_discipline {σ : Type} (ctx : Context) (host : Host σ) (s : σ)
    (handles : List (String × Handle)) (ops : List Operation) :
    let run := (performAll ctx { handles } ops).run host s
    let finish := (run.value.2.dropAll ctx).run host run.state
    (∀ name x, run.value.2.find? name = some x →
      x.container.Proper ∧ x.container.ownership.isOwner = x.container.isOwner) ∧
    (∀ r ∈ run.value.1, Except.Makes Answer.Proper r) ∧
    (∀ k (c : Container k), c.view.Proper) ∧
    (∀ m a s', Except.Makes Container.Proper ((SparseArray.member ctx m a).run.run host s').value) ∧
    (∀ c ∈ run.calls ++ finish.calls, .null ∉ c.subjects) ∧
    (∀ k call failure event failed,
      (Container.adopt call failure event : Attempt (Container k)).run =
        Container.adoptAsserting call failure event failed) ∧
    (ctx.ProvidesCleanups →
      (∀ name x, run.value.2.find? name = some x →
        (((drop name).perform ctx run.value.2).run host run.state).calls =
          if x.isOwner && !x.isStoreShare then [x.cleanup] else []) ∧
      (∀ x : Holding, ∀ s', ((x.container.cleanup ctx).run host s').calls =
        if x.isOwner && !x.isStoreShare then [x.cleanup] else [])) := by
  intro run finish
  have hrun : Speech ctx run.trace ∧ _ :=
    (performAll_orderly (Workspace.proper_empty handles) ops).run host s
  have hfinish : Speech ctx finish.trace ∧ _ :=
    (Workspace.dropAll_orderly run.value.2).run host run.state
  have hrelease : ∀ x : Holding, x.release?.toList =
      if x.isOwner && !x.isStoreShare then [x.cleanup] else [] := by
    intro x
    rw [Holding.release?_eq]
    split <;> rfl
  -- The run and the end are speeches, and no phrase of a speech is about the null handle.
  obtain ⟨hspeech, hanswers, hproper⟩ := hrun
  have hmember : ∀ m a s',
      Except.Makes Container.Proper ((SparseArray.member ctx m a).run.run host s').value :=
    fun m a s' => ((SparseArray.member_orderly m a).run host s').2
  have hsubjects : ∀ c ∈ run.calls ++ finish.calls, .null ∉ c.subjects := by
    intro c hc
    rcases List.mem_append.mp hc with hcalled | hcalled
    · exact hspeech.subjects_ne_null c hcalled
    · exact hfinish.1.subjects_ne_null c hcalled
  refine ⟨?_, hanswers, fun _ c => Container.proper_hostManaged c.handle, hmember, hsubjects,
    fun _ => Container.adopt_eq_adoptAsserting, fun hctx => ⟨?_, ?_⟩⟩
  · intro name x hx
    exact ⟨hproper name x hx, (hproper name x hx).isOwner_eq⟩
  · intro name x hx
    rw [← hrelease]
    exact (drop_calls hctx hx).run host run.state
  · intro x s'
    rw [← hrelease]
    exact (x.container.cleanup_calls hctx).run host s'

/-- A host that makes nothing and still reports success.  A tensor that was moved leaves an empty
    container behind, which goes away without a call; the tensor itself is destroyed; and nobody
    cleans up after a share of a data store. -/
theorem null_discipline_of_moved_tensor :
    let host : Host Unit := ⟨fun c s => (c.shape.deliver (.ok .null), s)⟩
    let ops : List Operation :=
      [.wrap .tensor (.number 1) (.ownership .callerOwned) "a", .take "a" "b", .clone "b" "c",
        .wrap .dataStore (.number 2) (.ownership .sharedWithHost) "d"]
    let run := (Operation.performAll .full {} ops).run host ()
    let dropped (name : String) :=
      (((Operation.drop name).perform .full run.value.2).run host ()).calls
    Context.ProvidesCleanups .full ∧
      dropped "a" = [] ∧ dropped "b" = [.free .tensor (.ofNumber 1)] ∧ dropped "d" = [] := by
  intro host ops run dropped
  have hctx : Context.ProvidesCleanups .full := fun _ => ⟨rfl, fun _ => rfl⟩
  have hdiscipline := (Operation.null_discipline .full host () [] ops).2.2.2.2.2.2 hctx
  have hmoved : run.value.2.find? "a" = some ⟨.tensor, .empty⟩ := by decide +kernel
  have htaken : run.value.2.find? "b" = some ⟨.tensor, .fresh (.ofNumber 1)⟩ := by decide +kernel
  have hstore : run.value.2.find? "d" = some ⟨.dataStore, ⟨.ofNumber 2, .sharedWithHost⟩⟩ := by
    decide +kernel
  exact ⟨hctx, hdiscipline.1 "a" _ hmoved, hdiscipline.1 "b" _ htaken, hdiscipline.1 "d" _ hstore⟩

end Custody
