import Custody.Proofs.Nulls
import Custody.Session.Operation

namespace Custody

open Dialogue

/-!
# Replacing a resource

There are two ways to put another resource in place of the one that a container holds: the container
is reset, or a new container is made and assigned over it.  A reset first looks whether the handle
is held already; an assignment lets go of the old container, whatever the new one is.

* `Container.anew` -- the container that is assigned: around the handle, or empty if that is null;
* `Container.keep_anew_unlogged` -- the two ways are the same dialogue but for the log;
  `keep_anew_run` says so of their runs;
* `Container.resetAll` -- resets, one after the other;
* `Container.departures` -- the containers that are let go of on the way, each under the tag that it
  had last;
* `Container.resetAll_cleanup_comesTo` -- the cleanups of any number of resets, up to the end;
* `Container.reset_agrees_with_assignment` -- **both ways agree**, and all cleanups are those of
  what is owned when it is replaced or dropped.
-/

variable {σ : Type} {ctx : Context} {k : Kind}

namespace Container

/-! ### One reset -/

/-- What a container is after it was reset. -/
def settled (r : Handle × Ownership) : Container k :=
  ⟨r.1, if r.1.isNull then .hostManaged else r.2⟩

/-- A new container for the handle, or an empty one if there is no handle. -/
def anew (h : Handle) (ownership : Ownership) : Attempt (Container k) :=
  if h.isNull then pure empty else wrap h ownership

/-- A reset to another handle lets go of what was held, and of nothing twice. -/
theorem reset_of_ne (c : Container k) {r : Handle × Ownership} (hother : r.1 ≠ c.handle) :
    c.reset ctx r.1 r.2 = (c.cleanup ctx).bind fun _ => .done (settled r) := by
  rw [reset_eq, if_neg hother]
  rfl

/-- A reset to the handle that is held only changes the tag. -/
theorem reset_of_eq (c : Container k) {r : Handle × Ownership} (hsame : r.1 = c.handle) :
    c.reset ctx r.1 r.2 = .done (settled r) := by
  rw [reset_eq, if_pos hsame]
  rfl

/-- A container is made anew without a word to the host. -/
theorem anew_run (r : Handle × Ownership) :
    (anew r.1 r.2 : Attempt (Container k)).run =
      if r.1.isNull then .done (.ok (settled r))
      else .log (.wrapping k r.1 r.2) (.done (.ok (settled r))) := by
  unfold anew settled
  cases hnull : r.1.isNull with
  | true =>
    have hempty : r.1 = .null := Handle.isNull_iff.mp hnull
    rw [hempty]
    rfl
  | false =>
    rw [if_neg (by decide), wrap_run, hnull]
    rfl

/-- Resetting a variable to another handle and assigning a new container to it are the same but for
    the log. -/
theorem keep_anew_unlogged (ctx : Context) {w : Workspace} {x : String} {c : Container k}
    (hfound : w.find? x = some ⟨k, c⟩) {r : Handle × Ownership} (hother : r.1 ≠ c.handle) :
    (w.keep ctx x (anew r.1 r.2 : Attempt (Container k))).unlogged =
      ((c.reset ctx r.1 r.2).bind fun c' =>
        .done (.ok (.holding ⟨k, c'⟩), w.put x ⟨k, c'⟩)).unlogged := by
  -- A variable that holds something is assigned to by letting go of that first.
  have hassign : ∀ c' : Container k, w.assign ctx x ⟨k, c'⟩ =
      (c.cleanup ctx).bind fun _ => .done (w.put x ⟨k, c'⟩) := fun c' => by
    simp [Workspace.assign, hfound]
  rw [Workspace.keep, anew_run, reset_of_ne c hother]
  split <;> simp [hassign, Dialogue.bind_assoc]

/-- So an assigned container is what the reset one would be, and the host cannot tell them
    apart. -/
theorem keep_anew_run (ctx : Context) (host : Host σ) (s : σ) {w : Workspace} {x : String}
    {c : Container k} (hfound : w.find? x = some ⟨k, c⟩) {r : Handle × Ownership}
    (hother : r.1 ≠ c.handle) :
    let reset := (c.reset ctx r.1 r.2).run host s
    let assigned := (w.keep ctx x (anew r.1 r.2 : Attempt (Container k))).run host s
    assigned.value = (.ok (.holding ⟨k, reset.value⟩), w.put x ⟨k, reset.value⟩) ∧
      assigned.state = reset.state ∧ assigned.calls = reset.calls := by
  intro reset assigned
  have hsame := run_eq_of_unlogged (keep_anew_unlogged ctx hfound hother) host s
  simpa only [run_bind, run_done, List.append_nil, Run.calls] using hsame

/-! ### Resets in sequence -/

/-- Resets a container to one handle after the other. -/
def resetAll (ctx : Context) (c : Container k) :
    List (Handle × Ownership) → Dialogue (Container k)
  | [] => .done c
  | r :: rest => (c.reset ctx r.1 r.2).bind fun c' => c'.resetAll ctx rest

/-- Of the containers that one variable is in turn, those that are let go of: each that is followed
    by one with another handle, and the last. -/
def departures : List (Container k) → List (Container k)
  | [] => []
  | [last] => [last]
  | c :: next :: rest =>
    if next.handle = c.handle then departures (next :: rest) else c :: departures (next :: rest)

/-- The calls that clean up after containers, as far as there is something to clean up. -/
def cleanups (cs : List (Container k)) : List Call :=
  cs.filterMap fun c => (⟨k, c⟩ : Holding).release?

/-- The cleanups after containers begin with that of the first. -/
theorem cleanups_cons (c : Container k) (cs : List (Container k)) :
    cleanups (c :: cs) = cleanups [c] ++ cleanups cs :=
  List.filterMap_append (l := [c])

/-- The cleanup after one container is its release. -/
theorem cleanups_singleton (c : Container k) :
    cleanups [c] = (⟨k, c⟩ : Holding).release?.toList := by
  unfold cleanups
  cases hrelease : (⟨k, c⟩ : Holding).release? <;> simp [hrelease]

/-- One cleanup for each container that has an owner and is no share of a data store, on its handle
    and by its tag. -/
theorem cleanups_eq (cs : List (Container k)) :
    cleanups cs =
      (cs.filter fun c => c.isOwner && !(⟨k, c⟩ : Holding).isStoreShare).map fun c =>
        (⟨k, c⟩ : Holding).cleanup := by
  induction cs with
  | nil => rfl
  | cons c cs ih =>
    have howner : (⟨k, c⟩ : Holding).isOwner = c.isOwner := rfl
    rw [cleanups_cons, cleanups_singleton, ih, Holding.release?_eq, howner, List.filter_cons]
    split <;> simp

/-- **Step.** A reset cleans up after the container if it departs, and settles on the handle. -/
theorem reset_comesTo (ctx : Context) (host : Host σ) (s : σ) (c : Container k)
    (r : Handle × Ownership) :
    (c.reset ctx r.1 r.2).ComesTo host s (settled r)
      (if r.1 = c.handle then [] else ctx.offered (cleanups [c])) := by
  by_cases hsame : r.1 = c.handle
  · rw [reset_of_eq c hsame, if_pos hsame]
    exact comesTo_done _
  · rw [reset_of_ne c hsame, if_neg hsame, cleanups_singleton]
    exact (cleanup_comesTo ctx host s c).bind_quiet fun _ => comesTo_done _

/-- **Run.** However often a container is reset before it is dropped, the cleanups are those of its
    departures, in their order. -/
theorem resetAll_cleanup_comesTo (ctx : Context) (host : Host σ) (s : σ) (c : Container k)
    (rs : List (Handle × Ownership)) :
    ((c.resetAll ctx rs).bind fun last => last.cleanup ctx).ComesTo host s ()
      (ctx.offered (cleanups (departures (c :: rs.map settled)))) := by
  -- The container and the state of the host both move on, so the induction is over all of them.
  induction rs generalizing c s with
  | nil =>
    rw [List.map_nil, departures, cleanups_singleton]
    exact cleanup_comesTo ctx host s c
  | cons r rs ih =>
    have hrest := ih ((c.reset ctx r.1 r.2).run host s).state (settled r)
    have hall := (reset_comesTo ctx host s c r).bind
      (f := fun c' => (c'.resetAll ctx rs).bind fun last => last.cleanup ctx) hrest
    rw [resetAll, Dialogue.bind_assoc, List.map_cons, departures]
    have hhandle : (settled r : Container k).handle = r.1 := rfl
    rw [hhandle]
    by_cases hsame : r.1 = c.handle
    · -- The handle stays, and the container goes on under its new tag.
      rwa [if_pos hsame] at hall ⊢
    · rw [if_neg hsame, ← Context.offered_append, ← cleanups_cons] at hall
      rwa [if_neg hsame]

/-- A host that can clean up after the kind can make all cleanups of it. -/
theorem offered_cleanups (hfree : ctx.provides (.free k))
    (hdisown : k.supportsSharing → ctx.provides (.disown k)) (cs : List (Container k)) :
    ctx.offered (cleanups cs) = cleanups cs := by
  refine List.filter_eq_self.mpr fun call hcall => ?_
  obtain ⟨c, -, hrelease⟩ := List.mem_filterMap.mp hcall
  unfold Holding.release? at hrelease
  split at hrelease
  · cases hrelease
  · split at hrelease
    · cases hrelease
    · cases hrelease
      exact hfree
    · split at hrelease
      · next hsharing =>
        cases hrelease
        exact hdisown hsharing
      · cases hrelease

/-! ### Both ways -/

/-- **Reset and assignment agree.**  Take a container of any kind, under any tag, any host and any
    of its entries.  Resetting the container to another handle ends with the same container and
    makes the same calls as assigning a new one to its variable, and what happens is exactly what
    happens when the container is dropped.  A handle that is held already stays under the new tag,
    and nothing happens at all.  So over any number of resets and a drop in the end, there is one
    cleanup for each container that is replaced by one with another handle, or is the last, if it
    has an owner and is no share of a data store, and each is chosen by the tag of that moment. -/
theorem reset_agrees_with_assignment (ctx : Context) (host : Host σ) (s : σ) (c : Container k) :
    (∀ (w : Workspace) (x : String) (h : Handle) (ownership : Ownership),
      w.find? x = some ⟨k, c⟩ → h ≠ c.handle →
      let reset := (c.reset ctx h ownership).run host s
      let assigned := (w.keep ctx x (anew h ownership : Attempt (Container k))).run host s
      let dropped := (c.cleanup ctx).run host s
      reset.value = ⟨h, if h.isNull then .hostManaged else ownership⟩ ∧
        assigned.value = (.ok (.holding ⟨k, reset.value⟩), w.put x ⟨k, reset.value⟩) ∧
        (reset.calls = assigned.calls ∧ reset.state = assigned.state) ∧
        (reset.trace = dropped.trace ∧ reset.state = dropped.state) ∧
        reset.calls = ctx.offered (⟨k, c⟩ : Holding).release?.toList) ∧
    (∀ ownership, c.handle ≠ .null →
      (c.reset ctx c.handle ownership).run host s = ⟨⟨c.handle, ownership⟩, s, []⟩) ∧
    ∀ rs : List (Handle × Ownership),
      let run := ((c.resetAll ctx rs).bind fun last => last.cleanup ctx).run host s
      let owned := (departures (c :: rs.map settled)).filter fun x =>
        x.isOwner && !(⟨k, x⟩ : Holding).isStoreShare
      run.calls = ctx.offered (owned.map fun x => (⟨k, x⟩ : Holding).cleanup) ∧
        (ctx.provides (.free k) → (k.supportsSharing → ctx.provides (.disown k)) →
          run.calls = owned.map fun x => (⟨k, x⟩ : Holding).cleanup) := by
  refine ⟨fun w x h ownership hfound hother => ?_, fun ownership hheld => ?_, fun rs => ?_⟩
  · intro reset assigned dropped
    -- To another handle, a reset is the cleanup of what was held and nothing else.
    have hdropped : reset = ⟨settled (h, ownership), dropped.state, dropped.trace⟩ := by
      show (c.reset ctx (h, ownership).1 (h, ownership).2).run host s = _
      rw [reset_of_ne c hother, run_bind]
      simp only [run_done, List.append_nil]
      rfl
    obtain ⟨hvalue, hstate, hcalls⟩ :=
      keep_anew_run ctx host s hfound (r := (h, ownership)) hother
    exact ⟨congrArg Run.value hdropped, hvalue, ⟨hcalls.symm, hstate.symm⟩,
      ⟨congrArg Run.trace hdropped, congrArg Run.state hdropped⟩,
      (congrArg Run.calls hdropped).trans (cleanup_comesTo ctx host s c).2⟩
  · have hnull : c.handle.isNull = false := Handle.isNull_eq_false_iff.mpr hheld
    rw [reset_eq, if_pos rfl, hnull]
    rfl
  · intro run owned
    have hcalls := (resetAll_cleanup_comesTo ctx host s c rs).2
    refine ⟨?_, fun hfree hdisown => ?_⟩
    · rwa [cleanups_eq] at hcalls
    · rwa [offered_cleanups hfree hdisown, cleanups_eq] at hcalls

/-- A tensor is left for another one, which is first shared and then owned, left in turn for the
    first, and emptied.  Going back to the first one as its host's, and leaving it, is no cleanup;
    going back to it as its owner is one more. -/
theorem reset_agrees_with_assignment_of_return :
    let host : Host Unit := ⟨fun c s => (c.shape.deliver (.ok .null), s)⟩
    let c : Tensor := ⟨.ofNumber 1, .callerOwned⟩
    let w : Workspace := { holdings := [("t", ⟨.tensor, c⟩)] }
    let rs := [(.ofNumber 2, .sharedWithHost), (.ofNumber 2, .callerOwned),
      (.ofNumber 1, .hostManaged), (.null, .callerOwned), (.ofNumber 1, .callerOwned)]
    let run := ((c.resetAll .full rs).bind fun last => last.cleanup .full).run host ()
    let shared : Attempt Tensor := anew (.ofNumber 2) .sharedWithHost
    let assigned := (w.keep .full "t" shared).run host ()
    assigned.calls = [.free .tensor (.ofNumber 1)] ∧
      run.calls = [.free .tensor (.ofNumber 1), .free .tensor (.ofNumber 2),
        .free .tensor (.ofNumber 1)] := by
  intro host c w rs run shared assigned
  have hagree := reset_agrees_with_assignment .full host () c
  refine ⟨?_, ?_⟩
  · obtain ⟨-, -, ⟨hcalls, -⟩, -, honce⟩ :=
      hagree.1 w "t" (.ofNumber 2) .sharedWithHost (by decide +kernel) (by decide +kernel)
    exact hcalls.symm.trans honce
  · exact (hagree.2.2 rs).2 rfl fun _ => rfl

end Container

end Custody
