import Custody.Depot.Host
import Custody.Proofs.NormalForms
import Custody.Proofs.Reading

namespace Custody

open Dialogue

/-!
# Two ways to an element type

A sparse array has the type of its implicit value.  It can be asked for that type itself, or for a
view of the implicit value, which is then asked.  Each way has checks of its own, but what is said
to the host is the same on both.

* `Host.Repeats` -- a host would answer the calls of a trace once more as it did;
  `run_eq_of_repeats` says that the dialogue of the trace then goes the same way;
* `SparseArray.viewedType` -- the type asked of the view;
* `SparseArray.viewedType_unlogged` -- the two ways are the same dialogue but for the log;
* `SparseArray.element_types_agree` -- **both ways give the same type**, by the same calls.
-/

/-! ### Hosts that repeat themselves -/

section Repeating

variable {σ α : Type} {host : Host σ} {s : σ}

/-- From this state on, the host answers the calls of the trace as they were answered in it. -/
def Host.Repeats (host : Host σ) (s : σ) (trace : List Happening) : Prop :=
  ∃ s', host.Walks s trace s'

/-- A host repeats a trace if it repeats the first answer and then the rest. -/
theorem Host.repeats_called {c : Call} {a : c.Answer} {trace : List Happening} :
    host.Repeats s (.called c a :: trace) ↔
      (host.answer c s).1 = a ∧ host.Repeats (host.answer c s).2 trace := by
  constructor
  · rintro ⟨s', hwalks⟩
    cases hwalks with
    | called _ rest => exact ⟨rfl, s', rest⟩
  · rintro ⟨rfl, s', rest⟩
    exact ⟨s', .called c rest⟩

/-- An event in a trace asks nothing of the host. -/
theorem Host.repeats_logged {e : Event} {trace : List Happening} :
    host.Repeats s (.logged e :: trace) ↔ host.Repeats s trace := by
  constructor
  · rintro ⟨s', hwalks⟩
    cases hwalks with
    | logged _ rest => exact ⟨s', rest⟩
  · rintro ⟨s', rest⟩
    exact ⟨s', .logged e rest⟩

/-- A dialogue that is answered as before goes the same way and ends with the same value. -/
theorem Dialogue.run_eq_of_repeats {d : Dialogue α} {s s' : σ}
    (hrepeats : host.Repeats s' (d.run host s).trace) :
    (d.run host s').value = (d.run host s).value ∧
      (d.run host s').trace = (d.run host s).trace := by
  induction d generalizing s s' with
  | done value => exact ⟨rfl, rfl⟩
  | call request next ih =>
    rw [run_call, Run.after, Host.repeats_called] at hrepeats
    obtain ⟨hanswer, hrest⟩ := hrepeats
    -- The same answer leads into the same branch.
    rw [run_call, run_call, hanswer]
    obtain ⟨hvalue, htrace⟩ := ih _ hrest
    exact ⟨hvalue, congrArg (Happening.called request _ :: ·) htrace⟩
  | log event next ih =>
    rw [run_log, Run.after, Host.repeats_logged] at hrepeats
    obtain ⟨hvalue, htrace⟩ := ih hrepeats
    exact ⟨hvalue, congrArg (Happening.logged event :: ·) htrace⟩

end Repeating

namespace SparseArray

variable {σ : Type} (ctx : Context) (a : SparseArray)

/-! ### The type asked of the view -/

/-- The type that a view of the implicit value is asked for; none if there is no view. -/
def viewedType : Dialogue (Option Int) :=
  (a.member ctx .implicitValue).run.bind fun
    | .error _ => .done none
    | .ok t => t.queryType ctx

/-- The two ways are the same dialogue, but for the event that tells of the view. -/
theorem viewedType_unlogged : (viewedType ctx a).unlogged = (a.queryType ctx).unlogged := by
  rw [viewedType, member_run, Container.queryType_eq]
  cases hprovides : ctx.provides (.member .implicitValue) with
  | false =>
    -- The view fails at the table or the entry before it looks at the handle.
    cases hrequire : ctx.require (.member .implicitValue) with
    | error e => simp
    | ok _ =>
      have : ctx.provides (.member .implicitValue) := Context.provides_iff.mpr hrequire
      rw [hprovides] at this
      cases this
  | true =>
    rw [Context.provides_iff.mp hprovides, checked_ok]
    cases hnull : a.isNull with
    | true => simp
    | false =>
      simp only [Bool.false_eq_true, ↓reduceIte, Container.memberSlot_eq, call_bind, done_bind,
        unlogged_call, Bool.not_true, Bool.or_false]
      refine congrArg (Dialogue.call _) (funext fun slot => ?_)
      cases hslot : slot.filter fun h => !h.isNull with
      | none => rfl
      | some h =>
        -- A handle that passes the filter is not null, so it can be wrapped.
        have hhandle : h.isNull = false := by
          simpa using (Option.filter_eq_some_iff.mp hslot).2
        simp only [Container.wrap_run, hhandle, Bool.false_eq_true, ↓reduceIte, log_bind,
          done_bind, unlogged_log]
        rfl

/-- The only thing a tensor is asked is its type, and no null handle is asked about. -/
theorem queryType_asks_no_null :
    (a.queryType ctx).Within fun c =>
      c.entry.table = .tensor → ∃ h : Handle, h ≠ .null ∧ c = .read .tensor .type h := by
  rw [Container.queryType_eq]
  split
  · exact within_done _
  · refine within_call (fun htable => by cases htable) fun slot => ?_
    cases hslot : slot.filter fun h => !h.isNull with
    | none => exact within_done _
    | some h =>
      have hhandle : h ≠ .null := by simpa using (Option.filter_eq_some_iff.mp hslot).2
      dsimp only
      rw [Container.read_eq]
      split
      · exact within_done _
      · exact within_call (fun _ => ⟨h, hhandle, rfl⟩) fun _ => within_done _

/-! ### Both ways -/

/-- **Both ways to an element type agree.**  Whatever handle and tag an array has, whatever tables
    and entries the host has and whatever it answers, as long as it answers the same both times: the
    array has no type if no view of its implicit value can be had, and the type of the view
    otherwise, and the calls are the same, in the same order.  A tensor is never asked about under a
    null handle.  The two states of the host are any two, so that either way may be taken first. -/
theorem element_types_agree (host : Host σ) (s s' : σ)
    (hrepeats : host.Repeats s' ((a.queryType ctx).run host s).trace) :
    let direct := (a.queryType ctx).run host s
    let seen := (a.member ctx .implicitValue).run.run host s'
    (∀ e, seen.value = .error e → direct.value = none ∧ direct.calls = seen.calls) ∧
      (∀ t, seen.value = .ok t →
        let typed := (t.queryType ctx).run host seen.state
        direct.value = typed.value ∧ direct.calls = seen.calls ++ typed.calls) ∧
      ∀ c ∈ direct.calls, c.entry.table = .tensor →
        ∃ h : Handle, h ≠ .null ∧ c = .read .tensor .type h := by
  intro direct seen
  -- Asked again, the array goes the same way, which is the way through the view.
  have hagain := run_eq_of_repeats hrepeats
  have hviewed := run_eq_of_unlogged (viewedType_unlogged ctx a) host s'
  have hvalue : direct.value = ((viewedType ctx a).run host s').value :=
    (hviewed.1.trans hagain.1).symm
  have hcalls : direct.calls = ((viewedType ctx a).run host s').calls :=
    (hviewed.2.2.trans (congrArg Happening.calls hagain.2)).symm
  refine ⟨fun e he => ?_, fun t ht => ?_, (queryType_asks_no_null ctx a).run host s⟩
  · -- There is no view, and so nothing more is asked.
    have hnone : (viewedType ctx a).ComesTo host s' none seen.calls :=
      ComesTo.bind_quiet ⟨he, rfl⟩ fun _ => comesTo_done _
    exact ⟨hvalue.trans hnone.1, hcalls.trans hnone.2⟩
  · intro typed
    have htyped : (viewedType ctx a).ComesTo host s' typed.value (seen.calls ++ typed.calls) :=
      ComesTo.bind ⟨ht, rfl⟩ ⟨rfl, rfl⟩
    exact ⟨hvalue.trans htyped.1, hcalls.trans htyped.2⟩

/-- An array that is asked for its type, and for a view of its implicit value after a tensor was
    made: both read the code 5. -/
theorem element_types_agree_of_later_tensor :
    let made := Depot.allocSparse {} 5 [2, 3]
    let later := (made.2.alloc { kind := .tensor, typeCode := 4, dims := [] }).2
    let array : SparseArray := .fresh made.1
    let seen := (array.member Context.full .implicitValue).run.run Depot.host later
    ∃ t, seen.value = .ok t ∧
      ((t.queryType Context.full).run Depot.host seen.state).value = some 5 ∧
      ((array.queryType Context.full).run Depot.host made.2).value = some 5 := by
  intro made later array seen
  have hrepeats :
      Depot.host.Repeats later ((array.queryType Context.full).run Depot.host made.2).trace := by
    dsimp only [made, later, array]
    exact Host.repeats_called.mpr ⟨by rfl, Host.repeats_called.mpr ⟨by rfl, _, .nil _⟩⟩
  have hseen : seen.value = .ok ⟨.ofNumber 1, .hostManaged⟩ := by
    dsimp only [seen, made, later, array]
    rfl
  have htype : ((array.queryType Context.full).run Depot.host made.2).value = some 5 := by
    decide +kernel
  have hagree := element_types_agree Context.full array Depot.host made.2 later hrepeats
  exact ⟨_, hseen, (hagree.2.1 _ hseen).1.symm.trans htype, htype⟩

end SparseArray

end Custody
