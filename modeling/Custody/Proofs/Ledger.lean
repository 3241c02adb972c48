import Custody.Proofs.Atomicity
import Custody.Proofs.Operations

namespace Custody

open Dialogue Hands

/-!
# The ledger of responsibility

Every container that the caller came to answer for was cleaned up after, given away, or is still
in a variable.  No host is trusted: it may fail, answer with any handle, and with the same one
again.

* `Deed` -- an operation that was carried out; `Deed.obtained`, `Deed.given` are its entries;
* `Context.offered`, `Container.cleanup_comesTo` -- the call that letting go of a container makes;
* `Operation.deeds` -- operations carried out one after the other;
* `Operation.perform_balances` -- one operation keeps the ledger balanced;
* `Operation.ledger_balances` -- **and so do any number of them, with any host**.
-/

/-! ### Handing over -/

/-- The container that a call hands over to a data store. -/
def Call.handsOver? : Call → Option Holding
  | add _ _ (.container k h) => some ⟨k, ⟨h, .callerOwned⟩⟩
  | _ => none

/-- Only an addition hands something over. -/
theorem Call.handsOver?_eq_none {c : Call} (hc : c.isAddition = false) : c.handsOver? = none := by
  cases c <;> first | rfl | cases hc

/-- What a trace hands over. -/
def Hands.handedOver (trace : List Happening) : List Holding :=
  (Happening.calls trace).filterMap Call.handsOver?

/-- A trace without additions hands nothing over. -/
theorem Hands.handedOver_eq_nil {trace : List Happening}
    (h : ∀ c ∈ Happening.calls trace, c.isAddition = false) : handedOver trace = [] :=
  List.filterMap_eq_nil_iff.mpr fun c hc => Call.handsOver?_eq_none (h c hc)

/-- What is released is cleaned up after or handed over. -/
theorem Call.count_releases? {x : Holding} {cleanup : Call} (hx : x.release? = some cleanup)
    (c : Call) :
    c.releases?.toList.count x = [c].count cleanup + c.handsOver?.toList.count x := by
  obtain ⟨k, handle, ownership⟩ := x
  rcases Holding.release?_eq_some hx with ⟨rfl, rfl⟩ | ⟨rfl, rfl⟩
  · cases c with
    | add store name item => cases item <;> simp [releases?, handsOver?]
    | _ => simp [releases?, handsOver?, List.count_singleton, Holding.mk_eq_iff, -Holding.mk.injEq]
  · cases c with
    | add store name item =>
      cases item <;> simp [releases?, handsOver?, Holding.mk_eq_iff, -Holding.mk.injEq]
    | _ => simp [releases?, handsOver?, List.count_singleton, Holding.mk_eq_iff, -Holding.mk.injEq]

/-- What calls release is cleaned up after or handed over. -/
theorem Call.count_filterMap_releases? {x : Holding} {cleanup : Call}
    (hx : x.release? = some cleanup) (calls : List Call) :
    (calls.filterMap releases?).count x =
      calls.count cleanup + (calls.filterMap handsOver?).count x := by
  induction calls with
  | nil => rfl
  | cons c calls ih =>
    have hcons : ∀ f : Call → Option Holding,
        (c :: calls).filterMap f = (f c).toList ++ calls.filterMap f := fun f => by
      cases hf : f c <;> simp [hf]
    have hone := count_releases? hx c
    have hcount : ([c] ++ calls).count cleanup = [c].count cleanup + calls.count cleanup :=
      List.count_append
    simp only [hcons, List.count_append, List.cons_append, List.nil_append] at hcount ⊢
    omega

/-- What a trace releases is cleaned up after or handed over. -/
theorem Hands.count_released {x : Holding} {cleanup : Call} (hx : x.release? = some cleanup)
    (trace : List Happening) :
    (released trace).count x =
      (Happening.calls trace).count cleanup + (handedOver trace).count x :=
  Call.count_filterMap_releases? hx _

/-! ### Which calls the host can answer -/

namespace Context

/-- The calls of which the host has the entry. -/
def offered (ctx : Context) (calls : List Call) : List Call :=
  calls.filter fun c => ctx.provides c.entry

@[simp] theorem offered_nil (ctx : Context) : ctx.offered [] = [] := rfl

@[simp] theorem offered_append (ctx : Context) (calls calls' : List Call) :
    ctx.offered (calls ++ calls') = ctx.offered calls ++ ctx.offered calls' :=
  List.filter_append calls calls'

/-- A call is offered if the host has its entry, and the rest as without it. -/
theorem offered_cons (ctx : Context) (c : Call) (calls : List Call) :
    ctx.offered (c :: calls) = (if ctx.provides c.entry then [c] else []) ++ ctx.offered calls := by
  cases hprovides : ctx.provides c.entry <;> simp [offered, hprovides]

end Context

/-- A release is a cleanup, and no addition. -/
theorem Holding.isCleanup_of_release? {x : Holding} {c : Call} (h : x.release? = some c) :
    c.isCleanup = true ∧ c.isAddition = false := by
  rcases Holding.release?_eq_some h with ⟨-, rfl⟩ | ⟨-, rfl⟩
  · exact ⟨rfl, rfl⟩
  · exact ⟨rfl, rfl⟩

/-- Letting go of a container makes the call that cleans up after it, if the host has it. -/
theorem Container.cleanup_comesTo {σ : Type} (ctx : Context) (host : Host σ) (s : σ) {k : Kind}
    (c : Container k) :
    (c.cleanup ctx).ComesTo host s () (ctx.offered (⟨k, c⟩ : Holding).release?.toList) := by
  have hask : ∀ call : Call, (cleanupWith ctx call).ComesTo host s () (ctx.offered [call]) := by
    intro call
    rw [cleanupWith, Context.offered_cons]
    split
    · exact comesTo_call (comesTo_done ())
    · exact comesTo_log (comesTo_done ())
  rw [cleanup_eq, Holding.release?]
  split
  · exact comesTo_done ()
  · cases c.ownership with
    | hostManaged => exact comesTo_done ()
    | callerOwned => exact comesTo_log (hask _)
    | sharedWithHost =>
      refine comesTo_log ?_
      split
      · exact hask _
      · exact comesTo_log (comesTo_done ())

/-! ### A push that fails hands nothing over -/

/-- No call of the dialogue adds to a data store. -/
abbrev Dialogue.AddsNothing {α : Type} (d : Dialogue α) : Prop := d.Within (·.isAddition = false)

/-- A path that ends with an error hands nothing over. -/
def Dialogue.AddsOnSuccess {ε α : Type} (d : Dialogue (Except ε α)) : Prop :=
  d.Always fun trace r => ∀ e, r = .error e → ∀ c ∈ Happening.calls trace, c.isAddition = false

variable {ctx : Context}

namespace Container

variable {k : Kind} (c : Container k)

/-- Letting go of a container destroys it or gives up a share, and does nothing else. -/
theorem cleanup_within {p : Call → Prop} (hfree : p (.free k c.handle))
    (hdisown : p (.disown k c.handle)) : (c.cleanup ctx).Within p := by
  have hask : ∀ {call : Call}, p call → (cleanupWith ctx call).Within p := fun {call} hcall => by
    unfold cleanupWith
    split
    · exact within_bind (within_ask hcall) fun _ => within_done _
    · exact within_tell _
  rw [cleanup_eq]
  split
  · exact within_done _
  · cases c.ownership with
    | hostManaged => exact within_done _
    | callerOwned => exact within_log (hask hfree)
    | sharedWithHost =>
      refine within_log ?_
      split
      · exact hask hdisown
      · exact within_tell _

/-- A cleanup adds nothing. -/
theorem cleanup_addsNothing : (c.cleanup ctx).AddsNothing := c.cleanup_within rfl rfl

/-- A copy adds nothing. -/
theorem tryClone_addsNothing : (c.tryClone ctx).run.AddsNothing := by
  rw [tryClone_run]
  split
  · exact within_done _
  · rw [obtain_run]
    cases ctx.require (Call.clone k c.handle).entry with
    | error e => exact within_done _
    | ok _ =>
      rw [checked_ok, adopt_run]
      refine within_call rfl fun answer => ?_
      cases (Call.clone k c.handle).shape.granted .null answer with
      | error refusal => exact within_done _
      | ok h => exact within_log (within_done _)

/-- Making a container transferable adds nothing. -/
theorem transferable_addsNothing : (c.transferable ctx).AddsNothing := by
  rw [transferable_eq]
  split
  · exact within_done _
  · split
    · exact within_done _
    · exact within_log <| within_bind c.tryClone_addsNothing fun _ =>
        within_bind c.cleanup_addsNothing fun _ => within_done _

end Container

namespace DataStore

variable (d : DataStore) (name : Option String)

/-- A plain value is added only if the push succeeds. -/
theorem addPlain_addsOnSuccess (value : Plain) : (d.addPlain ctx name value).AddsOnSuccess := by
  rw [addPlain_eq]
  generalize (addPlain.checkPlain value >>= fun _ =>
    ctx.require (Call.add d.handle name (.plain value)).entry) = check
  cases check <;> simp [AddsOnSuccess]

/-- A container is added only if the push succeeds. -/
theorem addContainer_addsOnSuccess {k : Kind} (c : Container k) :
    (d.addContainer ctx name c).AddsOnSuccess := by
  rw [addContainer_eq]
  refine (always_bind _ _ _).mpr (Always.imp c.transferable_addsNothing fun trace r htrace => ?_)
  cases r with
  | error e => simpa [AddsOnSuccess] using htrace
  | ok owned =>
    cases ctx.require (.add name.isSome k.tableName) with
    | error e =>
      -- The addition comes last, so what fails before it has handed over nothing.
      refine (always_bind _ _ _).mpr (Always.imp owned.cleanup_addsNothing fun _ _ hcleanup => ?_)
      rintro e ⟨⟩
      simpa using fun c hc => hc.elim (htrace c) (hcleanup c)
    | ok _ => simp

/-- A push that fails hands nothing over. -/
theorem push_addsOnSuccess (value : Value) : (d.push ctx name value).AddsOnSuccess := by
  rw [push_eq]
  cases checkPush ctx d name with
  | error e =>
    have hdrop : (value.drop ctx).AddsNothing := by
      cases value with
      | plain value => exact within_done _
      | container k c => exact c.cleanup_addsNothing
    refine (always_bind _ _ _).mpr (Always.imp hdrop fun trace _ htrace => ?_)
    simpa using htrace
  | ok _ =>
    have hadd : (d.add ctx name value).AddsOnSuccess := by
      cases value with
      | plain value => exact d.addPlain_addsOnSuccess name value
      | container k c => exact d.addContainer_addsOnSuccess name c
    refine (always_bind _ _ _).mpr (hadd.imp fun trace r htrace => ?_)
    cases r with
    | error e => simpa using htrace e rfl
    | ok _ => simp

end DataStore

namespace Operation

variable {w : Workspace}

/-- Which store, name and value a push is about. -/
theorem eq_push_of_isPush {op : Operation} (hop : op.isPush) :
    ∃ store name value, op = .push store name value := by
  cases op <;> first | exact ⟨_, _, _, rfl⟩ | cases hop

/-- An operation that fails hands nothing over. -/
theorem perform_addsOnSuccess (op : Operation) :
    (op.perform ctx w).Always fun trace outcome => ∀ failure, outcome.1 = .error failure →
      ∀ c ∈ Happening.calls trace, c.isAddition = false := by
  by_cases hop : op.isPush
  · obtain ⟨store, name, value, rfl⟩ := eq_push_of_isPush hop
    have hplan : Except.Ensures (fun d : Dialogue Outcome => d.Always fun trace outcome =>
        ∀ failure, outcome.1 = .error failure → ∀ c ∈ Happening.calls trace, c.isAddition = false)
        ((push store name value).plan ctx w) := by
      refine Except.ensures_bind fun d _ => Except.ensures_bind fun moved _ => ?_
      refine (always_bind _ _ _).mpr ((d.push_addsOnSuccess name moved.1).imp fun trace r hr => ?_)
      cases r with
      | error e => simpa using hr e rfl
      | ok _ => simp
    unfold perform
    cases h : (push store name value).plan ctx w with
    | error failure => simp
    | ok dialogue => rwa [h] at hplan
  · -- What fails and is no push is harmless, and an addition is not.
    have hreverts : (op.perform ctx w).Reverts w := perform_reverts (by simpa using hop)
    refine hreverts.imp fun trace outcome hpath failure hfailed c hc => ?_
    exact (Happening.calls_of_harmless (hpath failure hfailed).2.1 c hc).2

end Operation

/-! ### Entries of the ledger -/

/-- An operation that was carried out: the workspaces before and after it, its answer, and what
    happened. -/
structure Deed where
  before : Workspace
  op : Operation
  answer : Except Failure Answer
  after : Workspace
  trace : List Happening

namespace Deed

/-- The array whose implicit value was changed in place.  It was reset to the handle it held, so
    it was given away and obtained under one tag. -/
def kept (d : Deed) : List Holding :=
  match d.op, d.answer with
  | .setImplicit source _, .ok _ | .resparsify source, .ok _ =>
    if d.after.find? source = d.before.find? source then (d.before.find? source).toList else []
  | _, _ => []

/-- The containers that came into hand: made by the host, wrapped, or reset to. -/
def gained (d : Deed) : List Holding := (d.op.deal d.before).taken.toList ++ received d.trace

/-- The containers that the caller came to hold: those that came into hand, and one that was
    kept. -/
def obtained (d : Deed) : List Holding := d.gained ++ d.kept

/-- The containers that the caller gave away: relinquished, turned into bare handles, passed to a
    result slot, reset to the same handle, or pushed by a push that succeeded. -/
def given (d : Deed) : List Holding :=
  (match d.answer with
    | .ok _ => handedOver d.trace
    | .error _ => []) ++ (d.op.deal d.before).given.toList ++ d.kept

/-- The calls that were made. -/
def calls (d : Deed) : List Call := Happening.calls d.trace

/-- What was obtained is counted by where it came from. -/
theorem count_obtained (d : Deed) (x : Holding) :
    d.obtained.count x =
      (received d.trace).count x + (d.op.deal d.before).taken.toList.count x + d.kept.count x := by
  simp only [obtained, gained, List.count_append]
  omega

/-- Whatever its answer is, what an operation handed over is in its entry. -/
theorem count_given (d : Deed) (hfailed : ∀ failure, d.answer = .error failure →
      ∀ c ∈ d.calls, c.isAddition = false) (x : Holding) :
    d.given.count x =
      (handedOver d.trace).count x + (d.op.deal d.before).given.toList.count x +
        d.kept.count x := by
  unfold given
  cases hanswer : d.answer with
  | ok answer => simp [Nat.add_assoc]
  | error failure => simp [handedOver_eq_nil (hfailed failure hanswer)]

end Deed

namespace Operation

variable {σ : Type} {w : Workspace}

/-- An operation together with what came of it. -/
def deed (w : Workspace) (op : Operation) (run : Run σ Outcome) : Deed :=
  ⟨w, op, run.value.1, run.value.2, run.trace⟩

/-- Operations carried out with a host, one after the other. -/
def deeds (ctx : Context) (host : Host σ) (w : Workspace) (s : σ) : List Operation → List Deed
  | [] => []
  | op :: rest =>
    let run := (op.perform ctx w).run host s
    op.deed w run :: deeds ctx host run.value.2 run.state rest

/-- What a deal takes and gives is in hand after it and before it. -/
theorem count_hands (hw : w.Ordered) (op : Operation) (x : Holding) :
    (op.hands w).held.count x + (op.deal w).given.toList.count x =
      w.held.count x + (op.deal w).taken.toList.count x := by
  simp only [hands, Deal.applied, Deal.rest, List.count_append]
  cases hgiven : (op.deal w).given with
  | none => simp only [Option.toList, List.count_nil]; omega
  | some y =>
    have hperm := (List.perm_cons_erase (given_mem_held hw hgiven)).count_eq x
    simp only [List.count_cons, Option.toList, List.count_nil] at hperm ⊢
    omega

/-- **One operation keeps the ledger balanced**, whatever the host answers. -/
theorem perform_balances (hw : w.Ordered) (op : Operation) (host : Host σ) (s : σ)
    {x : Holding} {cleanup : Call} (hx : x.release? = some cleanup)
    (hcleanup : ctx.provides cleanup.entry) :
    let d := op.deed w ((op.perform ctx w).run host s)
    w.held.count x + d.obtained.count x =
      d.calls.count cleanup + d.given.count x + d.after.held.count x := by
  intro d
  -- The deal and the trace together lead from the workspace before to the one after.
  obtain ⟨hpermits, H', hcovers, -, rfl⟩ := (perform_honest ctx hw op).run host s
  have hbooks := count_afterAll hpermits (Holding.isOwner_of_release? hx)
  have hend := hcovers.count_eq x cleanup hx hcleanup
  have hreleased := count_released hx d.trace
  have hdeal := count_hands hw op x
  have hgiven := d.count_given ((perform_addsOnSuccess op).run host s) x
  have hobtained := d.count_obtained x
  simp only [d, deed, Deed.calls] at *
  omega

/-- Operations in a row are the first one and then the rest, from the workspace and the state that
    it leaves. -/
theorem performAll_cons (op : Operation) (rest : List Operation) (host : Host σ) (s : σ) :
    (performAll ctx w (op :: rest)).run host s =
      let first := (op.perform ctx w).run host s
      let second := (performAll ctx first.value.2 rest).run host first.state
      ⟨(first.value.1 :: second.value.1, second.value.2), second.state,
        first.trace ++ second.trace⟩ := by
  show (Dialogue.bind (op.perform ctx w) fun outcome =>
    (performAll ctx outcome.2 rest).bind fun answers =>
      done (outcome.1 :: answers.1, answers.2)).run host s = _
  simp only [run_bind, run_done, List.append_nil]

/-- Operations carried out one after the other keep the ledger balanced. -/
theorem performAll_balances (hw : w.Ordered) (ops : List Operation) (host : Host σ) (s : σ)
    {x : Holding} {cleanup : Call} (hx : x.release? = some cleanup)
    (hcleanup : ctx.provides cleanup.entry) :
    let run := (performAll ctx w ops).run host s
    let entries := deeds ctx host w s ops
    w.held.count x + (entries.flatMap Deed.obtained).count x =
      run.calls.count cleanup + (entries.flatMap Deed.given).count x +
        run.value.2.held.count x := by
  induction ops generalizing w s with
  | nil => simp [performAll, deeds, Run.calls]
  | cons op rest ih =>
    -- The first operation leaves an ordered workspace, from which the others start.
    obtain ⟨-, H', -, hw', -⟩ := (perform_honest ctx hw op).run host s
    have hfirst := perform_balances hw op host s hx hcleanup
    have hrest := ih hw' ((op.perform ctx w).run host s).state
    rw [performAll_cons]
    simp only [deeds, List.flatMap_cons, List.count_append, Run.calls, List.filterMap_append,
      deed, Deed.calls, Happening.calls] at hfirst hrest ⊢
    omega

end Operation

/-- **The ledger of responsibility.** Against any host, after any number of operations from a
    workspace without containers, and for every kind and handle: as often as the caller came to
    hold the handle as its own it was destroyed, given away or is still held, if the host has the
    entry that destroys it; and the same for shares, and the entry that gives one up. -/
theorem Operation.ledger_balances {σ : Type} (ctx : Context) (host : Host σ) (s : σ)
    (handles : List (String × Handle)) (ops : List Operation) (k : Kind) (h : Handle)
    (hnull : h ≠ .null) :
    let run := (performAll ctx { handles } ops).run host s
    let entries := deeds ctx host { handles } s ops
    let owned : Holding := ⟨k, ⟨h, .callerOwned⟩⟩
    let shared : Holding := ⟨k, ⟨h, .sharedWithHost⟩⟩
    (ctx.provides (.free k) →
      (entries.flatMap Deed.obtained).count owned =
        run.calls.count (.free k h) + (entries.flatMap Deed.given).count owned +
          run.value.2.held.count owned) ∧
    (k.supportsSharing → ctx.provides (.disown k) →
      (entries.flatMap Deed.obtained).count shared =
        run.calls.count (.disown k h) + (entries.flatMap Deed.given).count shared +
          run.value.2.held.count shared) := by
  intro run entries owned shared
  -- Nothing is held in the beginning, so what was obtained is all that has to be accounted for.
  have hempty : ∀ x : Holding, ({ handles } : Workspace).held.count x = 0 := fun _ => rfl
  have hvalid : (⟨h, .callerOwned⟩ : Container k).isNull = false := by
    simpa [Container.isNull] using hnull
  constructor
  · intro hfree
    have howned : owned.release? = some (.free k h) := by simp [owned, Holding.release?, hvalid]
    have hbalance := performAll_balances (Workspace.ordered_empty handles) ops host s howned hfree
    simpa only [hempty, Nat.zero_add] using hbalance
  · intro hsharing hdisown
    have hshared : shared.release? = some (.disown k h) := by
      have hvalid : (⟨h, .sharedWithHost⟩ : Container k).isNull = false := hvalid
      simp [shared, Holding.release?, hvalid, hsharing]
    have hbalance :=
      performAll_balances (Workspace.ordered_empty handles) ops host s hshared hdisown
    simpa only [hempty, Nat.zero_add] using hbalance

/-- A host that makes everything out of the first resource: its handle is obtained twice, and
    then destroyed once and given away once. -/
theorem ledger_balances_of_repeated_handle :
    let host : Host Unit := ⟨fun c s => (c.shape.deliver (.ok (.ofNumber 1)), s)⟩
    let ops : List Operation :=
      [.new (.tensor 2 [3]) "a", .new (.tensor 2 [3]) "b", .drop "a", .relinquish "b" none]
    let run := (Operation.performAll .full {} ops).run host ()
    let entries := Operation.deeds .full host {} () ops
    let owned : Holding := ⟨.tensor, .fresh (.ofNumber 1)⟩
    (entries.flatMap Deed.obtained).count owned = 2 ∧
      run.calls.count (.free .tensor (.ofNumber 1)) + (entries.flatMap Deed.given).count owned +
        run.value.2.held.count owned = 2 := by
  intro host ops run entries owned
  have hbalance := (Operation.ledger_balances .full host () [] ops .tensor (.ofNumber 1)
    (by decide)).1 rfl
  have hobtained : (entries.flatMap Deed.obtained).count owned = 2 := by decide +kernel
  exact ⟨hobtained, hbalance.symm.trans hobtained⟩

end Custody
