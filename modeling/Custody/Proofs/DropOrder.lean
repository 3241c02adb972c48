import Custody.Proofs.Depot.Hanging
import Custody.Proofs.Nulls
import Custody.Proofs.Sessions

namespace Custody

open Dialogue Hands Depot

/-!
# The order of cleanups

What is released belongs to one variable only, so letting go of one variable takes nothing away
from what comes with another.  The calls that are made are the same in any order, and so is what
is left of every resource.

* `Depot.SettlesAll` -- what some cleanups take away;
* `Host.Walks.settles` -- **permitted cleanups take away what they name and what hangs on it**;
* `Session.Sound.run_drops` -- what dropping variables comes to, one after the other;
* `Session.same_in_any_order` -- **the order in which variables are dropped does not matter**.
-/

/-! ### Cleanups -/

namespace Call

/-- The resource that a call destroys. -/
def freed? : Call → Option Handle
  | free _ h => some h
  | _ => none

/-- The resource that a call gives up a share of. -/
def disowned? : Call → Option Handle
  | disown _ h => some h
  | _ => none

end Call

/-- What hangs on the destroyed resources is gone, and so are the shares that were given up. -/
def Depot.SettlesAll (calls : List Call) (d d' : Depot) : Prop :=
  Settles (calls.filterMap Call.freed?) (calls.filterMap Call.disowned?) d d'

/-- What is settled by some calls and then by others is settled by all of them. -/
theorem Depot.SettlesAll.append {calls calls' : List Call} {d d' d'' : Depot}
    (h : SettlesAll calls d d') (h' : SettlesAll calls' d' d'') :
    SettlesAll (calls ++ calls') d d'' := by
  unfold SettlesAll
  rw [List.filterMap_append, List.filterMap_append]
  exact Settles.trans h h'

/-- No effect changes what a cleanup does. -/
theorem Depot.disturbed_cleanup {c : Call} (hc : c.isCleanup) (s : Disturbed Depot) :
    (Depot.host.disturbed.answer c s).2.state = (s.state.answer c).2 := by
  rw [Host.disturbed_answer]
  cases c with
  | free | disown => cases Disturbed.takeFirst _ s.pending <;> rfl
  | _ => cases hc

variable {H : Hands}

/-- A permitted cleanup takes away what it names. -/
theorem Hands.Sound.cleanup_settles {d : Depot} {c : Call} (hs : H.Sound d) (hc : H.Permits c)
    (hcleanup : c.isCleanup) : SettlesAll [c] d (d.answer c).2 := by
  cases c with
  | free k h => exact retire_settles (hs.tidy_free hc) _
  | disown k h =>
    rw [hs.disown_modifies hc]
    exact disown_settles d h
  | _ => cases hcleanup

/-- **Permitted cleanups take away what they name and what hangs on it**, whatever tame effects
    are met on the way. -/
theorem Host.Walks.settles {s s' : Disturbed Depot} {trace : List Happening}
    (hwalks : Depot.host.disturbed.Walks s trace s') (hs : H.Sound s.state) (htame : s.Tame)
    (hpermits : H.PermitsAll trace) (hcleanups : ∀ c ∈ Happening.calls trace, c.isCleanup) :
    SettlesAll (Happening.calls trace) s.state s'.state := by
  induction hwalks generalizing H with
  | nil s => exact .refl s.state
  | @called s _ trace c rest ih =>
    obtain ⟨hc, hrest⟩ := List.forall_mem_cons.mp hcleanups
    obtain ⟨hs', htame'⟩ := hs.disturbed htame hpermits.1
    have hfirst : SettlesAll [c] s.state (Depot.host.disturbed.answer c s).2.state := by
      rw [disturbed_cleanup hc]
      exact hs.cleanup_settles hpermits.1 hc
    exact hfirst.append (ih hs' htame' hpermits.2 hrest)
  | logged e rest ih => exact ih hs htame hpermits hcleanups

/-! ### Dropping variables -/

/-- The calls of a step. -/
def Report.calls (r : Report) : List Call := Happening.calls r.trace

namespace Session

variable {s : Session}

/-- Drops variables, one after the other. -/
def drops (names : List String) : List Step := names.map fun name => .operation (.drop name)

/-- The calls that clean up after variables, in this order. -/
def cleanups (s : Session) (names : List String) : List Call :=
  names.filterMap fun name => (s.workspace.find? name).bind Holding.release?

/-- The cleanups after variables begin with that of the first one. -/
theorem cleanups_cons (s : Session) (name : String) (rest : List String) :
    s.cleanups (name :: rest) =
      ((s.workspace.find? name).bind Holding.release?).toList ++ s.cleanups rest := by
  unfold cleanups
  rw [List.filterMap_cons]
  cases (s.workspace.find? name).bind Holding.release? <;> rfl

/-- Cleaning up after variables makes no other calls. -/
theorem isCleanup_of_mem_cleanups {names : List String} {c : Call} (hc : c ∈ s.cleanups names) :
    c.isCleanup := by
  obtain ⟨name, -, hname⟩ := List.mem_filterMap.mp hc
  obtain ⟨x, -, hx⟩ := Option.bind_eq_some_iff.mp hname
  rcases Holding.release?_eq_some hx with ⟨-, rfl⟩ | ⟨-, rfl⟩
  · rfl
  · rfl

/-- If a step makes no calls but cleanups, these tell what it takes away. -/
theorem Sound.operationStep_settles (hs : s.Sound) {op : Operation}
    (hop : op.Truthful s.depot s.workspace)
    (hcleanups : ∀ c ∈ (s.operationStep op).1.calls, c.isCleanup) :
    SettlesAll (s.operationStep op).1.calls s.depot (s.operationStep op).2.depot := by
  obtain ⟨hpermits, -⟩ := (Operation.perform_honest s.context hs.ordered op).run
    Depot.host.disturbed s.host
  exact (run_walks _ _ _).settles (hs.hands.hands hs.ordered hop) hs.tame hpermits hcleanups

/-- Dropping a variable cleans up after its container, and leaves the other variables. -/
theorem operationStep_drop (hfull : ∀ e, s.context.provides e) (name : String) :
    (s.operationStep (.drop name)).1.calls = s.cleanups [name] ∧
      ∀ other ≠ name,
        (s.operationStep (.drop name)).2.workspace.find? other = s.workspace.find? other := by
  rw [cleanups_cons]
  cases hx : s.workspace.find? name with
  | none =>
    -- A variable that is not there has nothing to clean up.
    have hplan : (Operation.drop name).perform s.context s.workspace =
        done (.error (.noVariable name), s.workspace) := by
      simp [Operation.perform, Operation.plan, Workspace.holding, hx]
    simp [operationStep, hplan, Report.calls, cleanups, Happening.calls]
  | some x =>
    have hcleanups : s.context.ProvidesCleanups := fun k => ⟨hfull _, fun _ => hfull _⟩
    constructor
    · show _ = x.release?.toList ++ []
      rw [List.append_nil]
      exact (Operation.drop_calls hcleanups hx).run Depot.host.disturbed s.host
    · intro other hne
      simp only [operationStep, Operation.perform_drop hx, run_bind, run_done]
      rw [Workspace.find?_remove, if_neg hne]

/-- What dropping variables comes to, one after the other: the calls that clean up after them are
    made, and these tell what is taken away. -/
theorem Sound.run_drops (hs : s.Sound) (hfull : ∀ e, s.context.provides e) {names : List String}
    (hnames : names.Nodup) :
    (s.run (drops names)).1.flatMap Report.calls = s.cleanups names ∧
      SettlesAll (s.cleanups names) s.depot (s.run (drops names)).2.depot ∧
      (s.run (drops names)).2.Sound := by
  induction names generalizing s with
  | nil => exact ⟨rfl, .refl _, hs⟩
  | cons name rest ih =>
    obtain ⟨hname, hrest⟩ := List.nodup_cons.mp hnames
    have htruthful : (Operation.drop name).Truthful s.depot s.workspace := nofun
    obtain ⟨hcalls, hothers⟩ := operationStep_drop hfull name
    -- The variables that are dropped later are still there, and hold what they held.
    have hlater : (s.operationStep (.drop name)).2.cleanups rest = s.cleanups rest := by
      refine List.filterMap_congr fun other hother => ?_
      rw [hothers other (ne_of_mem_of_not_mem hother hname)]
    have hfirst : SettlesAll (s.cleanups [name]) s.depot
        (s.operationStep (.drop name)).2.depot := by
      rw [← hcalls]
      refine hs.operationStep_settles htruthful ?_
      rw [hcalls]
      exact fun _ => isCleanup_of_mem_cleanups
    obtain ⟨hmade, hsettles, hsound⟩ := ih (hs.operationStep htruthful) hfull hrest
    rw [hlater] at hmade hsettles
    have hsplit : s.cleanups (name :: rest) = s.cleanups [name] ++ s.cleanups rest :=
      List.filterMap_append (l := [name])
    rw [hsplit]
    refine ⟨?_, hfirst.append hsettles, hsound⟩
    show (s.operationStep (.drop name)).1.calls ++
      ((s.operationStep (.drop name)).2.run (drops rest)).1.flatMap Report.calls = _
    rw [hcalls, hmade]

/-- **The order in which variables are dropped does not matter.** Take any state that a truthful
    session reaches with full tables, and drop all its variables in any two orders.  The same
    cleanup calls are made with the same handles, each as often.  No release goes wrong.  At the
    end the same resources are alive, and they have the same shares, entries and children. -/
theorem same_in_any_order (ctx : Context) (hfull : ∀ e, ctx.provides e) (steps : List Step)
    (hsteps : Every Truthful { context := ctx } steps) (order order' : List String)
    (horder : order.Perm
      ((Session.run { context := ctx } steps).2.workspace.holdings.map (·.1)))
    (horder' : order'.Perm
      ((Session.run { context := ctx } steps).2.workspace.holdings.map (·.1))) :
    let s := (Session.run { context := ctx } steps).2
    let first := s.run (drops order)
    let second := s.run (drops order')
    (first.1.flatMap Report.calls).Perm (second.1.flatMap Report.calls) ∧
      (∀ c ∈ first.1.flatMap Report.calls, c.isCleanup) ∧
      (∀ v ∈ first.2.depot.violations ++ second.2.depot.violations, v.operation ∉ releasing) ∧
      first.2.depot.resources = second.2.depot.resources := by
  intro s first second
  have hs : s.Sound := (sound_start ctx).run hsteps
  have hcontext : s.context = ctx := run_context _ steps
  have hprovides : ∀ e, s.context.provides e := hcontext ▸ hfull
  have hnodup := hs.ordered.nodup
  obtain ⟨hcalls, hsettles, hsound⟩ :=
    hs.run_drops hprovides (horder.nodup_iff.mpr hnodup)
  obtain ⟨hcalls', hsettles', hsound'⟩ :=
    hs.run_drops hprovides (horder'.nodup_iff.mpr hnodup)
  -- Each order makes the calls of its variables, whichever come first.
  have hperm : (s.cleanups order).Perm (s.cleanups order') :=
    (horder.trans horder'.symm).filterMap _
  refine ⟨?_, ?_, ?_, ?_⟩
  · rw [hcalls, hcalls']
    exact hperm
  · rw [hcalls]
    exact fun c => isCleanup_of_mem_cleanups
  · intro v hv
    rcases List.mem_append.mp hv with hv | hv
    · exact hsound.released v hv
    · exact hsound'.released v hv
  · exact hsettles.unique hsettles' (hperm.filterMap _) (hperm.filterMap _)

/-- A store that holds a tensor, an alias of the tensor and two shares of an array are dropped in
    two orders, while an effect waits for the destruction of stores. -/
theorem same_in_any_order_of_alias :
    let steps : List Step :=
      [.host (.alloc (.numericArray 1 [2]) (some 2) (some "n")),
        .operation (.wrap .numericArray (.named "n") (.ownership .sharedWithHost) "a"),
        .operation (.wrap .numericArray (.named "n") (.ownership .sharedWithHost) "b"),
        .operation (.new .dataStore "s"),
        .operation (.new (.tensor 2 [3]) "t"),
        .operation (.push "s" none (.variable "t")),
        .operation (.wrap .tensor (.number 3) (.ownership .hostManaged) "v"),
        .host (.inject (.free .dataStore) { code := 6 })]
    let s := (Session.run { context := .full } steps).2
    let first := s.run (drops ["s", "a", "v", "b"])
    let second := s.run (drops ["b", "v", "a", "s"])
    (∀ e, Context.full.provides e) ∧ Every Truthful { context := .full } steps ∧
      ["s", "a", "v", "b"].Perm (s.workspace.holdings.map (·.1)) ∧
      ["b", "v", "a", "s"].Perm (s.workspace.holdings.map (·.1)) ∧
      (first.1.flatMap Report.calls).Perm (second.1.flatMap Report.calls) ∧
      (∀ c ∈ first.1.flatMap Report.calls, c.isCleanup) ∧
      (∀ v ∈ first.2.depot.violations ++ second.2.depot.violations, v.operation ∉ releasing) ∧
      first.2.depot.resources = second.2.depot.resources := by
  intro steps s first second
  have hfull : ∀ e, Context.full.provides e := fun _ => rfl
  have hsteps : Every Truthful { context := .full } steps := by
    refine ⟨trivial, fun _ x hx _ => ?_, fun _ x hx _ => ?_, nofun, nofun, nofun,
      fun _ x hx _ => ?_, fun _ _ _ => rfl, trivial⟩
    · obtain rfl : (⟨.numericArray, ⟨.ofNumber 1, .sharedWithHost⟩⟩ : Holding) = x :=
        Option.some.inj hx
      exact ⟨⟨_, rfl, rfl⟩, nofun, fun _ _ =>
        ⟨grip_eq_zero_iff.mp rfl, nofun, by decide +kernel⟩⟩
    · obtain rfl : (⟨.numericArray, ⟨.ofNumber 1, .sharedWithHost⟩⟩ : Holding) = x :=
        Option.some.inj hx
      exact ⟨⟨_, rfl, rfl⟩, nofun, fun _ _ =>
        ⟨grip_eq_zero_iff.mp rfl, by decide +kernel, by decide +kernel⟩⟩
    · obtain rfl : (⟨.tensor, ⟨.ofNumber 3, .hostManaged⟩⟩ : Holding) = x := Option.some.inj hx
      exact ⟨⟨_, rfl, rfl⟩, nofun, nofun⟩
  have horder : ["s", "a", "v", "b"].Perm (s.workspace.holdings.map (·.1)) := by decide +kernel
  have horder' : ["b", "v", "a", "s"].Perm (s.workspace.holdings.map (·.1)) := by decide +kernel
  exact ⟨hfull, hsteps, horder, horder',
    same_in_any_order _ hfull steps hsteps _ _ horder horder'⟩

end Session

end Custody
