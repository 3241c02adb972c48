import Custody.Proofs.Accounting
import Custody.Proofs.Depot.Nesting
import Custody.Proofs.Ledger
import Custody.Proofs.Sessions

namespace Custody

open Dialogue Hands Depot Relation

/-!
# Nothing is left behind

In a session in which nothing is given up but by a call of the library, everything that came into
hand is out of it at the end: what was owned was destroyed or handed over to a store, and every
share was given back.  What is alive then hangs on something that the host made for itself.

* `Session.Thrifty` -- nothing is given up without a call, and stores that are pushed to are alive;
* `Session.deeds`, `Session.stocks`, `Session.calls` -- what was done, and by whom;
* `Session.Accounted` -- the invariant; `Session.Accounted.step` is what one step preserves;
* `Session.nothing_left_behind` -- **nothing leaks, and every share is given back once**.
-/

/-! ### Full tables -/

/-- What is owned is freed when it is let go of. -/
theorem Holding.release?_of_isOwned {x : Holding} (hx : x.isOwned) :
    x.release? = some (.free x.kind x.container.handle) := by
  simp only [isOwned, Bool.and_eq_true, Bool.not_eq_true', decide_eq_true_eq] at hx
  simp [release?, hx.1, hx.2]

/-- A share is given up when it is let go of. -/
theorem Holding.release?_of_isShare {x : Holding} (hx : x.isShare) :
    x.release? = some (.disown x.kind x.container.handle) := by
  simp only [isShare, Bool.and_eq_true, Bool.not_eq_true', decide_eq_true_eq] at hx
  simp [release?, hx.1.1, hx.1.2, hx.2]

/-- An owned container is listed at most as often as its handle has owners. -/
theorem count_le_owners {x : Holding} (hx : x.isOwned) (l : List Holding) :
    l.count x ≤ owners l x.container.handle := by
  refine List.countP_mono_left fun y _ hy => ?_
  obtain rfl : y = x := by simpa using hy
  simp [hx]

/-- Lists with the same shares have the same sharers. -/
theorem sharers_eq_of_count {l l' : List Holding} (h : ∀ x, x.isShare → l.count x = l'.count x)
    {y : Handle} : sharers l y = sharers l' y := by
  have hshare : ∀ {x : Holding}, (x.isShare && x.container.handle == y) → x.isShare := fun hx => by
    simp only [Bool.and_eq_true] at hx
    exact hx.1
  refine Nat.le_antisymm ?_ ?_
  · exact Holding.countP_le_of_count_le fun x hx => Nat.le_of_eq (h x (hshare hx))
  · exact Holding.countP_le_of_count_le fun x hx => Nat.le_of_eq (h x (hshare hx)).symm

/-- No share is handed over. -/
theorem count_handsOver?_of_isShare {x : Holding} (hx : x.isShare) (calls : List Call) :
    (calls.filterMap Call.handsOver?).count x = 0 := by
  refine List.count_eq_zero.mpr fun hmem => ?_
  obtain ⟨c, -, hc⟩ := List.mem_filterMap.mp hmem
  cases c with
  | add store name item =>
    cases item with
    | plain value => cases hc
    | container k h =>
      obtain rfl : _ = x := Option.some.inj hc
      simp [Holding.isShare] at hx
  | _ => cases hc

variable {ctx : Context} {H H' : Hands}

/-- With full tables nothing that is owned drops out of the hands. -/
theorem Hands.Covers.owners_le (h : Covers ctx H H') (hfull : ∀ e, ctx.provides e) (x : Handle) :
    owners H.held x ≤ owners H'.held x :=
  Holding.countP_le_of_count_le fun y hy => by
    simp only [Bool.and_eq_true] at hy
    exact Nat.le_of_eq (h.count_eq y _ (Holding.release?_of_isOwned hy.1) (hfull _)).symm

/-- An honest dialogue keeps the account if no effect is met on the way. -/
theorem Dialogue.Honest.accounts {α : Type} {D : Dialogue α} {Q : α → Hands → Prop}
    (hD : D.Honest ctx H Q) (hfull : ∀ e, ctx.provides e) {stock : List (Handle × Int)}
    {gained settled : List Holding} {host : Disturbed Depot}
    (ha : H.Accounts stock gained settled host.state) (hs : H.Sound host.state)
    (hquiet : host.pending = []) :
    let run := D.run Depot.host.disturbed host
    ∃ H', Q run.value H' ∧ run.state.pending = [] ∧
      H'.Accounts stock (gained ++ received run.trace) (settled ++ released run.trace)
        run.state.state ∧
      ∀ x c, x.release? = some c → H.held.count x + (received run.trace).count x =
        (released run.trace).count x + H'.held.count x := by
  intro run
  -- What the dialogue ends with may be less than what is in hand then, but not less that is owned.
  obtain ⟨hpermits, H', hcovers, hvalue⟩ := hD.run Depot.host.disturbed host
  obtain ⟨haccounts, hquiet'⟩ := ha.walks hs hquiet (D.run_walks _ host) hpermits
  refine ⟨H', hvalue, hquiet', haccounts.of_owners (hcovers.owners_le hfull) hcovers.store, ?_⟩
  intro x c hc
  have hbooks := count_afterAll hpermits (Holding.isOwner_of_release? hc)
  have hend := hcovers.count_eq x c hc (hfull _)
  simp only [run]
  omega

/-- What the host makes for itself has the holders that it was asked to have. -/
theorem Depot.shareCountOf_supply (d : Depot) (stock : Stock) (shareCount : Option Int) :
    (d.supply stock shareCount).2.shareCountOf (d.supply stock shareCount).1 =
      shareCount.getD 0 := by
  have hstock : ∃ r, (d.stock stock).2.find? (d.stock stock).1 = some r ∧ r.shareCount = 0 := by
    cases stock <;> exact ⟨_, find?_alloc_self _ _, rfl⟩
  obtain ⟨r, hr, hzero⟩ := hstock
  cases shareCount with
  | none => simp [supply, shareCountOf, hr, hzero]
  | some n => simp [supply, shareCountOf, share, find?_modify, hr]

/-! ### What is done in a session -/

namespace Session

/-- Nothing is given up but by a call: no container is relinquished, made a bare handle or passed
    to a result slot, and none is reset to the handle it holds.  A store that is pushed to is
    alive, unless the variable is empty.  The host may refuse to make something, but no answer is
    replaced. -/
def Thrifty (s : Session) : Step → Prop
  | .operation op => (op.deal s.workspace).given = none ∧
      ∀ store, (op.hands s.workspace).store = some store → s.depot.isAlive store
  | .host (.inject ..) => False
  | .host _ => True

/-- What a step of the caller came to. -/
def deed? (s : Session) : Step → Option Deed
  | .operation op =>
    some (op.deed s.workspace ((op.perform s.context s.workspace).run Depot.host.disturbed s.host))
  | .host _ => none

/-- What the host makes on its own account in a step, with its number of holders. -/
def stock? (s : Session) : Step → Option (Handle × Int)
  | .host (.alloc stock shareCount _) =>
    some ((s.depot.supply stock shareCount).1, shareCount.getD 0)
  | _ => none

/-- What the steps of the caller came to. -/
def deeds (s : Session) : List Step → List Deed
  | [] => []
  | step :: rest => (s.deed? step).toList ++ (s.step step).2.deeds rest

/-- What the host makes on its own account. -/
def stocks (s : Session) : List Step → List (Handle × Int)
  | [] => []
  | step :: rest => (s.stock? step).toList ++ (s.step step).2.stocks rest

/-- The containers that come into hand. -/
def gained (s : Session) (steps : List Step) : List Holding := (s.deeds steps).flatMap Deed.gained

/-- The calls that are made, up to the last ones that let go of all variables. -/
def calls (s : Session) (steps : List Step) : List Call :=
  (s.deeds steps).flatMap Deed.calls ++ Happening.calls (s.run steps).2.finish.1.trace

/-! ### What a step preserves -/

/-- With full tables and no effects, everything is accounted for. -/
structure Accounted (stock : List (Handle × Int)) (gained settled : List Holding) (s : Session) :
    Prop where
  sound : s.Sound
  quiet : s.host.pending = []
  full : ∀ e, s.context.provides e
  account : Hands.Accounts stock gained settled ⟨s.workspace.held, none⟩ s.depot
  books : ∀ x c, x.release? = some c →
    gained.count x = settled.count x + s.workspace.held.count x

namespace Accounted

variable {s : Session} {stock : List (Handle × Int)} {gained settled : List Holding}

/-- What is in hand when a truthful operation begins is accounted for. -/
theorem hands (ha : s.Accounted stock gained settled) {op : Operation}
    (htruthful : op.Truthful s.depot s.workspace)
    (hthrifty : s.Thrifty (.operation op)) :
    (op.hands s.workspace).Accounts stock (gained ++ (op.deal s.workspace).taken.toList) settled
      s.depot := by
  obtain ⟨hgiven, hstore⟩ := hthrifty
  have hrest : (op.deal s.workspace).rest s.workspace.held = s.workspace.held := by
    simp [Deal.rest, hgiven]
  suffices h : Hands.Accounts stock (gained ++ (op.deal s.workspace).taken.toList) settled
      ⟨(op.deal s.workspace).applied s.workspace.held, none⟩ s.depot from
    { h with store := hstore }
  rw [Deal.applied, hrest]
  cases htaken : (op.deal s.workspace).taken with
  | none => simpa using ha.account
  | some x =>
    refine ha.account.take (.refl _) (fun y hy => .inr hy) fun howned => ?_
    -- Whatever else is taken is a view of something that is given up, and nothing is.
    have hwrapping : op.isWrapping := by
      by_contra hother
      obtain ⟨y, hy, -⟩ := Operation.taken_of_not_isWrapping (by simpa using hother) htaken
      simp [hgiven] at hy
    have hown : x.container.isNull = false ∧ x.container.ownership = .callerOwned := by
      simpa [Holding.isOwned] using howned
    have hvouches := htruthful hwrapping x htaken hown.1
    rw [hrest] at hvouches
    obtain ⟨r, hlive, -⟩ := hvouches.live
    obtain ⟨hfree, hothers⟩ := hvouches.owned hown.2
    -- A root that the caller does not own is in the stock, and was never gained before.
    have hroot : s.depot.Root x.container.handle :=
      ⟨isAlive_of_live? hlive, grip_eq_zero_iff.mpr hfree⟩
    have howners : owners s.workspace.held x.container.handle = 0 :=
      owners_eq_zero fun y hy hsame => by simp [hothers y hy hsame]
    refine ⟨((ha.account.roots _ hroot).resolve_left ?_).2, r, (live?_eq_some_iff.mp hlive).1⟩
    show ¬ 0 < owners s.workspace.held x.container.handle
    omega

/-- **An operation keeps a session accounted** if it is truthful and thrifty. -/
theorem operationStep (ha : s.Accounted stock gained settled) {op : Operation}
    (htruthful : op.Truthful s.depot s.workspace) (hthrifty : s.Thrifty (.operation op)) :
    let deed := op.deed s.workspace
      ((op.perform s.context s.workspace).run Depot.host.disturbed s.host)
    (s.operationStep op).2.Accounted stock (gained ++ deed.gained)
      (settled ++ released deed.trace) := by
  intro deed
  have hordered := ha.sound.ordered
  have hhands := ha.hands htruthful hthrifty
  obtain ⟨H', ⟨hordered', rfl⟩, hquiet, haccount, hbooks⟩ :=
    (Operation.perform_honest s.context hordered op).accounts ha.full hhands
      (ha.sound.hands.hands hordered htruthful) ha.quiet
  refine ⟨ha.sound.operationStep htruthful, hquiet, ha.full, ?_, fun x c hc => ?_⟩
  · rw [List.append_assoc] at haccount
    exact haccount
  · have hold := ha.books x c hc
    have hbooks := hbooks x c hc
    have hdeal := Operation.count_hands hordered op x
    -- Nothing is given up without a call, so the deal is what is taken.
    rw [hthrifty.1] at hdeal
    have hafter : (s.operationStep op).2.workspace = deed.after := rfl
    rw [hafter]
    simp only [List.count_append, Deed.gained, deed, Operation.deed] at hbooks ⊢
    simp only [Option.toList_none, List.count_nil] at hdeal
    omega

/-- What the host makes on its own account is its own. -/
theorem supply (ha : s.Accounted stock gained settled) (made : Stock) (shareCount : Option Int) :
    Hands.Accounts (stock ++ [((s.depot.supply made shareCount).1, shareCount.getD 0)]) gained
      settled ⟨s.workspace.held, none⟩ (s.depot.supply made shareCount).2 := by
  obtain ⟨k, hmakes⟩ := supply_makes ha.sound.hands.tidy made shareCount
  -- The new handle was not found before, so it was neither gained nor settled.
  have hnew : ∀ {n : Nat},
      (0 < n → ∃ r, s.depot.find? (s.depot.supply made shareCount).1 = some r) → n = 0 := by
    refine fun h => Nat.eq_zero_of_not_pos fun hpos => ?_
    obtain ⟨r, hr⟩ := h hpos
    simp [hmakes.fresh] at hr
  have hgained := hnew fun hpos => ha.account.found _ (.inl hpos)
  have hsettled := hnew fun hpos => ha.account.found _ (.inr hpos)
  constructor
  · intro x hx
    rw [List.map_append, List.mem_append]
    rcases hmakes.roots x hx with rfl | hx
    · exact .inr ⟨.inr (List.mem_singleton.mpr rfl), hgained⟩
    · exact (ha.account.roots x hx).imp id fun ⟨hmem, hzero⟩ => ⟨.inl hmem, hzero⟩
  · exact ha.account.once
  · exact fun x hx => hmakes.keeps.found (ha.account.found x hx)
  · intro p hp
    rcases List.mem_append.mp hp with hp | hp
    · obtain ⟨hfound, hcount⟩ := ha.account.shares p hp
      exact ⟨hmakes.keeps.found hfound, (hmakes.keeps.shareCountOf hfound).trans hcount⟩
    · obtain rfl := List.mem_singleton.mp hp
      obtain ⟨r, hr, -⟩ := hmakes.kind
      refine ⟨⟨r, hr⟩, ?_⟩
      rw [hsettled, shareCountOf_supply]
      exact (Int.sub_zero _).symm
  · exact nofun

/-- What the host does for itself is accounted for. -/
theorem hostStep (ha : s.Accounted stock gained settled) {op : HostOperation}
    (htruthful : s.Truthful (.host op)) (hthrifty : s.Thrifty (.host op)) :
    (s.hostStep op).2.Accounted (stock ++ (s.stock? (.host op)).toList) gained settled := by
  have hsound := ha.sound.hostStep htruthful
  -- Settings of the host change nothing that is accounted for.
  have halike : ∀ {d}, s.depot.Alike d → (s.withDepot d).Sound →
      (s.withDepot d).Accounted (stock ++ []) gained settled := fun h hsound => by
    rw [List.append_nil]
    exact ⟨hsound, ha.quiet, ha.full, ha.account.alike h, ha.books⟩
  have hsame : s.Accounted (stock ++ []) gained settled := by rwa [List.append_nil]
  cases op with
  | alloc made shareCount handleName =>
    refine ⟨hsound, ha.quiet, ha.full, ?_, fun x c hc => ?_⟩
    · show Hands.Accounts _ _ _ ⟨(s.workspace.record handleName _).held, none⟩ _
      rw [Workspace.held_record]
      exact ha.supply made shareCount
    · show _ = _ + (s.workspace.record handleName _).held.count x
      rw [Workspace.held_record]
      exact ha.books x c hc
  | shareCount | isAlive | postings => exact hsame
  | updateInPlace on => exact halike (alike_of_eq rfl rfl) hsound
  | fail undertaking code =>
    exact halike (by cases undertaking <;> exact alike_of_eq rfl rfl) hsound
  | inject entry request => exact absurd hthrifty id

/-- **A step keeps a session accounted** if it is truthful and thrifty. -/
theorem step (ha : s.Accounted stock gained settled) {step : Step} (htruthful : s.Truthful step)
    (hthrifty : s.Thrifty step) :
    (s.step step).2.Accounted (stock ++ (s.stock? step).toList)
      (gained ++ (s.deed? step).toList.flatMap Deed.gained)
      (settled ++ (s.deed? step).toList.flatMap fun deed => released deed.trace) := by
  cases step with
  | operation op =>
    show (s.operationStep op).2.Accounted _ _ _
    simpa [stock?, deed?] using ha.operationStep htruthful hthrifty
  | host op =>
    show (s.hostStep op).2.Accounted _ _ _
    simpa [deed?] using ha.hostStep htruthful hthrifty

/-- What a whole run preserves. -/
theorem run (ha : s.Accounted stock gained settled) {steps : List Step}
    (htruthful : s.Every Truthful steps) (hthrifty : s.Every Thrifty steps) :
    (s.run steps).2.Accounted (stock ++ s.stocks steps) (gained ++ s.gained steps)
      (settled ++ (s.deeds steps).flatMap fun deed => released deed.trace) := by
  induction steps generalizing s stock gained settled with
  | nil => simpa [stocks, Session.gained, deeds, Session.run] using ha
  | cons step rest ih =>
    have hrest := ih (ha.step htruthful.1 hthrifty.1) htruthful.2 hthrifty.2
    simp only [stocks, Session.gained, deeds, List.flatMap_append, ← List.append_assoc]
    exact hrest

end Accounted

end Session

/-! ### Letting go of everything -/

/-- Letting go of containers only cleans up. -/
theorem Holding.dropEach_within (ctx : Context) (held : List Holding) :
    (dropEach ctx held).Within (·.isCleanup) := by
  induction held with
  | nil => exact within_done _
  | cons x rest ih => exact within_bind (x.container.cleanup_within rfl rfl) fun _ => ih

/-- Letting go of all variables only cleans up. -/
theorem Workspace.dropAll_within (ctx : Context) (w : Workspace) :
    (w.dropAll ctx).Within (·.isCleanup) :=
  within_bind (Holding.dropEach_within ctx _) fun _ => within_done _

/-- Nothing comes into hand by cleanups. -/
theorem Hands.received_eq_nil {trace : List Happening}
    (h : ∀ c ∈ Happening.calls trace, c.isCleanup) : received trace = [] := by
  induction trace with
  | nil => rfl
  | cons step trace ih =>
    cases step with
    | called c a =>
      obtain ⟨hc, hrest⟩ := List.forall_mem_cons.mp h
      have hbrings : c.brings? a = none := by cases c <;> first | rfl | cases hc
      simp [received, hbrings, ih hrest]
    | logged e => exact ih h

/-- Cleanups only take away. -/
theorem Host.Walks.shrinks {s s' : Disturbed Depot} {trace : List Happening}
    (hwalks : Depot.host.disturbed.Walks s trace s') (hquiet : s.pending = [])
    (hcalls : ∀ c ∈ Happening.calls trace, c.isCleanup) : s.state.Shrinks s'.state := by
  induction hwalks with
  | nil s => exact .refl _
  | @called s _ trace c rest ih =>
    obtain ⟨hc, hrest⟩ := List.forall_mem_cons.mp hcalls
    have hanswer : Depot.host.disturbed.answer c s =
        ((s.state.answer c).1, ⟨s.pending, (s.state.answer c).2⟩) := by
      rw [Host.disturbed_answer, hquiet]
      rfl
    rw [hanswer] at ih
    exact (shrinks_answer hc s.state).trans (ih hquiet hrest)
  | logged e rest ih => exact ih hquiet hcalls

namespace Session

variable {s : Session} {stock : List (Handle × Int)} {gained settled : List Holding}

/-- Once all variables are let go of, everything that was gained is settled. -/
theorem Accounted.finish (ha : s.Accounted stock gained settled) :
    Hands.Accounts stock gained (settled ++ released s.finish.1.trace) ⟨[], none⟩
      s.finish.2.depot ∧
    (∀ x c, x.release? = some c →
      gained.count x = (settled ++ released s.finish.1.trace).count x) ∧
    s.depot.Shrinks s.finish.2.depot := by
  have hcalls := (s.workspace.dropAll_within s.context).run
    Depot.host.disturbed s.host
  obtain ⟨H', ⟨-, rfl⟩, -, haccount, hbooks⟩ :=
    (s.workspace.dropAll_honest s.context).accounts ha.full ha.account
      ha.sound.hands ha.quiet
  -- Cleanups bring nothing into hand.
  rw [received_eq_nil hcalls, List.append_nil] at haccount
  refine ⟨haccount, fun x c hc => ?_, ?_⟩
  · have hold := ha.books x c hc
    have hbooks := hbooks x c hc
    rw [received_eq_nil hcalls, List.count_nil] at hbooks
    show gained.count x = (settled ++ released
      ((s.workspace.dropAll s.context).run Depot.host.disturbed s.host).trace).count x
    rw [List.count_append]
    simp only at hbooks
    omega
  · exact (Dialogue.run_walks _ _ _).shrinks ha.quiet hcalls

/-- What a session comes to once all variables are let go of. -/
structure Settled (s : Session) (steps : List Step) : Prop where
  /-- What is alive hangs on something that the host made for itself and the caller never owned. -/
  rooted : ∀ x, (s.run steps).2.finish.2.depot.isAlive x →
    ∃ root ∈ (s.stocks steps).map (·.1), owners (s.gained steps) root = 0 ∧
      (s.run steps).2.finish.2.depot.isAlive root ∧
        ReflTransGen (s.run steps).2.finish.2.depot.Contains root x
  /-- What was owned was destroyed or handed over to a store, once if it was owned at all. -/
  freed : ∀ k h, h ≠ .null →
    (s.calls steps).count (.free k h) +
        ((s.calls steps).filterMap Call.handsOver?).count ⟨k, ⟨h, .callerOwned⟩⟩ =
      (s.gained steps).count ⟨k, ⟨h, .callerOwned⟩⟩ ∧
    (s.gained steps).count ⟨k, ⟨h, .callerOwned⟩⟩ ≤ 1
  /-- Every share was given up. -/
  disowned : ∀ k h, h ≠ .null → k.supportsSharing →
    (s.calls steps).count (.disown k h) = (s.gained steps).count ⟨k, ⟨h, .sharedWithHost⟩⟩
  /-- Every share that was given up is missing in the depot. -/
  shares : ∀ p ∈ s.stocks steps,
    (s.run steps).2.finish.2.depot.shareCountOf p.1 = p.2 - sharers (s.gained steps) p.1
  /-- No release went wrong. -/
  released : ∀ v ∈ (s.run steps).2.finish.2.depot.violations, v.operation ∉ releasing

/-- A session that begins with an empty depot has everything accounted for. -/
theorem accounted_start (hfull : ∀ e, ctx.provides e) :
    Accounted [] [] [] { context := ctx } where
  sound := sound_start ctx
  quiet := rfl
  full := hfull
  account := by
    refine ⟨fun x hx => ?_, fun _ => Nat.zero_le 1, fun x hx => ?_, nofun, nofun⟩
    · obtain ⟨r, hr, -⟩ := isAlive_iff.mp hx.1
      simp [depot, find?] at hr
    · exact absurd hx (by simp [owners, sharers])
  books _ _ _ := rfl

/-- **Nothing leaks, and every share is given back once.** -/
theorem nothing_left_behind (ctx : Context) (hfull : ∀ e, ctx.provides e) (steps : List Step)
    (htruthful : Every Truthful { context := ctx } steps)
    (hthrifty : Every Thrifty { context := ctx } steps)
    (hacyclic : (Session.run { context := ctx } steps).2.depot.Acyclic) :
    Settled { context := ctx } steps := by
  have ha := (accounted_start hfull).run htruthful hthrifty
  simp only [List.nil_append] at ha
  obtain ⟨haccount, hbooks, hshrinks⟩ := ha.finish
  have hcalls : ((Session.deeds { context := ctx } steps).flatMap fun deed =>
        Hands.released deed.trace) ++
      Hands.released (Session.run { context := ctx } steps).2.finish.1.trace =
      (Session.calls { context := ctx } steps).filterMap Call.releases? := by
    simp only [calls, List.filterMap_append, List.filterMap_flatMap]
    rfl
  rw [hcalls] at haccount hbooks
  constructor
  · -- Nothing is in hand at the end, so a root can only be in the stock.
    intro x hx
    obtain ⟨root, hroot, habove⟩ := root_above (hshrinks.acyclic hacyclic) hx
    obtain ⟨hmem, hzero⟩ := (haccount.roots root hroot).resolve_left (Nat.lt_irrefl 0)
    exact ⟨root, hmem, hzero, hroot.1, habove⟩
  · intro k h hnull
    have howned : (⟨k, ⟨h, .callerOwned⟩⟩ : Holding).isOwned := by
      simpa [Holding.isOwned, Container.isNull] using hnull
    have hrelease := Holding.release?_of_isOwned howned
    refine ⟨?_, (count_le_owners howned _).trans (haccount.once h)⟩
    exact ((hbooks _ _ hrelease).trans (Call.count_filterMap_releases? hrelease _)).symm
  · intro k h hnull hk
    have hshare : (⟨k, ⟨h, .sharedWithHost⟩⟩ : Holding).isShare := by
      simpa [Holding.isShare, Container.isNull, hk] using hnull
    have hrelease := Holding.release?_of_isShare hshare
    have hnone := count_handsOver?_of_isShare hshare (Session.calls { context := ctx } steps)
    have hcount := (hbooks _ _ hrelease).trans (Call.count_filterMap_releases? hrelease _)
    rw [hnone, Nat.add_zero] at hcount
    exact hcount.symm
  · intro p hp
    obtain ⟨-, hcount⟩ := haccount.shares p hp
    rw [hcount, sharers_eq_of_count fun x hx => hbooks x _ (Holding.release?_of_isShare hx)]
  · exact ((sound_start ctx).run htruthful).finish.released

/-- A tensor of the host is wrapped to be owned and pushed into a store of the host, a share of
    an array is wrapped, and a new tensor is refused.  At the end the share is given back, and the
    store of the host still holds the tensor. -/
theorem nothing_left_behind_of_gift :
    let steps : List Step :=
      [.host (.alloc (.tensor 2 [3]) none (some "t")),
        .host (.alloc .dataStore none (some "s")),
        .host (.alloc (.numericArray 1 [2]) (some 1) (some "n")),
        .operation (.wrap .tensor (.named "t") (.ownership .callerOwned) "a"),
        .operation (.wrap .dataStore (.named "s") (.ownership .hostManaged) "b"),
        .operation (.wrap .numericArray (.named "n") (.ownership .sharedWithHost) "c"),
        .operation (.push "b" none (.variable "a")),
        .host (.fail .new 6),
        .operation (.new (.tensor 2 [3]) "d")]
    (∀ e, Context.full.provides e) ∧ Every Truthful { context := .full } steps ∧
      Every Thrifty { context := .full } steps ∧
      (Session.run { context := .full } steps).2.depot.Acyclic ∧
      Settled { context := .full } steps := by
  intro steps
  have hfull : ∀ e, Context.full.provides e := fun _ => rfl
  have htruthful : Every Truthful { context := .full } steps := by
    refine ⟨trivial, trivial, trivial, fun _ x hx _ => ?_, fun _ x hx _ => ?_, fun _ x hx _ => ?_,
      nofun, trivial, nofun, trivial⟩
    · obtain rfl : (⟨.tensor, ⟨.ofNumber 1, .callerOwned⟩⟩ : Holding) = x := Option.some.inj hx
      exact ⟨⟨_, rfl, rfl⟩, fun _ => ⟨grip_eq_zero_iff.mp rfl, nofun⟩, nofun⟩
    · obtain rfl : (⟨.dataStore, ⟨.ofNumber 2, .hostManaged⟩⟩ : Holding) = x := Option.some.inj hx
      exact ⟨⟨_, rfl, rfl⟩, nofun, nofun⟩
    · obtain rfl : (⟨.numericArray, ⟨.ofNumber 3, .sharedWithHost⟩⟩ : Holding) = x :=
        Option.some.inj hx
      refine ⟨⟨_, rfl, rfl⟩, nofun, fun _ _ => ⟨grip_eq_zero_iff.mp rfl, ?_, ?_⟩⟩
      · decide +kernel
      · decide +kernel
  have hthrifty : Every Thrifty { context := .full } steps := by
    refine ⟨trivial, trivial, trivial, ⟨rfl, nofun⟩, ⟨rfl, nofun⟩, ⟨rfl, nofun⟩, ⟨rfl, ?_⟩, trivial,
      ⟨rfl, nofun⟩, trivial⟩
    intro store hstore
    obtain rfl : Handle.ofNumber 2 = store := Option.some.inj hstore
    rfl
  have hacyclic : (Session.run { context := .full } steps).2.depot.Acyclic :=
    acyclic_of_made_before (by decide +kernel)
  exact ⟨hfull, htruthful, hthrifty, hacyclic,
    nothing_left_behind _ hfull steps htruthful hthrifty hacyclic⟩

end Session

end Custody
