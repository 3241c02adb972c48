import Custody.Proofs.Firmness
import Custody.Proofs.Ledger

namespace Custody

open Dialogue Hands Depot

/-!
# A data store lists its pushes

While a data store is alive, its entries are the pushes that succeeded, in their order, whatever
else happens to it, to its copies and to what it holds.

* `Depot.Extends` -- a store has gained entries, and what it holds for them;
* `Hands.Firm.extends_of_add` -- an addition to a live store is carried out;
* `DataStore.push_posts` -- **a push that succeeds makes one addition, of the whole value**;
* `Session.pushed?`, `Session.pushes` -- the entries that the pushes of a session stand for;
* `Session.Firm.step_extends`, `Session.Firm.run_extends` -- they are what a store gains;
* `Session.store_lists_pushes` -- **the entries of a store are its successful pushes**.
-/

/-! ### Additions -/

/-- What the call adds to a store, if it does. -/
def Call.posting? (store : Handle) : Call → Option Posting
  | add other name item => if other = store then some ⟨name, item⟩ else none
  | _ => none

/-- What calls add to a store. -/
def Call.postingsTo (store : Handle) (calls : List Call) : List Posting :=
  calls.filterMap (posting? store)

namespace Call

variable {store : Handle} {c : Call}

@[simp] theorem postingsTo_nil (store : Handle) : postingsTo store [] = [] := rfl

/-- What calls add begins with what the first one adds. -/
theorem postingsTo_cons (store : Handle) (c : Call) (calls : List Call) :
    postingsTo store (c :: calls) = (c.posting? store).toList ++ postingsTo store calls := by
  cases hc : c.posting? store <;> simp [postingsTo, hc]

/-- What calls add in sequence is listed in sequence. -/
theorem postingsTo_append (store : Handle) (calls calls' : List Call) :
    postingsTo store (calls ++ calls') = postingsTo store calls ++ postingsTo store calls' :=
  List.filterMap_append

/-- Only an addition adds. -/
theorem posting?_eq_none (hc : c.isAddition = false) : c.posting? store = none := by
  cases c <;> first | rfl | cases hc

/-- Without additions nothing is added. -/
theorem postingsTo_eq_nil {calls : List Call} (h : ∀ c ∈ calls, c.isAddition = false) :
    postingsTo store calls = [] :=
  List.filterMap_eq_nil_iff.mpr fun c hc => posting?_eq_none (h c hc)

end Call

namespace Depot

variable {d d' d'' : Depot} {store : Handle} {ps qs : List Posting}

/-- If the store is alive in the end, it was alive before, and has gained these entries and what
    it holds for them. -/
def Extends (d : Depot) (store : Handle) (ps : List Posting) (d' : Depot) : Prop :=
  ∀ r, d.find? store = some r → ∃ r', d'.find? store = some r' ∧
    (r'.alive → r.alive ∧ r'.postings = r.postings ++ ps ∧
      r'.children = r.children ++ ps.flatMap (·.item.children))

namespace Extends

/-- What is preserved has gained nothing. -/
theorem of_preserves (h : d.Preserves d') : d.Extends store [] d' :=
  fun r hr => ⟨r, h store r hr, fun halive => ⟨halive, by simp, by simp⟩⟩

/-- A depot extends itself by nothing. -/
theorem refl (d : Depot) : d.Extends store [] d := of_preserves (.refl d)

/-- What is gained in two portions is gained in a row. -/
theorem trans (h : d.Extends store ps d') (h' : d'.Extends store qs d'') :
    d.Extends store (ps ++ qs) d'' := by
  intro r hr
  obtain ⟨r', hr', hstep⟩ := h r hr
  obtain ⟨r'', hr'', hstep'⟩ := h' r' hr'
  refine ⟨r'', hr'', fun halive => ?_⟩
  obtain ⟨halive', hpostings', hchildren'⟩ := hstep' halive
  obtain ⟨halive, hpostings, hchildren⟩ := hstep halive'
  exact ⟨halive, by rw [hpostings', hpostings, List.append_assoc],
    by rw [hchildren', hchildren, List.flatMap_append, List.append_assoc]⟩

end Extends

/-- A call extends a store by what it adds to it, if what it adds is alive. -/
theorem answer_extends (hd : d.WellFormed) {c : Call}
    (hitem : ∀ store name item, c = .add store name item → ∀ h ∈ item.children, d.isAlive h)
    (store : Handle) : d.Extends store (c.posting? store).toList (d.answer c).2 := by
  intro r hr
  obtain ⟨r', hr', hchange⟩ := answer_changes hd c hr
  refine ⟨r', hr', fun halive => ?_⟩
  cases hchange with
  | same =>
    -- An addition to the store would have been carried out.
    have hnone : c.posting? store = none := by
      cases c with
      | add other name item =>
        refine if_neg ?_
        rintro rfl
        have hlive := live?_eq_some_iff.mpr ⟨hr, halive⟩
        rw [answer_add_filled hlive name item (hitem other name item rfl), find?_modify, if_pos rfl,
          hr] at hr'
        have hlength := congrArg (fun r => (Option.map (fun r => r.postings.length) r)) hr'
        simp [filled] at hlength
      | _ => rfl
    simp [hnone, halive]
  | released => cases halive
  | disowned => simpa [Call.posting?, disowned] using halive
  | retyped => simpa [Call.posting?] using halive
  | filled => simpa [Call.posting?, filled] using halive

end Depot

namespace Hands

variable {aside : List Handle} {H : Hands} {d : Depot} {c : Call}

/-- **A permitted call extends a store by what it adds to it.** What is handed over is owned, and
    so it is alive. -/
theorem Firm.answer_extends (hs : H.Firm aside d) (hc : H.Permits c) (store : Handle) :
    d.Extends store (c.posting? store).toList (d.answer c).2 := by
  refine Depot.answer_extends hs.tidy.toWellFormed ?_ store
  rintro other name (value | ⟨k, child⟩) rfl h hh
  · cases hh
  · obtain rfl := List.mem_singleton.mp hh
    obtain ⟨hmem, hnull⟩ := hc.released _ rfl
    exact hs.isAlive_of_owned hmem (by simpa [Holding.isOwned, Container.isNull] using hnull)

/-- A call in front puts its entry in front, for hands that are firm. -/
theorem Firm.extends_cons (store : Handle) (H : Hands) (d : Depot) (c : Call) (cs : List Call)
    (d' : Depot) (hs : H.Firm aside d) (hc : H.Permits c)
    (hrest : (d.answer c).2.Extends store (Call.postingsTo store cs) d') :
    d.Extends store (Call.postingsTo store (c :: cs)) d' := by
  rw [Call.postingsTo_cons]
  exact (hs.answer_extends hc store).trans hrest

/-- Without a store to add to, nothing is added. -/
theorem postingsTo_of_permitsAll {trace : List Happening} (htrace : H.PermitsAll trace)
    (hstore : H.store = none) (store : Handle) :
    Call.postingsTo store (Happening.calls trace) = [] := by
  induction trace generalizing H with
  | nil => rfl
  | cons step trace ih =>
    cases step with
    | logged e => exact ih htrace hstore
    | called c a =>
      have hnone : c.posting? store = none := by
        cases c with
        | add other name item => simpa [hstore] using htrace.1.store other rfl
        | _ => rfl
      have hrest := ih htrace.2 (show (if c.isFree then none else H.store) = none by simp [hstore])
      rw [Happening.calls_called, Call.postingsTo_cons, hnone, hrest]
      rfl

end Hands

/-! ### What a push adds -/

/-- Nothing in the entry ends at a NUL. -/
structure Posting.Whole (p : Posting) : Prop where
  name : ∀ text, p.name = some text → '\x00' ∉ text.toList
  text : ∀ text, p.item = .plain (.string text) → '\x00' ∉ text.toList

variable {σ : Type} {ctx : Context} {host : Host σ} {st : σ}

/-- The handle that a store takes over for a container: its own if it belongs to the caller, and
    otherwise that of the copy which the host makes at this moment. -/
def Container.handedOver {k : Kind} (ctx : Context) (host : Host σ) (st : σ) (c : Container k) :
    Handle :=
  if c.ownership = .callerOwned then c.handle
  else match ((c.tryClone ctx).run.run host st).value with
    | .ok copy => copy.handle
    | .error _ => .null

/-- What a value is entered as. -/
def Value.item (ctx : Context) (host : Host σ) (st : σ) : Value → Item
  | .plain value => .plain value
  | .container k c => .container k (c.handedOver ctx host st)

/-- A text that is checked has no NUL in it. -/
theorem checkTerminated_eq_ok {text : String} (h : checkTerminated text = .ok ()) :
    '\x00' ∉ text.toList := by
  unfold checkTerminated at h
  split at h
  · next hnone => exact Text.nulOffset?_eq_none_iff.mp hnone
  · cases h

namespace Container

variable {k : Kind} {c owned : Container k}

/-- What a store can take over of a container has the handle that is handed over. -/
theorem transferable_run_eq_ok
    (h : ((c.transferable ctx).run host st).value = .ok owned) :
    owned.handle = c.handedOver ctx host st := by
  rw [transferable_eq] at h
  unfold handedOver
  split at h
  · cases h
  · split at h
    · next howned =>
      obtain rfl : c = owned := Except.ok.inj h
      rw [if_pos howned]
    · next howned =>
      rw [if_neg howned]
      have hcopy : ((c.tryClone ctx).run.run host st).value = .ok owned := by
        simpa [run_bind, Run.after] using h
      rw [hcopy]

end Container

namespace DataStore

variable {d : DataStore} {name : Option String}

/-- A plain value is added as it is. -/
theorem addPlain_posts {value : Plain} {u : Unit}
    (h : ((d.addPlain ctx name value).run host st).value = .ok u) (store : Handle) :
    Call.postingsTo store (Happening.calls ((d.addPlain ctx name value).run host st).trace) =
        ((Call.add d.handle name (.plain value)).posting? store).toList ∧
      ∀ text, value = .string text → '\x00' ∉ text.toList := by
  rw [addPlain_eq] at h ⊢
  generalize hcheck : (addPlain.checkPlain value >>= fun _ =>
    ctx.require (Call.add d.handle name (.plain value)).entry) = check at h ⊢
  cases check with
  | error e => cases h
  | ok _ =>
    refine ⟨by simp [Run.after, Call.postingsTo_cons], ?_⟩
    rintro text rfl
    refine checkTerminated_eq_ok (?_ : addPlain.checkPlain (.string text) = .ok ())
    cases hplain : addPlain.checkPlain (.string text) with
    | error e =>
      rw [hplain] at hcheck
      cases hcheck
    | ok _ => rfl

/-- A container is added under the handle that is handed over. -/
theorem addContainer_posts {k : Kind} {c : Container k} {u : Unit}
    (h : ((d.addContainer ctx name c).run host st).value = .ok u) (store : Handle) :
    Call.postingsTo store (Happening.calls ((d.addContainer ctx name c).run host st).trace) =
      ((Call.add d.handle name
        (.container k (c.handedOver ctx host st))).posting? store).toList := by
  rw [addContainer_eq] at h ⊢
  simp only [run_bind] at h ⊢
  have hnothing : Call.postingsTo store
      (Happening.calls ((c.transferable ctx).run host st).trace) = [] :=
    Call.postingsTo_eq_nil (c.transferable_addsNothing.run host st)
  cases hvalue : ((c.transferable ctx).run host st).value with
  | error e =>
    rw [hvalue] at h
    cases h
  | ok owned =>
    have hhanded := Container.transferable_run_eq_ok hvalue
    cases hctx : ctx.require (.add name.isSome k.tableName) with
    | error e =>
      simp [hvalue, hctx, run_bind] at h
    | ok _ =>
      simp [hhanded, Run.after, Call.postingsTo_append, hnothing, Call.postingsTo_cons]

/-- The name was looked at before anything else. -/
theorem checkPush_name {text : String} (h : checkPush ctx d (some text) = .ok ()) :
    checkTerminated text = .ok () := by
  unfold checkPush at h
  cases hnull : d.isNull with
  | true =>
    rw [hnull] at h
    cases h
  | false =>
    cases hname : checkTerminated text with
    | error e =>
      simp only [hnull, hname] at h
      cases h
    | ok _ => rfl

/-- **A push that succeeds makes one addition, of the whole value.** -/
theorem push_posts {value : Value} {u : Unit}
    (h : ((d.push ctx name value).run host st).value = .ok u) (store : Handle) :
    Call.postingsTo store (Happening.calls ((d.push ctx name value).run host st).trace) =
        ((Call.add d.handle name (value.item ctx host st)).posting? store).toList ∧
      Posting.Whole ⟨name, value.item ctx host st⟩ := by
  rw [push_eq] at h ⊢
  cases hcheck : checkPush ctx d name with
  | error e =>
    rw [hcheck] at h
    simp [run_bind] at h
  | ok _ =>
    rw [hcheck] at h
    simp only [run_bind] at h ⊢
    cases hadd : ((d.add ctx name value).run host st).value with
    | error e =>
      rw [hadd] at h
      cases h
    | ok _ =>
      -- What was checked is what is added, so there is no NUL in the entry.
      have hname : ∀ text, name = some text → '\x00' ∉ text.toList := by
        rintro text rfl
        exact checkTerminated_eq_ok (checkPush_name hcheck)
      have hrest : Call.postingsTo store
          (Happening.calls ((d.add ctx name value).run host st).trace) =
            ((Call.add d.handle name (value.item ctx host st)).posting? store).toList ∧
          ∀ text, value.item ctx host st = .plain (.string text) → '\x00' ∉ text.toList := by
        cases value with
        | plain value =>
          obtain ⟨hposts, htext⟩ := addPlain_posts hadd store
          exact ⟨hposts, fun text heq => htext text (Item.plain.inj heq)⟩
        | container k c => exact ⟨addContainer_posts hadd store, nofun⟩
      refine ⟨?_, hname, hrest.2⟩
      simpa [Run.after] using hrest.1

end DataStore

/-! ### Sessions -/

/-- What a push answers. -/
def Operation.pushAnswer : Except Error Unit → Except Failure Answer
  | .error e => .error (.library e)
  | .ok _ => .ok .nothing

/-- A push looks up its store and its value, and then pushes. -/
theorem Operation.perform_push (ctx : Context) (w : Workspace) (store : String)
    (name : Option String) (value : Pushed) :
    (push store name value).perform ctx w =
      match w.dataStore store, planPushed w store value with
      | .ok d, .ok (v, w') => (d.push ctx name v).bind fun r => .done (pushAnswer r, w')
      | .ok _, .error failure => .done (.error failure, w)
      | .error failure, _ => .done (.error failure, w) := by
  simp only [perform, plan]
  cases w.dataStore store with
  | error failure => rfl
  | ok d =>
    cases planPushed w store value with
    | error failure => rfl
    | ok moved =>
      refine congrArg (Dialogue.bind _) (funext fun r => ?_)
      cases r <;> rfl

namespace Session

/-- The entry that a step stands for in the store with handle `h`, if it is a push that
    succeeds: the full name, and the value or the handle that is handed over.  A push that finds
    no store or no value has failed. -/
def pushed? (s : Session) (h : Handle) : Step → Option Posting
  | .operation (.push store name value) =>
    match (s.operationStep (.push store name value)).1.answer, s.workspace.dataStore store,
      Operation.planPushed s.workspace store value with
    | .ok _, .ok d, .ok (v, _) =>
      if d.handle = h then some ⟨name, v.item s.context Depot.host.disturbed s.host⟩ else none
    | _, _, _ => none
  | _ => none

/-- The entries that the steps of a session stand for. -/
def pushes (h : Handle) : Session → List Step → List Posting
  | _, [] => []
  | s, step :: rest => (s.pushed? h step).toList ++ (s.step step).2.pushes h rest

variable {s : Session} {aside : List Handle}

/-- Additions to a store are pushes that succeed. -/
theorem postingsTo_operationStep (hw : s.workspace.Ordered) (op : Operation) (h : Handle) :
    Call.postingsTo h (Happening.calls (s.operationStep op).1.trace) =
        (s.pushed? h (.operation op)).toList ∧
      ∀ p, s.pushed? h (.operation op) = some p → p.Whole := by
  by_cases hop : op.isPush
  · obtain ⟨store, name, value, rfl⟩ := Operation.eq_push_of_isPush hop
    have hperform := Operation.perform_push s.context s.workspace store name value
    unfold pushed? operationStep
    cases hstore : s.workspace.dataStore store with
    | error failure => simp [hperform, hstore]
    | ok d =>
      cases hvalue : Operation.planPushed s.workspace store value with
      | error failure => simp [hperform, hstore, hvalue]
      | ok moved =>
        obtain ⟨v, w'⟩ := moved
        simp only [hperform, hstore, hvalue, run_bind, run_done, List.append_nil]
        cases hpush : ((d.push s.context name v).run Depot.host.disturbed s.host).value with
        | error e =>
          -- A push that fails has added nothing, whatever it called.
          have hnothing := ((d.push_addsOnSuccess name v).run Depot.host.disturbed s.host) e hpush
          simp [Call.postingsTo_eq_nil hnothing, Operation.pushAnswer]
        | ok _ =>
          obtain ⟨hposts, hwhole⟩ := DataStore.push_posts hpush h
          simp only [Operation.pushAnswer, hposts, Call.posting?, true_and]
          intro p hp
          obtain ⟨-, rfl⟩ := Option.ite_some_none_eq_some.mp hp
          exact hwhole
  · -- Any other operation has no store in hand that it could add to.
    have hpermits := ((Operation.perform_honest s.context hw op).run Depot.host.disturbed s.host).1
    have hstore : (op.hands s.workspace).store = none := by
      cases op <;> first | rfl | cases hop rfl
    have hnone : s.pushed? h (.operation op) = none := by
      cases op <;> first | rfl | cases hop rfl
    rw [hnone]
    exact ⟨postingsTo_of_permitsAll hpermits hstore h, nofun⟩

/-- **A store gains what the steps of a session push to it.** -/
theorem Firm.step_extends (hs : s.Firm aside) {step : Step} (hstep : s.Candid step)
    (havoids : ∀ h ∈ aside, s.Avoids h step) (h : Handle) :
    s.depot.Extends h (s.pushed? h step).toList (s.step step).2.depot ∧
      ∀ p, s.pushed? h step = some p → p.Whole := by
  cases step with
  | operation op =>
    obtain ⟨hposts, hwhole⟩ := postingsTo_operationStep hs.ordered op h
    refine ⟨?_, hwhole⟩
    rw [← hposts]
    exact (hs.operationStep_walks hstep havoids
      (R := fun d cs d' => d.Extends h (Call.postingsTo h cs) d') .refl (Firm.extends_cons h)).2
  | host op => exact ⟨.of_preserves (hostStep_preserves s op), nofun⟩

/-- **A store gains what a session pushes to it**, and nothing else. -/
theorem Firm.run_extends (hs : s.Firm []) {steps : List Step} (hsteps : s.Every Candid steps)
    (h : Handle) : s.depot.Extends h (s.pushes h steps) (s.run steps).2.depot ∧
      ∀ p ∈ s.pushes h steps, p.Whole := by
  induction steps generalizing s with
  | nil => exact ⟨.refl s.depot, nofun⟩
  | cons step rest ih =>
    obtain ⟨hfirst, hwhole⟩ := hs.step_extends hsteps.1 nofun h
    obtain ⟨hrest, hwholes⟩ := ih (hs.step hsteps.1 nofun) hsteps.2
    refine ⟨hfirst.trans hrest, fun p hp => ?_⟩
    rcases List.mem_append.mp hp with hp | hp
    · exact hwhole p (by simpa using hp)
    · exact hwholes p hp

/-- A store as it is made. -/
def emptyStore : Resource := { kind := .dataStore, typeCode := 0, dims := [] }

/-- A container that is kept was made, and then the variable let go of what was in it. -/
theorem keep_run_eq_ok {k : Kind} {w : Workspace} {target : String}
    {made : Attempt (Container k)} {answer : Answer}
    (h : ((w.keep ctx target made).run host st).value.1 = .ok answer) :
    ∃ c, (made.run.run host st).value = .ok c ∧ answer = .holding ⟨k, c⟩ ∧
      ((w.keep ctx target made).run host st).state =
        ((w.assign ctx target ⟨k, c⟩).run host (made.run.run host st).state).state := by
  simp only [Workspace.keep, bind_eq, run_bind] at h ⊢
  cases hmade : (made.run.run host st).value with
  | error e => simp [hmade] at h
  | ok c =>
    simp only [hmade, run_bind] at h ⊢
    exact ⟨c, rfl, (Except.ok.inj h).symm, rfl⟩

/-- A store that is made is the next resource. -/
theorem newStore_run_eq_ok {d : Depot} {c : DataStore}
    (hmade : ((DataStore.new ctx).run.run Depot.host d).value = .ok c) :
    c = .fresh d.nextHandle ∧
      d.answer .createStore = (d.nextHandle, (d.alloc emptyStore).2) ∧
      ((DataStore.new ctx).run.run Depot.host d).state = (d.alloc emptyStore).2 := by
  have hcreated : ∀ h, (d.make .createStore).1 = .ok h → h = d.nextHandle ∧
      d.answer .createStore = (d.nextHandle, (d.alloc emptyStore).2) := by
    intro h hh
    have hmake : d.make .createStore = d.create emptyStore := rfl
    rw [answer_of_yield? rfl]
    rw [hmake] at hh ⊢
    unfold create at hh ⊢
    split at hh
    · cases hh
    · exact ⟨(Except.ok.inj hh).symm, rfl⟩
  have hnull : ∀ h, (d.make .createStore).1 = .ok h → h ≠ .null := fun h hh =>
    (hcreated h hh).1 ▸ nextHandle_ne_null d
  obtain ⟨hctx, h, hh, rfl⟩ := (Container.obtain_run_eq_ok_iff _ _ rfl rfl hnull).mp hmade
  obtain ⟨rfl, hanswer⟩ := hcreated h hh
  have hstate : ((DataStore.new ctx).run.run Depot.host d).state = (d.answer .createStore).2 :=
    (Container.obtain_run_of_require _ _ hctx Depot.host d).1
  exact ⟨rfl, hanswer, by rw [hstate, hanswer]⟩

/-- **A new store is empty**, and nothing is put into it when the variable lets go of what was in
    it. -/
theorem Firm.newStore_extends (hs : s.Firm []) {target : String} {x : Holding}
    (hanswer : (s.operationStep (.new .dataStore target)).1.answer = .ok (.holding x)) :
    ∃ d : Depot, d.find? x.container.handle = some emptyStore ∧
      d.Extends x.container.handle [] (s.operationStep (.new .dataStore target)).2.depot := by
  have hkeep : ((s.workspace.keep s.context target (DataStore.new s.context)).run
    Depot.host.disturbed s.host).value.1 = .ok (.holding x) := hanswer
  obtain ⟨c, hmade, hx, hstate⟩ := keep_run_eq_ok hkeep
  obtain rfl := Answer.holding.inj hx
  rw [Dialogue.run_of_quiet Depot.host (DataStore.new s.context).run hs.quiet] at hmade hstate
  obtain ⟨rfl, hcreated, hmade⟩ := newStore_run_eq_ok hmade
  rw [hmade] at hstate
  have hdepot : (s.operationStep (.new .dataStore target)).2.depot =
      ((s.workspace.assign s.context target ⟨.dataStore, .fresh s.depot.nextHandle⟩).run
        Depot.host.disturbed ⟨[], (s.depot.alloc emptyStore).2⟩).state.state :=
    congrArg Disturbed.state hstate
  refine ⟨(s.depot.alloc emptyStore).2, find?_alloc_self _ _, ?_⟩
  -- The new store is in hand while the variable lets go of what was in it.
  have hbrings : Call.createStore.brings? s.depot.nextHandle =
      some ⟨.dataStore, .fresh s.depot.nextHandle⟩ := by
    simp [Call.brings?, Call.yield?, Call.granted, Shape.granted, Handle.granted, Call.slotBefore,
      nextHandle_ne_null]
  have hfirm := hs.hands.answer (c := .createStore) (permits_of_yield? rfl fun _ _ h => by cases h)
  have hcreated : s.depot.answer .createStore =
    (s.depot.nextHandle, (s.depot.alloc emptyStore).2) := hcreated
  rw [hcreated, after_of_yield? _ rfl, hbrings] at hfirm
  have hcovers : Covers s.context
    ⟨⟨.dataStore, .fresh s.depot.nextHandle⟩ :: s.workspace.held, none⟩
    ⟨⟨.dataStore, .fresh s.depot.nextHandle⟩ :: s.workspace.held, none⟩ := .refl _
  obtain ⟨hpermits, -⟩ := (Workspace.assign_honest hs.ordered target hcovers).run
    Depot.host.disturbed ⟨[], (s.depot.alloc emptyStore).2⟩
  obtain ⟨-, -, hextends⟩ := hfirm.walks (s := ⟨[], _⟩) rfl (Dialogue.run_walks _ _ _) hpermits
    (R := fun d cs d' => d.Extends s.depot.nextHandle (Call.postingsTo s.depot.nextHandle cs) d')
    .refl (Firm.extends_cons s.depot.nextHandle)
  rw [postingsTo_of_permitsAll hpermits rfl] at hextends
  rw [hdepot]
  exact hextends

/-- The store with handle `h` lists these entries: they are its entries in words and in fact, it
    holds what was handed over for them in the same order, none of them was cut at a NUL, and the
    library reads how many there are, if the host can tell. -/
structure Lists (s : Session) (h : Handle) (ps : List Posting) : Prop where
  postings : (s.depot.find? h).map (·.postings) = some ps
  texts : s.depot.postingsOf h = ps.map Posting.text
  children : (s.depot.find? h).map (·.children) = some (ps.flatMap (·.item.children))
  whole : ∀ p ∈ ps, p.Whole
  length : s.context.provides (.read .dataStore .length) → ∀ c : DataStore, c.handle = h →
    ((c.length s.context).run Depot.host.disturbed s.host).value = ps.length
  isEmpty : s.context.provides (.read .dataStore .length) → ∀ c : DataStore, c.handle = h →
    ((c.isEmpty s.context).run Depot.host.disturbed s.host).value = ps.isEmpty

/-- What a live store has gained since it was made is all that it lists. -/
theorem Firm.lists (hs : s.Firm aside) {d : Depot} {h : Handle} {ps : List Posting}
    (hmade : d.find? h = some emptyStore) (hextends : d.Extends h ps s.depot)
    (halive : s.depot.isAlive h) (hwhole : ∀ p ∈ ps, p.Whole) : s.Lists h ps := by
  obtain ⟨r, hr, hgained⟩ := hextends emptyStore hmade
  obtain ⟨r', hr', hralive⟩ := isAlive_iff.mp halive
  obtain rfl : r = r' := Option.some.inj (hr.symm.trans hr')
  obtain ⟨-, hpostings, hchildren⟩ := hgained hralive
  have hpostings : r.postings = ps := hpostings
  have hchildren : r.children = ps.flatMap (·.item.children) := hchildren
  have hlength : s.context.provides (.read .dataStore .length) → ∀ c : DataStore, c.handle = h →
      ((c.length s.context).run Depot.host.disturbed s.host).value = ps.length := by
    rintro hctx c rfl
    rw [Dialogue.run_of_quiet _ _ hs.quiet]
    have hread := Container.number_run (q := .length) (live?_eq_some_iff.mpr ⟨hr, hralive⟩) hctx
    exact hread.trans (by simp [fact, Query.word, Query.isNarrow, hpostings])
  refine ⟨by simp [hr, hpostings], by simp [postingsOf, hr, hpostings], by simp [hr, hchildren],
    hwhole, hlength, fun hctx c hc => ?_⟩
  have hisEmpty : ((c.isEmpty s.context).run Depot.host.disturbed s.host).value =
      (((c.length s.context).run Depot.host.disturbed s.host).value == 0) := by
    simp only [DataStore.isEmpty, bind_eq, run_bind]
    rfl
  rw [hisEmpty, hlength hctx c hc]
  cases ps with
  | nil => rfl
  | cons p ps =>
    have hpos : ((p :: ps).length : Int) ≠ 0 := by
      rw [List.length_cons]
      omega
    exact beq_eq_false_iff_ne.mpr hpos

/-- **A data store is an append-only list of its successful pushes.** Whatever the host leaves
    out, and whatever else is done in between with this store, with others, with copies of it and
    with what it holds: while the store is alive, its entries are one for each push to it that
    succeeded, in their order, and what it holds are the containers that were handed over. -/
theorem store_lists_pushes (ctx : Context) (before after : List Step) (target : String)
    (x : Holding) :
    let made := (Session.run { context := ctx } before).2.operationStep (.new .dataStore target)
    Every Candid { context := ctx } before → made.1.answer = .ok (.holding x) →
      made.2.Every Candid after → (made.2.run after).2.depot.isAlive x.container.handle →
        (made.2.run after).2.Lists x.container.handle
          (made.2.pushes x.container.handle after) := by
  intro made hbefore hanswer hafter halive
  have hstart := (firm_start ctx).run (hbefore.imp fun _ _ h => ⟨h, nofun⟩)
  have hmade : made.2.Firm [] := hstart.operationStep nofun nofun
  obtain ⟨d, hfound, hnothing⟩ := hstart.newStore_extends hanswer
  obtain ⟨hgained, hwhole⟩ := hmade.run_extends hafter x.container.handle
  have hend := hmade.run (hafter.imp fun _ _ h => ⟨h, nofun⟩)
  exact hend.lists hfound (hnothing.trans hgained) halive hwhole

/-- An entry by value, a copy of a tensor of the host under a name, and a text that is refused for
    its NUL. -/
theorem store_lists_pushes_of_refused_text :
    let before : List Step := [.host (.alloc (.tensor 2 [3]) none (some "t"))]
    let made := (Session.run { context := .full } before).2.operationStep (.new .dataStore "s")
    let after : List Step :=
      [.operation (.wrap .tensor (.named "t") (.ownership .hostManaged) "a"),
        .operation (.push "s" none (.plain (.integer 5))),
        .operation (.push "s" none (.plain (.string "a\x00b"))),
        .operation (.push "s" (some "x") (.variable "a"))]
    let h : Handle := .ofNumber 2
    Every Candid { context := .full } before ∧
      made.1.answer = .ok (.holding ⟨.dataStore, .fresh h⟩) ∧ made.2.Every Candid after ∧
      (made.2.run after).2.depot.isAlive h ∧
      made.2.pushes h after =
        [⟨none, .plain (.integer 5)⟩, ⟨some "x", .container .tensor (.ofNumber 3)⟩] ∧
      (made.2.run after).2.Lists h (made.2.pushes h after) := by
  intro before made after h
  have hbefore : Every Candid { context := .full } before := ⟨trivial, trivial⟩
  have hanswer : made.1.answer = .ok (.holding ⟨.dataStore, .fresh h⟩) := rfl
  have hafter : made.2.Every Candid after := by
    refine ⟨fun _ x hx _ => ?_, nofun, nofun, nofun, trivial⟩
    obtain rfl : (⟨.tensor, ⟨.ofNumber 1, .hostManaged⟩⟩ : Holding) = x := Option.some.inj hx
    exact ⟨⟨_, rfl, rfl⟩, nofun⟩
  have halive : (made.2.run after).2.depot.isAlive h := by decide +kernel
  have hpushes : made.2.pushes h after =
      [⟨none, .plain (.integer 5)⟩, ⟨some "x", .container .tensor (.ofNumber 3)⟩] := by
    decide +kernel
  exact ⟨hbefore, hanswer, hafter, halive, hpushes,
    store_lists_pushes .full before after "s" ⟨.dataStore, .fresh h⟩ hbefore hanswer hafter halive⟩

end Session

end Custody
