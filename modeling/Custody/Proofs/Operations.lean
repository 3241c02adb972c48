import Custody.Proofs.Honesty
import Custody.Proofs.Workspaces

namespace Custody

open Dialogue Hands

/-!
# Operations are honest

Some operations change tags without asking the host: they take a handle into hand that was not
there, or give one up.  With these changes made, what an operation does is honest: on every path
it ends with what the workspace holds then.

* `Operation.deal` -- what an operation takes into hand and gives up by itself;
* `Operation.hands` -- what is in hand when its dialogue begins;
* `Operation.perform_honest` -- **every operation ends with the containers of its workspace**;
* `Workspace.dropAll_honest` -- letting go of all variables leaves nothing in hand.
-/

/-- The tag that a tagging asks for, if it can be read. -/
def Tagging.ownership? : Tagging → Option Ownership
  | .ownership tag => some tag
  | .mode text =>
    match PassingMode.parse text with
    | .ok passing => some passing.initialOwnership
    | .error _ => none

/-- A container that comes into hand, and one that is given up, without any call. -/
structure Deal where
  taken : Option Holding := none
  given : Option Holding := none

/-- What stays in hand. -/
def Deal.rest (d : Deal) (held : List Holding) : List Holding :=
  match d.given with
  | none => held
  | some x => held.erase x

/-- What is in hand after the deal. -/
def Deal.applied (d : Deal) (held : List Holding) : List Holding := d.taken.toList ++ d.rest held

namespace Operation

/-- What an operation takes into hand and gives up by changing a tag: a wrapped handle is taken,
    and so is the handle that a container is reset to; a container that is relinquished or passed
    is given up, and so is one whose handle is kept under another tag. -/
def deal (w : Workspace) : Operation → Deal
  | wrap kind handle tagging _ =>
    match w.handle handle, tagging.ownership? with
    | .ok h, some ownership => if h.isNull then {} else { taken := some ⟨kind, ⟨h, ownership⟩⟩ }
    | _, _ => {}
  | relinquish source _ | intoRaw source _ =>
    match w.find? source with
    | some x => { taken := some x.view, given := some x }
    | none => {}
  | pass source slot hasSlot =>
    match w.find? source, w.handle slot with
    | some x, .ok _ =>
      if hasSlot && !x.container.isNull && x.container.ownership = .callerOwned then
        { taken := some x.view, given := some x }
      else {}
    | _, _ => {}
  | reset source handle ownership =>
    match w.find? source, w.handle handle with
    | some x, .ok h =>
      let new : Holding := ⟨x.kind, ⟨h, if h.isNull then .hostManaged else ownership⟩⟩
      if h = x.container.handle then { taken := some new, given := some x }
      else { taken := some new }
    | _, _ => {}
  | _ => {}

/-- What is given in a deal was in a variable. -/
theorem given_mem_held {w : Workspace} (hw : w.Ordered) {op : Operation} {x : Holding}
    (hx : (op.deal w).given = some x) : x ∈ w.held := by
  suffices h : ∃ source, w.find? source = some x from hw.mem_held h.choose_spec
  unfold deal at hx
  split at hx
  · split at hx
    · split at hx <;> cases hx
    · cases hx
  · split at hx
    · next hfound => exact ⟨_, hfound.trans hx⟩
    · cases hx
  · split at hx
    · next hfound => exact ⟨_, hfound.trans hx⟩
    · cases hx
  · split at hx
    · next hfound _ =>
      split at hx
      · exact ⟨_, hfound.trans hx⟩
      · cases hx
    · cases hx
  · split at hx
    · next hfound _ =>
      dsimp only at hx
      split at hx
      · exact ⟨_, hfound.trans hx⟩
      · cases hx
    · cases hx
  · cases hx

/-- What is in hand when the dialogue of an operation begins. -/
def hands (w : Workspace) (op : Operation) : Hands where
  held := (op.deal w).applied w.held
  store :=
    match op with
    | push store _ _ => ((w.dataStore store).toOption.map (·.handle)).filter (!·.isNull)
    | _ => none

end Operation

/-! ### Rules -/

/-- The dialogue is honest, and ends with what the workspace holds in order. -/
def Dialogue.Keeps (ctx : Context) (H : Hands) (d : Dialogue Outcome) : Prop :=
  d.Honest ctx H fun outcome H' => outcome.2.Ordered ∧ H' = ⟨outcome.2.held, none⟩

/-- What is planned keeps, and so does a failure to plan it. -/
def Operation.PlansKeeping (ctx : Context) (w : Workspace) (H : Hands)
    (planned : Except Failure (Dialogue Outcome)) : Prop :=
  match planned with
  | .error failure => (done (.error failure, w) : Dialogue Outcome).Keeps ctx H
  | .ok dialogue => dialogue.Keeps ctx H

variable {ctx : Context} {w : Workspace} {H : Hands}

/-- An outcome over the same workspace keeps what is in hand. -/
theorem Dialogue.keeps_done {result : Except Failure Answer} (hw : w.Ordered)
    (hcovers : Covers ctx H ⟨w.held, none⟩) :
    (done (result, w) : Dialogue Outcome).Keeps ctx H := honest_done hcovers ⟨hw, rfl⟩

/-- To note a handle by name moves no container. -/
theorem Dialogue.keeps_record {result : Except Failure Answer} (hw : w.Ordered)
    (hcovers : Covers ctx H ⟨w.held, none⟩) (name : Option String) (h : Handle) :
    (done (result, w.record name h) : Dialogue Outcome).Keeps ctx H :=
  keeps_done (hw.record name h) (by rwa [Workspace.held_record])

namespace Operation

/-- A plan that fails keeps the workspace. -/
theorem plansKeeping_error (hw : w.Ordered) (hcovers : Covers ctx H ⟨w.held, none⟩)
    (failure : Failure) : PlansKeeping ctx w H (.error failure) := keeps_done hw hcovers

/-- A lookup that fails keeps the workspace, and what follows it has to keep it. -/
theorem plansKeeping_bind {α : Type} {x : Except Failure α}
    {f : α → Except Failure (Dialogue Outcome)} (hw : w.Ordered)
    (hcovers : Covers ctx H ⟨w.held, none⟩)
    (h : ∀ value, x = .ok value → PlansKeeping ctx w H (f value)) :
    PlansKeeping ctx w H (x >>= f) := by
  cases x with
  | error failure => exact plansKeeping_error hw hcovers failure
  | ok value => exact h value rfl

end Operation

/-! ### Changing a variable -/

namespace Workspace

/-- Assigning lets go of what was in the variable. -/
theorem assign_honest (hw : w.Ordered) (name : String) {x : Holding}
    (hcovers : Covers ctx H ⟨x :: w.held, none⟩) :
    (w.assign ctx name x).Honest ctx H fun w' H' => w'.Ordered ∧ H' = ⟨w'.held, none⟩ := by
  unfold assign
  cases hfound : w.find? name with
  | none =>
    refine honest_done (hcovers.trans ?_) ⟨hw.put name x, rfl⟩
    refine .of_perm ((hw.held_put name x).trans ?_) (.inl rfl)
    rw [held_remove_of_find?_eq_none hfound]
  | some old =>
    -- Old and new may be the same container, and then one of the two is cleaned up after.
    have hmem : old ∈ x :: w.held := List.mem_cons_of_mem _ (hw.mem_held hfound)
    refine (honest_bind (Container.cleanup_honest hmem) ?_).covered hcovers
    rintro _ _ rfl
    refine honest_done ?_ ⟨hw.put name x, rfl⟩
    exact .of_perm (hw.held_put_perm_erase hfound x) (.inl rfl)

/-- A container that was made is kept in a variable. -/
theorem keep_keeps {k : Kind} {made : Attempt (Container k)} (hw : w.Ordered) (target : String)
    (hmade : made.run.Honest ctx H fun r H' => match r with
      | .ok c => Covers ctx H' ⟨⟨k, c⟩ :: w.held, none⟩
      | .error _ => Covers ctx H' ⟨w.held, none⟩) :
    (w.keep ctx target made).Keeps ctx H := by
  refine honest_bind hmade fun r H' hr => ?_
  cases r with
  | error e => exact keeps_done hw hr
  | ok c =>
    refine honest_bind (assign_honest hw target hr) ?_
    rintro w' _ ⟨hw', rfl⟩
    exact keeps_done hw' (.refl _)

/-- A container that the host made is kept in a variable. -/
theorem keep_keeps_fresh {k : Kind} {made : Attempt (Container k)} (hw : w.Ordered)
    (target : String) (hmade : made.run.Honest ctx ⟨w.held, none⟩ (GainsFresh ⟨w.held, none⟩)) :
    (w.keep ctx target made).Keeps ctx ⟨w.held, none⟩ := by
  refine keep_keeps hw target (hmade.weaken fun r H' hr => ?_)
  cases r with
  | error e => exact hr.1 ▸ .refl _
  | ok c => exact hr.1 ▸ .refl _

/-- A container that is at hand already is put into a variable. -/
theorem keep_keeps_pure {k : Kind} {c : Container k} (hw : w.Ordered) (target : String)
    (hcovers : Covers ctx H ⟨⟨k, c⟩ :: w.held, none⟩) :
    (w.keep ctx target (pure c)).Keeps ctx H :=
  keep_keeps hw target (honest_done (.refl H) hcovers)

/-- A container is changed where it is. -/
theorem update_keeps {a : SparseArray} {name : String} (hw : w.Ordered)
    (hfound : w.find? name = some ⟨.sparseArray, a⟩) (implicit : Option Tensor) :
    (w.update name (a.setImplicitValue ctx implicit)).Keeps ctx ⟨w.held, none⟩ := by
  refine honest_bind (SparseArray.setImplicitValue_honest implicit (hw.mem_held hfound)) ?_
  rintro ⟨r, a'⟩ H' hr
  cases r with
  | error e =>
    -- The wrapper is put back as it was.
    obtain ⟨rfl, rfl⟩ := hr
    dsimp only
    rw [Workspace.put_of_find? hfound]
    exact keeps_done hw (.refl _)
  | ok _ =>
    obtain rfl := hr
    exact keeps_done (hw.put name _) (.of_perm (hw.held_put_of_find? hfound _) (.inl rfl))

/-- A view is in hand only while it is looked at, and a copy of it is kept. -/
theorem look_keeps {k : Kind} {viewed : Attempt (Container k)} (hw : w.Ordered)
    (target : Option String)
    (hviewed : viewed.run.Honest ctx ⟨w.held, none⟩ (Sees ⟨w.held, none⟩)) :
    (w.look ctx target viewed).Keeps ctx ⟨w.held, none⟩ := by
  refine honest_bind hviewed fun r H' hr => ?_
  cases r with
  | error e => exact keeps_done hw (hr.1 ▸ .refl _)
  | ok v =>
    obtain ⟨hgains, hhost⟩ := hr
    obtain rfl : H' = ⟨⟨k, v⟩ :: w.held, none⟩ := hgains
    have hview : Holding.isOwner ⟨k, v⟩ = false := by
      simp [Holding.isOwner, Container.isOwner, hhost v rfl, Ownership.isOwner]
    -- A view has no owner, so it can be let go of without a call.
    have hforget : Covers ctx ⟨⟨k, v⟩ :: w.held, none⟩ ⟨w.held, none⟩ := .of_cons hview _ _
    refine honest_bind (honest_of_onlyReads (Container.shareCount_within ctx v)) ?_
    rintro _ _ rfl
    refine honest_bind (honest_of_onlyReads (Container.queryType_within ctx v)) ?_
    rintro _ _ rfl
    cases target with
    | none => exact keeps_done hw hforget
    | some target =>
      have hknown : Knows ⟨⟨k, v⟩ :: w.held, none⟩ k v.handle := ⟨v.ownership, List.mem_cons_self⟩
      refine honest_bind (Container.tryClone_honest (.inr hknown)) ?_
      rintro copy H' ⟨hcopy, -⟩
      cases copy with
      | error e =>
        obtain rfl : H' = _ := hcopy
        exact keeps_done hw hforget
      | ok copy =>
        obtain rfl : H' = _ := hcopy
        have hswap : Covers ctx ⟨⟨k, copy⟩ :: ⟨k, v⟩ :: w.held, none⟩
            ⟨⟨k, v⟩ :: ⟨k, copy⟩ :: w.held, none⟩ := .of_perm (.swap _ _ _) (.inl rfl)
        refine honest_bind (assign_honest hw target (hswap.trans (.of_cons hview _ _))) ?_
        rintro w' _ ⟨hw', rfl⟩
        exact keeps_done hw' (.refl _)

end Workspace

/-! ### Operations -/

namespace Operation

/-- A plan to make something ends with it in a variable, or with the workspace as it was. -/
theorem planNew_keeps (hw : w.Ordered) (recipe : Recipe) (target : String) :
    PlansKeeping ctx w ⟨w.held, none⟩ (planNew ctx w recipe target) := by
  cases recipe with
  | tensor type dims =>
    exact plansKeeping_bind hw (.refl _) fun type _ =>
      w.keep_keeps_fresh hw target (Tensor.new_honest type dims)
  | numericArray type dims =>
    exact plansKeeping_bind hw (.refl _) fun type _ =>
      w.keep_keeps_fresh hw target (NumericArray.new_honest type dims)
  | image request =>
    exact plansKeeping_bind hw (.refl _) fun options _ =>
      w.keep_keeps_fresh hw target (Image.new_honest options)
  | dataStore => exact w.keep_keeps_fresh hw target DataStore.new_honest

/-- A plan to convert ends with the result in a variable, or with the workspace as it was. -/
theorem planConvert_keeps (hw : w.Ordered) {x : Holding} (hx : x ∈ w.held)
    (r : ConversionRequest) (target : String) :
    PlansKeeping ctx w ⟨w.held, none⟩ (planConvert ctx w x r target) := by
  obtain ⟨k, c⟩ := x
  have hknown : Knows ⟨w.held, none⟩ k c.handle := ⟨c.ownership, hx⟩
  cases k with
  | numericArray =>
    exact plansKeeping_bind hw (.refl _) fun _ _ => plansKeeping_bind hw (.refl _) fun _ _ =>
      w.keep_keeps_fresh hw target (NumericArray.convert_honest _ _ hknown)
  | image =>
    exact plansKeeping_bind hw (.refl _) fun _ _ =>
      w.keep_keeps_fresh hw target (Image.convert_honest _ _ hknown)
  | tensor => exact plansKeeping_error hw (.refl _) _
  | sparseArray => exact plansKeeping_error hw (.refl _) _
  | dataStore => exact plansKeeping_error hw (.refl _) _

/-- An empty container is nobody's to clean up. -/
theorem isOwner_empty (k : Kind) : Holding.isOwner ⟨k, .empty⟩ = false := by
  simp [Holding.isOwner, Container.isOwner, Container.empty, Container.isNull]

/-! The operations that take into hand or give up something by themselves come first. -/

/-- A handle that is wrapped is in hand before, and in a variable after. -/
theorem wrap_keeps (hw : w.Ordered) (kind : Kind) (handle : Reference) (tagging : Tagging)
    (target : String) :
    PlansKeeping ctx w ((wrap kind handle tagging target).hands w)
      ((wrap kind handle tagging target).plan ctx w) := by
  -- Both ways of tagging come down to wrapping under a tag.
  have hwrap : ∀ (h : Handle) (ownership : Ownership),
      (w.keep ctx target (Container.wrap h ownership : Attempt (Container kind))).Keeps ctx
        ⟨(if h.isNull then {} else { taken := some ⟨kind, ⟨h, ownership⟩⟩ } : Deal).applied w.held,
          none⟩ := by
    intro h ownership
    refine Workspace.keep_keeps hw target ?_
    rw [Container.wrap_run]
    by_cases hnull : h.isNull
    · simp only [hnull, ↓reduceIte]
      exact honest_done (.refl _) (.refl _)
    · simp only [hnull]
      exact honest_log (honest_done (.refl _) (.refl _))
  simp only [plan, hands, deal]
  cases hhandle : w.handle handle with
  | error failure => exact plansKeeping_error hw (.refl _) failure
  | ok h =>
    cases tagging with
    | ownership ownership => exact hwrap h ownership
    | mode text =>
      simp only [Tagging.ownership?]
      cases PassingMode.parse text with
      | error e => exact plansKeeping_error hw (.refl _) _
      | ok passing => exact hwrap h passing.initialOwnership

/-- Giving up a container in a variable and keeping it for reading. -/
theorem covers_view {source : String} {x : Holding} (hw : w.Ordered)
    (hfound : w.find? source = some x) :
    Covers ctx ⟨({ taken := some x.view, given := some x } : Deal).applied w.held, none⟩
      ⟨(w.put source x.view).held, none⟩ :=
  .of_perm (hw.held_put_of_find? hfound x.view) (.inl rfl)

/-- A container that is relinquished is given up, and its variable keeps a view of it. -/
theorem relinquish_keeps (hw : w.Ordered) (source : String) (handleName : Option String) :
    PlansKeeping ctx w ((relinquish source handleName).hands w)
      ((relinquish source handleName).plan ctx w) := by
  simp only [plan, hands, deal, Workspace.holding]
  cases hfound : w.find? source with
  | none => exact plansKeeping_error hw (.refl _) _
  | some x =>
    show (log _ (done _) : Dialogue Outcome).Keeps ctx _
    exact honest_log (keeps_record (hw.put _ _) (covers_view hw hfound) _ _)

/-- A container whose handle is taken out is given up, and its variable is emptied. -/
theorem intoRaw_keeps (hw : w.Ordered) (source : String) (handleName : Option String) :
    PlansKeeping ctx w ((intoRaw source handleName).hands w)
      ((intoRaw source handleName).plan ctx w) := by
  simp only [plan, hands, deal, Workspace.holding]
  cases hfound : w.find? source with
  | none => exact plansKeeping_error hw (.refl _) _
  | some x =>
    have hcovers : Covers ctx ⟨x.view :: w.held.erase x, none⟩ ⟨(w.remove source).held, none⟩ := by
      refine (Covers.of_cons (Holding.isOwner_view x) _ _).trans (.of_perm ?_ (.inl rfl))
      simpa using ((hw.held_perm hfound).erase x).symm
    show ((x.container.intoRaw ctx).bind _).Keeps ctx ⟨x.view :: w.held.erase x, none⟩
    rw [Container.intoRaw_eq]
    exact honest_log (keeps_record (hw.remove _) hcovers _ _)

/-- A container of the caller's that is passed is given up, and its variable keeps a view of it. -/
theorem pass_keeps (hw : w.Ordered) (source : String) (slot : Reference) (hasSlot : Bool) :
    PlansKeeping ctx w ((pass source slot hasSlot).hands w)
      ((pass source slot hasSlot).plan ctx w) := by
  simp only [plan, hands, deal, Workspace.holding]
  cases hfound : w.find? source with
  | none => exact plansKeeping_error hw (.refl _) _
  | some x =>
    cases hslot : w.handle slot with
    | error failure => exact plansKeeping_error hw (.refl _) _
    | ok before =>
      obtain ⟨k, c⟩ := x
      show (Dialogue.bind (c.pass hasSlot) fun passing =>
        done (_, w.put source ⟨k, passing.container⟩) : Dialogue Outcome).Keeps ctx _
      -- A container that is not given up is put back as it was.
      have hput : Covers ctx ⟨w.held, none⟩ ⟨(w.put source ⟨k, c⟩).held, none⟩ :=
        .of_perm ((hw.held_put_of_find? hfound _).trans
          (List.perm_cons_erase (hw.mem_held hfound)).symm) (.inl rfl)
      rw [Container.pass_eq]
      cases hnull : c.isNull with
      | true =>
        simp only [hnull, ↓reduceIte, Bool.not_true, Bool.and_false, Bool.false_and]
        exact keeps_done (hw.put _ _) hput
      | false =>
        cases hasSlot with
        | false => exact honest_log (keeps_done (hw.put _ _) hput)
        | true =>
          by_cases howned : c.ownership = .callerOwned
          · simp only [hnull, howned, Bool.not_false, Bool.and_self, decide_true, ↓reduceIte]
            exact honest_log (keeps_done (hw.put _ _) (covers_view hw hfound))
          · simp only [howned, decide_false, Bool.and_false, Bool.false_eq_true, ↓reduceIte]
            exact honest_log (keeps_done (hw.put _ _) hput)

/-- A reset takes the new handle into hand and lets go of the old one, unless it is the same. -/
theorem reset_keeps (hw : w.Ordered) (source : String) (handle : Reference)
    (ownership : Ownership) :
    PlansKeeping ctx w ((reset source handle ownership).hands w)
      ((reset source handle ownership).plan ctx w) := by
  simp only [plan, hands, deal, Workspace.holding]
  cases hfound : w.find? source with
  | none => exact plansKeeping_error hw (.refl _) _
  | some x =>
    cases hhandle : w.handle handle with
    | error failure => exact plansKeeping_error hw (.refl _) _
    | ok h =>
      obtain ⟨k, c⟩ := x
      show (Dialogue.bind (c.reset ctx h ownership) fun c =>
        done (_, w.put source ⟨k, c⟩) : Dialogue Outcome).Keeps ctx _
      have hperm := fun new => hw.held_put_of_find? hfound new
      by_cases hsame : h = c.handle
      · -- The handle is kept under another tag, and nothing is cleaned up.
        simp only [hsame, ↓reduceIte, Container.reset_eq]
        exact keeps_done (hw.put _ _) (.of_perm (hperm _) (.inl rfl))
      · simp only [hsame, ↓reduceIte]
        have hmem : ⟨k, c⟩ ∈ w.held := hw.mem_held hfound
        refine honest_bind (Container.reset_honest hsame _ (List.mem_cons_of_mem _ hmem)) ?_
        rintro _ _ ⟨rfl, rfl⟩
        exact keeps_done (hw.put _ _) (.of_perm (hw.held_put_perm_erase hfound _) (.inl rfl))

/-- A push moves the container out of its variable, into the store or away. -/
theorem push_keeps (hw : w.Ordered) (store : String) (name : Option String) (value : Pushed) :
    PlansKeeping ctx w ((push store name value).hands w) ((push store name value).plan ctx w) := by
  simp only [plan, hands]
  cases hstore : w.dataStore store with
  | error failure => exact plansKeeping_error hw (.refl _) failure
  | ok d =>
    show PlansKeeping ctx w ⟨w.held, (some d.handle).filter (!·.isNull)⟩ _
    have hvalid : d.isNull = false → (some d.handle).filter (!·.isNull) = some d.handle :=
      fun h => by simpa [Option.filter, Container.isNull] using h
    rcases value with value | source
    · refine honest_bind (DataStore.push_honest name hvalid fun _ _ h => by cases h) ?_
      rintro r _ rfl
      cases r <;> exact keeps_done hw (.refl _)
    · simp only [planPushed]
      by_cases hsame : source = store
      · -- A store is not pushed into itself, and stays in its variable.
        simp only [hsame, ↓reduceIte]
        exact plansKeeping_error hw (.forget _) _
      · simp only [hsame, ↓reduceIte]
        cases hfound : w.holding source with
        | error failure => exact plansKeeping_error hw (.forget _) failure
        | ok x =>
          obtain ⟨k, c⟩ := x
          have hperm := hw.held_perm (Workspace.holding_eq_ok hfound)
          have hmem : ∀ k' c', Value.container k c = .container k' c' → ⟨k', c'⟩ ∈ w.held := by
            rintro _ _ ⟨⟩
            exact hperm.mem_iff.mpr List.mem_cons_self
          -- Whatever becomes of the push, the variable is empty and its container out of hand.
          have hrest : Covers ctx ⟨w.held.erase ⟨k, c⟩, none⟩ ⟨(w.remove source).held, none⟩ :=
            .of_perm (by simpa using (hperm.erase ⟨k, c⟩).symm) (.inl rfl)
          refine honest_bind (DataStore.push_honest name hvalid hmem) ?_
          rintro r _ rfl
          cases r <;> exact keeps_done (hw.remove source) hrest

/-! The others begin with what is in the variables. -/

/-- A lookup finds a container that is in the workspace. -/
theorem holding_bind_keeps {name : String} {f : Holding → Except Failure (Dialogue Outcome)}
    (hw : w.Ordered)
    (h : ∀ x, w.find? name = some x → PlansKeeping ctx w ⟨w.held, none⟩ (f x)) :
    PlansKeeping ctx w ⟨w.held, none⟩ (w.holding name >>= f) :=
  plansKeeping_bind hw (.refl _) fun x hx => h x (Workspace.holding_eq_ok hx)

/-- A container that is taken moves from one variable to the other. -/
theorem take_keeps (hw : w.Ordered) (source target : String) :
    PlansKeeping ctx w ⟨w.held, none⟩ ((take source target).plan ctx w) := by
  refine holding_bind_keeps hw fun x hx => ?_
  -- An empty container comes into hand from nowhere and takes the place of the other.
  have hempty : Covers ctx ⟨w.held, none⟩ ⟨⟨x.kind, .empty⟩ :: w.held, none⟩ :=
    .cons (isOwner_empty x.kind) (.inl rfl)
  have hperm : List.Perm (x :: (w.put source ⟨x.kind, .empty⟩).held)
      (⟨x.kind, .empty⟩ :: w.held) := by
    refine (((hw.held_put source _).cons x).trans (.swap _ _ _)).trans ?_
    exact (hw.held_perm hx).symm.cons _
  refine Workspace.keep_keeps_pure (hw.put source _) target ?_
  exact hempty.trans (.of_perm hperm (.inl rfl))

/-- A container that is dropped is let go of with its variable. -/
theorem drop_keeps (hw : w.Ordered) (source : String) :
    PlansKeeping ctx w ⟨w.held, none⟩ ((drop source).plan ctx w) := by
  refine holding_bind_keeps hw fun x hx => ?_
  have hrest : List.Perm (w.remove source).held (w.held.erase x) := by
    simpa using ((hw.held_perm hx).erase x).symm
  refine honest_bind (Container.cleanup_honest (hw.mem_held hx)) ?_
  rintro _ _ rfl
  exact keeps_done (hw.remove source) (.of_perm hrest (.inl rfl))

/-- A copy ends in a variable, and its source stays where it is. -/
theorem clone_keeps (hw : w.Ordered) (source target : String) :
    PlansKeeping ctx w ⟨w.held, none⟩ ((clone source target).plan ctx w) := by
  refine holding_bind_keeps hw fun x hx => ?_
  have hknown : Knows ⟨w.held, none⟩ x.kind x.container.handle :=
    ⟨x.container.ownership, hw.mem_held hx⟩
  refine Workspace.keep_keeps hw target ((Container.tryClone_honest (.inr hknown)).weaken ?_)
  rintro r H' ⟨hgains, -⟩
  cases r with
  | error e => exact hgains ▸ .refl _
  | ok c => exact hgains ▸ .refl _

/-- Reading moves nothing. -/
theorem get_keeps (hw : w.Ordered) (source accessor : String) :
    PlansKeeping ctx w ⟨w.held, none⟩ ((get source accessor).plan ctx w) := by
  refine holding_bind_keeps hw fun x hx => ?_
  obtain ⟨k, c⟩ := x
  dsimp only
  cases Accessor.ofName? k accessor with
  | none => exact plansKeeping_error hw (.refl _) _
  | some a =>
    refine honest_bind (honest_of_onlyReads (Container.get_within ctx a c)) ?_
    rintro _ _ rfl
    exact keeps_done hw (.refl _)

/-- A view is put into a variable as the host's, and its source stays where it is. -/
theorem view_keeps (hw : w.Ordered) (source : String) (member target : Option String) :
    PlansKeeping ctx w ⟨w.held, none⟩ ((view source member target).plan ctx w) := by
  cases member with
  | none =>
    refine holding_bind_keeps hw fun x hx => ?_
    exact Workspace.look_keeps hw target
      (Container.view_honest (.inr ⟨x.container.ownership, hw.mem_held hx⟩))
  | some name =>
    refine plansKeeping_bind hw (.refl _) fun a ha => ?_
    cases Member.ofName? name with
    | none => exact plansKeeping_error hw (.refl _) _
    | some m => exact Workspace.look_keeps hw target (SparseArray.member_honest m a)

/-- Whatever is planned for an operation, it keeps the books. -/
theorem plan_keeps (hw : w.Ordered) (op : Operation) :
    PlansKeeping ctx w (op.hands w) (op.plan ctx w) := by
  have hbind : ∀ {α : Type} {x : Except Failure α} {f : α → Except Failure (Dialogue Outcome)},
      (∀ value, x = .ok value → PlansKeeping ctx w ⟨w.held, none⟩ (f value)) →
        PlansKeeping ctx w ⟨w.held, none⟩ (x >>= f) := plansKeeping_bind hw (.refl _)
  cases op with
  | wrap kind handle tagging target => exact wrap_keeps hw kind handle tagging target
  | relinquish source handleName => exact relinquish_keeps hw source handleName
  | intoRaw source handleName => exact intoRaw_keeps hw source handleName
  | pass source slot hasSlot => exact pass_keeps hw source slot hasSlot
  | reset source handle ownership => exact reset_keeps hw source handle ownership
  | push store name value => exact push_keeps hw store name value
  | new recipe target => exact planNew_keeps hw recipe target
  | empty kind target =>
    exact Workspace.keep_keeps_pure hw target (.cons (isOwner_empty kind) (.inl rfl))
  | move source target =>
    refine holding_bind_keeps hw fun x hx => ?_
    have hperm := hw.held_perm hx
    exact Workspace.keep_keeps_pure (hw.remove source) target (.of_perm hperm.symm (.inl rfl))
  | take source target => exact take_keeps hw source target
  | drop source => exact drop_keeps hw source
  | clone source target => exact clone_keeps hw source target
  | state source => exact hbind fun _ _ => keeps_done hw (.refl _)
  | get source accessor => exact get_keeps hw source accessor
  | describe source =>
    refine hbind fun x _ => ?_
    refine honest_bind (honest_of_onlyReads (Container.describe_within ctx x.container)) ?_
    rintro _ _ rfl
    exact keeps_done hw (.refl _)
  | view source member target => exact view_keeps hw source member target
  | convert source request target =>
    exact holding_bind_keeps hw fun x hx => planConvert_keeps hw (hw.mem_held hx) request target
  | fromTensor data implicit target =>
    exact hbind fun _ _ => hbind fun _ _ =>
      Workspace.keep_keeps_fresh hw target (SparseArray.ofTensor_honest _ _)
  | fromPositions positions values size implicit target =>
    exact hbind fun _ _ => hbind fun _ _ => hbind fun _ _ => hbind fun _ _ =>
      Workspace.keep_keeps_fresh hw target (SparseArray.ofPositions_honest _ _ _ _)
  | explicitPositions source target | toTensor source target =>
    exact hbind fun a _ =>
      Workspace.keep_keeps_fresh hw target (SparseArray.computed_honest _ a rfl rfl rfl)
  | setImplicit source implicit =>
    exact hbind fun a ha => hbind fun _ _ =>
      Workspace.update_keeps hw (Workspace.sparseArray_eq_ok ha) _
  | resparsify source =>
    exact hbind fun a ha => Workspace.update_keeps hw (Workspace.sparseArray_eq_ok ha) none

/-- **Every operation is honest, and ends with the containers of its workspace.** -/
theorem perform_honest (ctx : Context) (hw : w.Ordered) (op : Operation) :
    (op.perform ctx w).Honest ctx (op.hands w) fun outcome H' =>
      outcome.2.Ordered ∧ H' = ⟨outcome.2.held, none⟩ := by
  have hplan : PlansKeeping ctx w (op.hands w) (op.plan ctx w) := plan_keeps hw op
  unfold perform
  cases h : op.plan ctx w with
  | error failure => rwa [h] at hplan
  | ok dialogue => rwa [h] at hplan

end Operation

/-! ### Letting go of everything -/

/-- Letting go of all containers leaves nothing in hand. -/
theorem Holding.dropEach_honest (held : List Holding) (store : Option Handle) :
    (dropEach ctx held).Honest ctx ⟨held, store⟩ fun _ H' => H' = ⟨[], none⟩ := by
  induction held generalizing store with
  | nil => exact honest_done (.forget _) rfl
  | cons x rest ih =>
    refine honest_bind (Container.cleanup_honest List.mem_cons_self) ?_
    rintro _ _ rfl
    simp only [List.erase_cons_head]
    exact ih _

/-- **Nothing is left in hand once all variables are let go of.** -/
theorem Workspace.dropAll_honest (ctx : Context) (w : Workspace) :
    (w.dropAll ctx).Honest ctx ⟨w.held, none⟩ fun w' H' => w'.held = [] ∧ H' = ⟨[], none⟩ := by
  refine honest_bind (Holding.dropEach_honest w.held none) ?_
  rintro _ _ rfl
  exact honest_done (.refl _) ⟨rfl, rfl⟩

end Custody
