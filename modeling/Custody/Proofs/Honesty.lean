import Custody.Proofs.Hands
import Custody.Proofs.NormalForms

namespace Custody

open Dialogue Hands

/-!
# Honest dialogues

A dialogue is honest if on every path, whatever the host answers, its calls are made with what
is in hand, and what is in hand afterwards is accounted for.  Each operation has one statement
here, about the containers that it gains and loses.

* `Dialogue.Honest` -- with one rule for each way to build a dialogue; `honest_bind`;
* `Container.cleanup_honest` -- letting go of a container takes it out of the hands;
* `Container.adopt_honest`, `Container.obtain_honest` -- a granted container comes into hand;
* `SparseArray.setImplicitValue_honest` -- an array is replaced, or stays as it is;
* `DataStore.push_honest` -- a pushed container is out of hand, whatever becomes of it.
-/

variable {α β : Type} {ctx : Context} {H H' : Hands}

/-- On every path the calls are permitted, and the hands afterwards account for hands that the
    value is related to. -/
def Dialogue.Honest (ctx : Context) (H : Hands) (d : Dialogue α) (Q : α → Hands → Prop) : Prop :=
  d.Always fun trace value =>
    H.PermitsAll trace ∧ ∃ H', Covers ctx (H.afterAll trace) H' ∧ Q value H'

namespace Dialogue

variable {Q : α → Hands → Prop} {R : β → Hands → Prop}

/-! ### Rules -/

/-- A dialogue that is over is honest if its hands account for those of its value. -/
theorem honest_done {value : α} (hcovers : Covers ctx H H') (hQ : Q value H') :
    (done value).Honest ctx H Q := ⟨trivial, H', hcovers, hQ⟩

/-- An event changes nothing in hand. -/
theorem honest_log {event : Event} {next : Dialogue α} (h : next.Honest ctx H Q) :
    (log event next).Honest ctx H Q := h

/-- A call is honest if it is permitted and every answer is followed honestly. -/
theorem honest_call {c : Call} {next : c.Answer → Dialogue α} (hc : H.Permits c)
    (h : ∀ a, (next a).Honest ctx (H.after c a) Q) : (call c next).Honest ctx H Q :=
  fun a => (h a).imp fun _ _ ⟨htrace, hhands⟩ => ⟨⟨hc, htrace⟩, hhands⟩

/-- A check in front is honest if both of its outcomes are. -/
theorem honest_checked {γ : Type} {check : Except Error γ} {next : γ → Dialogue (Except Error α)}
    {Q : Except Error α → Hands → Prop} (herror : ∀ e, (done (.error e)).Honest ctx H Q)
    (h : ∀ value, (next value).Honest ctx H Q) : (checked check next).Honest ctx H Q := by
  cases check with
  | error e => exact herror e
  | ok value => exact h value

/-- More in hand does no harm. -/
theorem Honest.covered {d : Dialogue α} (h : d.Honest ctx H' Q) (hcovers : Covers ctx H H') :
    d.Honest ctx H Q := by
  refine h.imp fun trace value hpath => ?_
  obtain ⟨htrace, H'', hcovers', hQ⟩ := hpath
  obtain ⟨hpermits, hafter⟩ := hcovers.permitsAll htrace
  exact ⟨hpermits, H'', hafter.trans hcovers', hQ⟩

/-- An honest dialogue is honest for less that is said of its value. -/
theorem Honest.weaken {d : Dialogue α} {Q' : α → Hands → Prop} (h : d.Honest ctx H Q)
    (hQ : ∀ value H', Q value H' → Q' value H') : d.Honest ctx H Q' :=
  h.imp fun _ value ⟨htrace, H', hcovers, hH'⟩ => ⟨htrace, H', hcovers, hQ value H' hH'⟩

/-- What is in hand after the first dialogue is in hand before the second. -/
theorem honest_bind {d : Dialogue α} {f : α → Dialogue β} (hd : d.Honest ctx H Q)
    (hf : ∀ value H', Q value H' → (f value).Honest ctx H' R) : (d.bind f).Honest ctx H R := by
  refine (always_bind d f _).mpr (hd.imp fun trace value hpath => ?_)
  obtain ⟨htrace, H', hcovers, hQ⟩ := hpath
  -- The second dialogue is honest from `H'`, which the hands after the first one account for.
  refine ((hf value H' hQ).covered hcovers).imp fun trace' value' hpath' => ?_
  rw [permitsAll_append, afterAll_append]
  exact ⟨⟨htrace, hpath'.1⟩, hpath'.2⟩

/-- Reading leaves in hand what is in hand. -/
theorem honest_of_onlyReads {d : Dialogue α} (hd : Container.OnlyReads d) :
    d.Honest ctx H fun _ H' => H' = H := by
  refine Always.imp hd fun trace value hcalls => ?_
  suffices h : H.PermitsAll trace ∧ Covers ctx (H.afterAll trace) H from ⟨h.1, H, h.2, rfl⟩
  induction trace with
  | nil => exact ⟨trivial, .refl H⟩
  | cons step trace ih =>
    cases step with
    | called c a =>
      obtain ⟨hc, hrest⟩ := List.forall_mem_cons.mp hcalls
      -- What the first call lets see stays in hand during the rest, where it does no harm.
      obtain ⟨htrace, hcovers⟩ := ih hrest
      obtain ⟨htrace, hafter⟩ := (Covers.after_of_isReading H hc a).permitsAll htrace
      exact ⟨⟨permits_of_isReading H hc, htrace⟩, hafter.trans hcovers⟩
    | logged e => exact ih hcalls

end Dialogue

/-! ### Containers -/

/-- What an attempt to make a container brings into hand. -/
def Gains {k : Kind} (H : Hands) (r : Except Error (Container k)) (H' : Hands) : Prop :=
  match r with
  | .ok c => H' = ⟨⟨k, c⟩ :: H.held, H.store⟩
  | .error _ => H' = H

/-- The same for a container that belongs to the caller. -/
def GainsFresh {k : Kind} (H : Hands) (r : Except Error (Container k)) (H' : Hands) : Prop :=
  Gains H r H' ∧ ∀ c, r = .ok c → c.ownership = .callerOwned ∧ c.handle ≠ .null

/-- The same for a container that is only looked at. -/
def Sees {k : Kind} (H : Hands) (r : Except Error (Container k)) (H' : Hands) : Prop :=
  Gains H r H' ∧ ∀ c, r = .ok c → c.ownership = .hostManaged

namespace Container

variable {k : Kind} {call : Call} {failure : Refusal → Error} {event : Handle → Event}

/-- An attempt that fails has gained nothing. -/
theorem honest_error (e : Error) :
    (done (.error e) : Dialogue (Except Error (Container k))).Honest ctx H (GainsFresh H) :=
  honest_done (.refl H) ⟨rfl, fun _ h => by cases h⟩

/-- **A granted container comes into hand**, and belongs to the caller. -/
theorem adopt_honest (hcall : call.yield? = some k) (hslot : call.slotBefore = .null)
    (hsource : ∀ k h, call.source? = some (k, h) → H.Knows k h ∧ h ≠ .null) :
    (adopt call failure event : Attempt (Container k)).run.Honest ctx H (GainsFresh H) := by
  have hyield : call.yield?.isSome := by simp [hcall]
  rw [adopt_run]
  refine honest_call (permits_of_yield? hyield hsource) fun a => ?_
  have hgranted : call.granted a = call.shape.granted .null a := by rw [Call.granted, hslot]
  rw [after_of_yield? H hyield]
  cases h : call.shape.granted .null a with
  | error refusal =>
    rw [h] at hgranted
    simpa [Call.brings?, hcall, hgranted] using honest_error (failure refusal)
  | ok handle =>
    have hnull : handle ≠ .null := Shape.ne_null_of_granted h
    rw [h] at hgranted
    -- What is granted was not in the slot before, so it comes into hand.
    have hbrings : call.brings? a = some ⟨k, fresh handle⟩ := by
      simp [Call.brings?, hcall, hgranted, hslot, hnull]
    rw [hbrings]
    refine honest_log (honest_done (.refl _) ⟨rfl, ?_⟩)
    rintro c ⟨⟩
    exact ⟨rfl, hnull⟩

/-- An attempt at an entry gains a container of the caller's, or nothing where the entry is missing.
    -/
theorem obtain_honest (hcall : call.yield? = some k) (hslot : call.slotBefore = .null)
    (hsource : ∀ k h, call.source? = some (k, h) → H.Knows k h ∧ h ≠ .null) :
    (obtain ctx call failure event : Attempt (Container k)).run.Honest ctx H (GainsFresh H) := by
  rw [obtain_run]
  exact honest_checked honest_error fun _ => adopt_honest hcall hslot hsource

/-- A copy comes into hand, and the source stays. -/
theorem tryClone_honest {c : Container k} (hknown : c.isNull ∨ H.Knows k c.handle) :
    (c.tryClone ctx).run.Honest ctx H fun r H' =>
      Gains H r H' ∧ (c.isNull = false → GainsFresh H r H') := by
  rw [tryClone_run]
  split
  · next hnull =>
    have hcovers : Covers ctx H ⟨⟨k, empty⟩ :: H.held, H.store⟩ :=
      .cons (by simp [Holding.isOwner, Container.isOwner, empty, isNull]) (.inl rfl)
    exact honest_done hcovers ⟨rfl, by simp [hnull]⟩
  · next hnull =>
    refine (obtain_honest rfl rfl fun k' h hsource => ?_).weaken fun r H' h => ⟨h.1, fun _ => h⟩
    obtain ⟨rfl, rfl⟩ : k = k' ∧ c.handle = h := by simpa [Call.source?] using hsource
    exact ⟨hknown.resolve_left hnull, by simpa [isNull] using hnull⟩

/-- **Letting go of a container takes it out of the hands.** Where the host has no entry for it,
    the resource is kept, but nobody answers for it. -/
theorem cleanup_honest {c : Container k} (hmem : ⟨k, c⟩ ∈ H.held) :
    (c.cleanup ctx).Honest ctx H fun _ H' =>
      H' = ⟨H.held.erase ⟨k, c⟩, if c.ownership = .callerOwned then none else H.store⟩ := by
  obtain ⟨handle, ownership⟩ := c
  rw [cleanup_eq]
  split
  · next hnull =>
    refine honest_done (.erase (fun c hc => ?_) ?_) rfl
    · simp_all [Holding.release?]
    · split <;> simp
  · next hnull =>
    have hne : handle ≠ .null := by simpa [isNull] using hnull
    cases ownership with
    | hostManaged => exact honest_done (.erase (by simp [Holding.release?]) (by simp)) rfl
    | callerOwned =>
      refine honest_log ?_
      unfold cleanupWith
      -- Without the entry nothing is called, and what cannot be released need not be counted.
      split
      · exact honest_call (permits_free hmem hne) fun _ =>
          honest_done (.of_cons (Holding.isOwner_view _) _ _) rfl
      · next habsent =>
        refine honest_log (honest_done (.erase (fun c hc => ?_) (by simp)) rfl)
        obtain rfl : Call.free k handle = c := by simpa [Holding.release?, isNull, hne] using hc
        simpa using habsent
    | sharedWithHost =>
      refine honest_log ?_
      split
      · next hsharing =>
        unfold cleanupWith
        split
        · exact honest_call (permits_disown hmem hne hsharing) fun _ =>
            honest_done (.of_cons (Holding.isOwner_view _) _ _) rfl
        · next habsent =>
          refine honest_log (honest_done (.erase (fun c hc => ?_) (by simp)) rfl)
          obtain rfl : Call.disown k handle = c := by
            simpa [Holding.release?, isNull, hne, hsharing] using hc
          simpa using habsent
      · next hsharing =>
        refine honest_log (honest_done (.erase (fun c hc => ?_) (by simp)) rfl)
        simp [Holding.release?, hsharing] at hc

/-- A container that is reset to another handle lets go of its own. -/
theorem reset_honest {c : Container k} {h : Handle} (hne : h ≠ c.handle) (ownership : Ownership)
    (hmem : ⟨k, c⟩ ∈ H.held) :
    (c.reset ctx h ownership).Honest ctx H fun c' H' =>
      c' = ⟨h, if h.isNull then .hostManaged else ownership⟩ ∧
        H' = ⟨H.held.erase ⟨k, c⟩, none⟩ := by
  rw [reset_eq, if_neg hne]
  refine honest_bind (cleanup_honest hmem) ?_
  rintro _ H' rfl
  exact honest_done (.forget _) ⟨rfl, rfl⟩

/-- A view of a container in hand. -/
theorem view_honest {c : Container k} (hknown : c.isNull ∨ H.Knows k c.handle) :
    (pure c.view : Attempt (Container k)).run.Honest ctx H (Sees H) := by
  refine honest_done (.cons (Holding.isOwner_view ⟨k, c⟩) hknown) ⟨rfl, ?_⟩
  rintro _ ⟨⟩
  rfl

end Container

/-! ### Dense kinds -/

/-- Making a tensor is honest. -/
theorem Tensor.new_honest (type : TensorType) (dims : List Int) :
    (Tensor.new ctx type dims).run.Honest ctx H (GainsFresh H) := by
  rw [Tensor.new_run]
  exact honest_checked Container.honest_error fun _ =>
    Container.obtain_honest rfl rfl fun _ _ h => by cases h

/-- Making a numeric array is honest. -/
theorem NumericArray.new_honest (type : NumericArrayType) (dims : List Int) :
    (NumericArray.new ctx type dims).run.Honest ctx H (GainsFresh H) := by
  rw [NumericArray.new_run]
  exact honest_checked Container.honest_error fun _ =>
    Container.obtain_honest rfl rfl fun _ _ h => by cases h

/-- Converting a numeric array in hand is honest. -/
theorem NumericArray.convert_honest {a : NumericArray} (type : NumericArrayType)
    (options : ConversionOptions) (hknown : H.Knows .numericArray a.handle) :
    (a.convert ctx type options).run.Honest ctx H (GainsFresh H) := by
  rw [NumericArray.convert_run]
  split
  · exact Container.honest_error _
  · next hnull =>
    refine Container.obtain_honest rfl rfl fun k h hsource => ?_
    obtain ⟨rfl, rfl⟩ : .numericArray = k ∧ a.handle = h := by simpa [Call.source?] using hsource
    exact ⟨hknown, by simpa [Container.isNull] using hnull⟩

/-- Making an image is honest. -/
theorem Image.new_honest (o : ImageOptions) :
    (Image.new ctx o).run.Honest ctx H (GainsFresh H) := by
  rw [Image.new_run]
  cases o.fault? with
  | some fault => exact Container.honest_error _
  | none =>
    have hnew : (newCall o).yield? = some .image ∧ (newCall o).slotBefore = .null ∧
        (newCall o).source? = none := by
      unfold newCall
      split <;> exact ⟨rfl, rfl, rfl⟩
    exact Container.obtain_honest hnew.1 hnew.2.1 fun _ _ h => by simp [hnew.2.2] at h

/-- Converting an image in hand is honest. -/
theorem Image.convert_honest {i : Image} (type : ImageDataType) (interleaved : Bool)
    (hknown : H.Knows .image i.handle) :
    (i.convert ctx type interleaved).run.Honest ctx H (GainsFresh H) := by
  rw [Image.convert_run]
  split
  · exact Container.honest_error _
  · next hnull =>
    refine Container.obtain_honest rfl rfl fun k h hsource => ?_
    obtain ⟨rfl, rfl⟩ : .image = k ∧ i.handle = h := by simpa [Call.source?] using hsource
    exact ⟨hknown, by simpa [Container.isNull] using hnull⟩

/-! ### Sparse arrays -/

namespace SparseArray

/-- Making a sparse array from a tensor is honest. -/
theorem ofTensor_honest (data : Tensor) (implicit : Option Tensor) :
    (ofTensor ctx data implicit).run.Honest ctx H (GainsFresh H) :=
  Container.obtain_honest rfl rfl fun _ _ h => by cases h

/-- Making a sparse array from positions is honest. -/
theorem ofPositions_honest (positions values size : Tensor) (implicit : Option Tensor) :
    (ofPositions ctx positions values size implicit).run.Honest ctx H (GainsFresh H) :=
  Container.obtain_honest rfl rfl fun _ _ h => by cases h

/-- Computing something from a sparse array is honest. -/
theorem computed_honest (operation : String) {call : Call} (a : SparseArray)
    (hcall : call.yield? = some .tensor) (hslot : call.slotBefore = .null)
    (hsource : call.source? = none) :
    (a.computed ctx operation call).run.Honest ctx H (GainsFresh H) := by
  rw [computed_run]
  refine honest_checked Container.honest_error fun _ => ?_
  split
  · exact Container.honest_error _
  · exact Container.adopt_honest hcall hslot fun _ _ h => by simp [hsource] at h

/-- A tensor inside an array is seen, and stays with the host. -/
theorem member_honest (m : Member) (a : SparseArray) :
    (a.member ctx m).run.Honest ctx H (Sees H) := by
  have herror : ∀ e, (done (.error e) : Dialogue (Except Error Tensor)).Honest ctx H (Sees H) :=
    fun e => honest_done (.refl H) ⟨rfl, fun _ h => by cases h⟩
  rw [member_run]
  refine honest_checked herror fun _ => ?_
  split
  · exact herror _
  · rw [Container.memberSlot_eq, call_bind]
    refine honest_call (permits_of_isReading H rfl) fun slot => ?_
    cases hslot : Option.filter (fun h : Handle => !h.isNull) slot with
    | none =>
      -- What was seen of the answer is no handle, and nothing has changed in hand.
      have hcovers : Covers ctx (H.after (.member m a.handle) slot) H :=
        .after_of_isReading H rfl slot
      exact honest_done hcovers ⟨rfl, fun _ h => by cases h⟩
    | some h =>
      obtain ⟨rfl, hnull⟩ := Option.filter_eq_some_iff.mp hslot
      simp only [done_bind, Container.wrap_run, show h.isNull = false by simpa using hnull]
      refine honest_log (honest_done (.refl _) ⟨rfl, ?_⟩)
      rintro _ ⟨⟩
      rfl

/-- An array comes into hand only if it is another one than before. -/
theorem brings?_resetImplicit {array implicit h : Handle}
    {answer : (Call.resetImplicit array implicit).Answer}
    (hgranted : Shape.granted array .outcome answer = .ok h) :
    (Call.resetImplicit array implicit).brings? answer =
      if h = array then none else some ⟨.sparseArray, .fresh h⟩ := by
  have hgranted : (Call.resetImplicit array implicit).granted answer = .ok h := hgranted
  rw [Call.brings?, hgranted]
  rfl

/-- An array that was granted a handle is reset to it.  The same handle stays under its tag, and a
    new one has just come into hand, next to the old one that the reset lets go of. -/
theorem reset_granted_honest {a : SparseArray} {h : Handle} (hmem : ⟨.sparseArray, a⟩ ∈ H.held)
    (hvalid : h ≠ .null) :
    let granted : Option Holding :=
      if h = a.handle then none else some ⟨.sparseArray, .fresh h⟩
    (a.reset ctx h (if h = a.handle then a.ownership else .callerOwned)).Honest ctx
      ⟨granted.toList ++ H.held, H.store⟩ fun c H' =>
        H' = ⟨⟨.sparseArray, c⟩ :: H.held.erase ⟨.sparseArray, a⟩, none⟩ := by
  intro granted
  have hnull : h.isNull = false := Handle.isNull_eq_false_iff.mpr hvalid
  by_cases hsame : h = a.handle
  · subst hsame
    have hkept : a.reset ctx a.handle a.ownership = done a := by
      simp [Container.reset_eq, hnull]
    simp only [granted, ↓reduceIte, hkept]
    exact honest_done (.of_perm (List.perm_cons_erase hmem).symm (.inl rfl)) rfl
  · have hother : (⟨.sparseArray, .fresh h⟩ : Holding) ≠ ⟨.sparseArray, a⟩ := by
      rintro heq
      obtain ⟨-, rfl⟩ := Holding.mk.inj heq
      exact hsame rfl
    simp only [granted, if_neg hsame]
    refine (Container.reset_honest hsame _ (List.mem_append_right _ hmem)).weaken ?_
    rintro _ _ ⟨rfl, rfl⟩
    simp only [hnull, Option.toList, List.cons_append, List.nil_append]
    -- The new array stands in front, and the old one is taken out from behind it.
    rw [List.erase_cons_tail (by simpa using hother)]
    rfl

/-- **An array is replaced by a new one, or stays as it is**, under its tag. -/
theorem setImplicitValue_honest {a : SparseArray} (implicit : Option Tensor)
    (hmem : ⟨.sparseArray, a⟩ ∈ H.held) :
    (a.setImplicitValue ctx implicit).Honest ctx H fun r H' =>
      match r.1 with
      | .ok _ => H' = ⟨⟨.sparseArray, r.2⟩ :: H.held.erase ⟨.sparseArray, a⟩, none⟩
      | .error _ => H' = H ∧ r.2 = a := by
  rw [setImplicitValue_eq]
  split
  · exact honest_done (.refl H) ⟨rfl, rfl⟩
  next hnull =>
  dsimp only
  split
  · exact honest_done (.refl H) ⟨rfl, rfl⟩
  refine honest_call ?_ fun answer => ?_
  · -- The one source of the request is the array itself, which is in hand.
    refine permits_of_yield? rfl fun k h hsource => ?_
    obtain ⟨rfl, rfl⟩ : .sparseArray = k ∧ a.handle = h := by simpa [Call.source?] using hsource
    exact ⟨⟨a.ownership, hmem⟩, by simpa [Container.isNull] using hnull⟩
  · rw [after_of_yield? H rfl]
    cases hgranted : Shape.granted a.handle (Call.shape (.resetImplicit a.handle _)) answer with
    | error refusal =>
      have hbrings : (Call.resetImplicit a.handle (handleOrNull implicit)).brings? answer =
          none := by
        simp [Call.brings?, Call.yield?, Call.granted, Call.slotBefore, hgranted]
      rw [hbrings]
      exact honest_done (.refl H) ⟨rfl, rfl⟩
    | ok h =>
      rw [brings?_resetImplicit hgranted]
      refine honest_log (honest_bind (reset_granted_honest hmem ?_) ?_)
      · exact Shape.ne_null_of_granted hgranted
      · rintro _ _ rfl
        exact honest_done (.refl _) rfl

end SparseArray

/-! ### Data stores -/

/-- Making a store is honest. -/
theorem DataStore.new_honest : (DataStore.new ctx).run.Honest ctx H (GainsFresh H) :=
  Container.obtain_honest rfl rfl fun _ _ h => by cases h

/-- A container that a store can take over replaces the one that was to be pushed; where there
    is none, the one that was to be pushed is gone all the same. -/
theorem Container.transferable_honest {k : Kind} {c : Container k} (hmem : ⟨k, c⟩ ∈ H.held) :
    (c.transferable ctx).Honest ctx H fun r H' =>
      match r with
      | .ok owned => H' = ⟨⟨k, owned⟩ :: H.held.erase ⟨k, c⟩, H.store⟩ ∧
          owned.ownership = .callerOwned ∧ owned.handle ≠ .null
      | .error _ => H' = ⟨H.held.erase ⟨k, c⟩, none⟩ := by
  rw [transferable_eq]
  split
  · next hnull => exact honest_done (.erase (by simp [Holding.release?, hnull]) (.inl rfl)) rfl
  · next hnull =>
    have hne : c.handle ≠ .null := by simpa [isNull] using hnull
    split
    · next howned =>
      refine honest_done ?_ ⟨rfl, howned, hne⟩
      exact .of_perm (List.perm_cons_erase hmem).symm (.inr rfl)
    · next howned =>
      refine honest_log (honest_bind (tryClone_honest (.inr ⟨c.ownership, hmem⟩)) ?_)
      rintro copy H' ⟨-, hcopy⟩
      obtain ⟨hgains, hfresh⟩ := hcopy (by simpa using hnull)
      cases copy with
      | error e =>
        obtain rfl : H' = H := hgains
        refine honest_bind (cleanup_honest hmem) ?_
        rintro _ _ rfl
        exact honest_done (.forget _) rfl
      | ok copy =>
        obtain rfl : H' = ⟨⟨k, copy⟩ :: H.held, H.store⟩ := hgains
        obtain ⟨hcaller, hvalid⟩ := hfresh copy rfl
        -- The copy belongs to the caller and the source does not, so the source is let go of.
        have hother : (⟨k, copy⟩ : Holding) ≠ ⟨k, c⟩ := fun h => by
          obtain rfl : copy = c := by simpa using h
          exact howned hcaller
        refine honest_bind (cleanup_honest (List.mem_cons_of_mem _ hmem)) ?_
        rintro _ _ rfl
        refine honest_done ?_ ⟨rfl, hcaller, hvalid⟩
        rw [List.erase_cons_tail (by simpa using hother), if_neg howned]
        exact .refl _

/-- What is left of some containers once the value is taken from among them. -/
def Value.removedFrom (held : List Holding) : Value → List Holding
  | .plain _ => held
  | .container k c => held.erase ⟨k, c⟩

namespace DataStore

variable {d : DataStore}

/-- Adding a plain value to the store in hand is honest and moves nothing. -/
theorem addPlain_honest (name : Option String) (value : Plain) (hstore : H.store = some d.handle) :
    (d.addPlain ctx name value).Honest ctx H fun _ H' => H' = H := by
  rw [addPlain_eq]
  refine honest_checked (fun e => honest_done (.refl H) rfl) fun _ => ?_
  refine honest_call (permits_add hstore fun _ _ h => by cases h) fun _ => ?_
  exact honest_done (.refl _) rfl

/-- A container that is handed over is out of hand, and so is one that cannot be. -/
theorem addContainer_honest {k : Kind} {c : Container k} (name : Option String)
    (hstore : H.store = some d.handle) (hmem : ⟨k, c⟩ ∈ H.held) :
    (d.addContainer ctx name c).Honest ctx H fun _ H' => H' = ⟨H.held.erase ⟨k, c⟩, none⟩ := by
  rw [addContainer_eq]
  refine honest_bind (Container.transferable_honest hmem) fun r H' hr => ?_
  cases r with
  | error e => exact honest_done (.refl _) hr
  | ok owned =>
    obtain ⟨rfl, hcaller, hvalid⟩ := hr
    obtain ⟨handle, ownership⟩ := owned
    obtain rfl : ownership = .callerOwned := hcaller
    cases ctx.require (.add name.isSome k.tableName) with
    | error e =>
      -- What cannot be handed over for want of an entry is destroyed.
      refine honest_bind (Container.cleanup_honest List.mem_cons_self) ?_
      rintro _ _ rfl
      refine honest_done ?_ rfl
      simpa using .refl _
    | ok _ =>
      refine honest_log (honest_call (permits_add hstore ?_) fun _ => ?_)
      · rintro _ _ ⟨⟩
        exact ⟨List.mem_cons_self, hvalid⟩
      · refine honest_done ?_ rfl
        show Covers ctx ⟨_ :: List.erase (_ :: _) _, _⟩ _
        rw [List.erase_cons_head]
        exact (Covers.of_cons (Holding.isOwner_view _) _ _).trans (.forget _)

/-- A push is checked only into a store that is not empty. -/
theorem isNull_of_checkPush {name : Option String} (h : checkPush ctx d name = .ok ()) :
    d.isNull = false := by
  cases hnull : d.isNull with
  | false => rfl
  | true => simp [checkPush, hnull] at h; cases h

/-- **A pushed container is out of hand**, whatever becomes of the push. -/
theorem push_honest (name : Option String) {value : Value}
    (hstore : d.isNull = false → H.store = some d.handle)
    (hmem : ∀ k c, value = .container k c → ⟨k, c⟩ ∈ H.held) :
    (d.push ctx name value).Honest ctx H fun _ H' => H' = ⟨value.removedFrom H.held, none⟩ := by
  rw [push_eq]
  -- A push that is refused still lets go of its container, since the wrapper was moved into it.
  cases hcheck : checkPush ctx d name with
  | error e =>
    cases value with
    | plain value => exact honest_done (.forget H) rfl
    | container k c =>
      refine honest_bind (Container.cleanup_honest (hmem k c rfl)) ?_
      rintro _ _ rfl
      exact honest_done (.forget _) rfl
  | ok _ =>
    have hstore := hstore (isNull_of_checkPush hcheck)
    have hadd : (d.add ctx name value).Honest ctx H fun _ H' =>
        H'.held = value.removedFrom H.held := by
      cases value with
      | plain value =>
        exact (addPlain_honest name value hstore).weaken fun _ _ h => congrArg Hands.held h
      | container k c =>
        exact (addContainer_honest name hstore (hmem k c rfl)).weaken fun _ _ h =>
          congrArg Hands.held h
    refine honest_bind hadd fun r H' hheld => ?_
    cases r with
    | error e => exact honest_done (.forget H') (by rw [hheld])
    | ok _ => exact honest_log (honest_done (.forget H') (by rw [hheld]))

end DataStore

end Custody
