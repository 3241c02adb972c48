import Custody.Proofs.Operations
import Custody.Proofs.Soundness

namespace Custody

open Hands Depot

/-!
# Truthful operations

A handle can be wrapped under any tag, and a container be reset to any handle.  That is truthful
if the depot agrees: the handle names a live resource of the kind, and whoever answers for it
under the new tag is the only one to do so.

* `Depot.Vouches` -- the depot agrees with a container that is taken into hand;
* `Operation.Truthful` -- it does so with all that an operation wraps or resets to;
* `Hands.Sound.hands` -- **a truthful operation begins with sound hands**.
-/

/-- The container can be taken into hand next to others.  One that is owned must be answered for
    by nobody else; one that is shared, except for a data store, must not be owned, and there
    must be a share for everyone. -/
structure Depot.Vouches (d : Depot) (others : List Holding) (x : Holding) : Prop where
  live : ∃ r, d.live? x.container.handle = some r ∧ r.kind = x.kind
  owned : x.container.ownership = .callerOwned →
    (∀ h, ¬ d.Contains h x.container.handle) ∧
      ∀ y ∈ others, y.container.handle = x.container.handle →
        y.container.ownership = .hostManaged
  shared : x.container.ownership = .sharedWithHost → x.kind.supportsSharing →
    (∀ h, ¬ d.Contains h x.container.handle) ∧
      (∀ y ∈ others, y.container.handle = x.container.handle →
        y.container.ownership ≠ .callerOwned) ∧
      (sharers (x :: others) x.container.handle : Int) ≤ d.shareCountOf x.container.handle

namespace Operation

/-- Whether the operation takes a handle from the caller under a tag. -/
def isWrapping : Operation → Bool
  | wrap .. | reset .. => true
  | _ => false

/-- The depot agrees with what the operation wraps or resets to.  The null handle is always
    right: it is not wrapped, and empties what is reset to it. -/
def Truthful (d : Depot) (w : Workspace) (op : Operation) : Prop :=
  op.isWrapping → ∀ x, (op.deal w).taken = some x → x.container.isNull = false →
    d.Vouches ((op.deal w).rest w.held) x

variable {w : Workspace}

/-- Whatever else is taken into hand is a view of what is given up for it. -/
theorem taken_of_not_isWrapping {op : Operation} (hop : op.isWrapping = false) {x : Holding}
    (hx : (op.deal w).taken = some x) : ∃ y, (op.deal w).given = some y ∧ x = y.view := by
  cases op with
  | wrap | reset => cases hop
  | relinquish source handleName | intoRaw source handleName =>
    simp only [deal] at hx ⊢
    split at hx
    · next y _ => exact ⟨y, rfl, (Option.some.inj hx).symm⟩
    · cases hx
  | pass source slot hasSlot =>
    simp only [deal] at hx ⊢
    split at hx
    · next y _ _ _ =>
      split at hx
      · next hgives =>
        rw [if_pos hgives]
        exact ⟨y, rfl, (Option.some.inj hx).symm⟩
      · cases hx
    · cases hx
  | _ => cases hx

end Operation

variable {H : Hands} {d : Depot} {w : Workspace}

namespace Hands.Sound

/-! ### Taking into hand -/

/-- A container need not stay in hand. -/
theorem erase (hs : H.Sound d) (x : Holding) : Sound ⟨H.held.erase x, H.store⟩ d := by
  have hsub : (H.held.erase x).Sublist H.held := List.erase_sublist
  refine hs.of_keeps (.refl d) (hs.tidy.mono fun y => ?_) rfl (fun y => hsub.countP_le)
    (fun y hy => .inr ⟨y.container.ownership, List.mem_of_mem_erase hy⟩) (.inr rfl)
  have howners : owners (H.held.erase x) y ≤ owners H.held y := hsub.countP_le
  have hsharers : sharers (H.held.erase x) y ≤ sharers H.held y := hsub.countP_le
  show claims (H.held.erase x) y ≤ _
  unfold claims
  omega

/-- A container can be taken into hand if it is claimed by nobody else and shared by as many as
    there are shares. -/
theorem take (hs : H.Sound d) {x : Holding} (hlive : d.isAlive x.container.handle)
    (hkind : ∃ r, d.find? x.container.handle = some r ∧ r.kind = x.kind)
    (hunique : claims (x :: H.held) x.container.handle + d.grip x.container.handle ≤ 1)
    (hshares : 0 < sharers (x :: H.held) x.container.handle →
      (sharers (x :: H.held) x.container.handle : Int) ≤ d.shareCountOf x.container.handle) :
    Sound ⟨x :: H.held, H.store⟩ d := by
  have hsharers : ∀ y ≠ x.container.handle, sharers (x :: H.held) y = sharers H.held y :=
    fun y hy => by simp [sharers, Ne.symm hy]
  have hclaims : ∀ y ≠ x.container.handle, claims (x :: H.held) y = claims H.held y :=
    fun y hy => by simp [claims, hsharers y hy, owners, Ne.symm hy]
  -- Claims to other handles are as before; those to this one are given.
  refine ⟨⟨hs.tidy.toWellFormed, fun y => ?_, fun y hy => ?_⟩, fun y hy => ?_,
    List.forall_mem_cons.mpr ⟨.inr hkind, hs.kinds⟩, hs.store, hs.clean⟩
  · by_cases hx : y = x.container.handle
    · exact hx ▸ hunique
    · exact hclaims y hx ▸ hs.tidy.unique y
  · by_cases hx : y = x.container.handle
    · exact hx ▸ hlive
    · exact hs.tidy.alive y (hclaims y hx ▸ hy)
  · by_cases hx : y = x.container.handle
    · subst hx
      exact hshares hy
    · have hy : 0 < sharers (x :: H.held) y := hy
      show ((sharers (x :: H.held) y : Nat) : Int) ≤ _
      rw [hsharers y hx] at hy ⊢
      exact hs.shares y hy

/-- What the depot vouches for can be taken into hand. -/
theorem vouched (hs : H.Sound d) {x : Holding} (hx : d.Vouches H.held x) :
    Sound ⟨x :: H.held, H.store⟩ d := by
  obtain ⟨r, hlive, hkind⟩ := hx.live
  have hfound : ∃ r, d.find? x.container.handle = some r ∧ r.kind = x.kind :=
    ⟨r, (live?_eq_some_iff.mp hlive).1, hkind⟩
  have halive := isAlive_of_live? hlive
  cases howner : x.container.ownership with
  | hostManaged =>
    -- A view claims nothing.
    exact hs.cons (by simp [Holding.isOwned, howner]) (by simp [Holding.isShare, howner])
      (.inr hfound)
  | callerOwned =>
    obtain ⟨hfree, hothers⟩ := hx.owned howner
    have hgrip := grip_eq_zero_iff.mpr hfree
    have howners : owners H.held x.container.handle = 0 :=
      owners_eq_zero fun y hy hsame => by simp [hothers y hy hsame]
    have hsharers : sharers (x :: H.held) x.container.handle = 0 :=
      sharers_eq_zero (List.forall_mem_cons.mpr
        ⟨fun _ => by simp [howner], fun y hy hsame => by simp [hothers y hy hsame]⟩)
    refine hs.take halive hfound ?_ (by omega)
    have hone : owners (x :: H.held) x.container.handle ≤ owners H.held x.container.handle + 1 := by
      rw [owners_cons, owners_singleton]
      split <;> omega
    unfold claims
    omega
  | sharedWithHost =>
    cases hshareable : x.kind.supportsSharing with
    | false =>
      -- The library never gives up a share in a data store, so it has none to claim.
      exact hs.cons (by simp [Holding.isOwned, howner]) (by simp [Holding.isShare, hshareable])
        (.inr hfound)
    | true =>
      obtain ⟨hfree, hothers, hshares⟩ := hx.shared howner hshareable
      have hgrip := grip_eq_zero_iff.mpr hfree
      refine hs.take halive hfound ?_ fun _ => hshares
      have howners : owners (x :: H.held) x.container.handle = 0 :=
        owners_eq_zero (List.forall_mem_cons.mpr ⟨fun _ => by simp [howner], hothers⟩)
      unfold claims
      omega

/-! ### Operations -/

/-- What is in hand after a truthful deal is sound. -/
theorem deal (hs : Sound ⟨w.held, none⟩ d) (hw : w.Ordered) {op : Operation}
    (hop : op.Truthful d w) : Sound ⟨(op.deal w).applied w.held, none⟩ d := by
  have hrest : Sound ⟨(op.deal w).rest w.held, none⟩ d := by
    unfold Deal.rest
    split
    · exact hs
    · exact hs.erase _
  unfold Deal.applied
  cases htaken : (op.deal w).taken with
  | none => exact hrest
  | some x =>
    cases hwrapping : op.isWrapping with
    | true =>
      cases hnull : x.container.isNull with
      | true =>
        exact hrest.cons (by simp [Holding.isOwned, hnull]) (by simp [Holding.isShare, hnull])
          (.inl hnull)
      | false => exact hrest.vouched (hop hwrapping x htaken hnull)
    | false =>
      obtain ⟨y, hgiven, rfl⟩ := Operation.taken_of_not_isWrapping hwrapping htaken
      have hview := Holding.isOwner_view y
      exact hrest.cons (Holding.isOwned_eq_false hview) (Holding.isShare_eq_false hview)
        (hs.kinds y (Operation.given_mem_held hw hgiven))

/-- **A truthful operation begins with sound hands.** -/
theorem hands (hs : Sound ⟨w.held, none⟩ d) (hw : w.Ordered) {op : Operation}
    (hop : op.Truthful d w) : (op.hands w).Sound d := by
  refine { hs.deal hw hop with store := fun s hstore => ?_ }
  -- Only a push has a store to add to, and that is in a variable.
  cases op with
  | push store name value =>
    simp only [Operation.hands, Option.filter_eq_some_iff, Option.map_eq_some_iff] at hstore
    obtain ⟨⟨c, hc, rfl⟩, hvalid⟩ := hstore
    cases hfound : w.dataStore store with
    | error failure => simp [hfound, Except.toOption] at hc
    | ok c' =>
      obtain rfl : c' = c := by simpa [hfound, Except.toOption] using hc
      refine (hs.kinds _ (hw.mem_held (Workspace.dataStore_eq_ok hfound))).resolve_left ?_
      simpa [Container.isNull] using hvalid
  | _ => cases hstore

end Hands.Sound

end Custody
