import Custody.Proofs.Disturbance
import Custody.Proofs.Soundness

namespace Custody

open Hands Depot

/-!
# Nothing is lost

Whatever a depot holds at its roots is owned by the caller or stays with the host: what the host
made on its own account, as long as the caller never came to own it.

* `Hands.Accounts` -- every root is accounted for, and every share that was given up is missing;
* `Hands.Accounts.answer` -- **a permitted call keeps the account**, whatever it is;
* `Hands.Accounts.walks` -- and so does a permitted trace.
-/

/-- Every root is owned by the caller or belongs to the stock of the host, whose handles stand
    there with the number of holders they had at first.  What the caller gained to own, it gained
    once, and every share that it released is missing in the depot. -/
structure Hands.Accounts (stock : List (Handle × Int)) (gained settled : List Holding)
    (H : Hands) (d : Depot) : Prop where
  roots : ∀ x, d.Root x → 0 < owners H.held x ∨ (x ∈ stock.map (·.1) ∧ owners gained x = 0)
  once : ∀ x, owners gained x ≤ 1
  found : ∀ x, 0 < owners gained x ∨ 0 < sharers settled x → ∃ r, d.find? x = some r
  shares : ∀ p ∈ stock, (∃ r, d.find? p.1 = some r) ∧
    d.shareCountOf p.1 = p.2 - sharers settled p.1
  store : ∀ s, H.store = some s → d.isAlive s

variable {stock : List (Handle × Int)} {gained settled : List Holding} {H H' : Hands}
  {d d' : Depot} {c : Call}

/-- What a depot keeps can be found in the other. -/
theorem Depot.Keeps.found (h : d.Keeps d') {x : Handle} (hx : ∃ r, d.find? x = some r) :
    ∃ r, d'.find? x = some r := by
  obtain ⟨r, hr⟩ := hx
  obtain ⟨r', hr', -⟩ := h x r hr
  exact ⟨r', hr'⟩

namespace Hands.Accounts

/-- Hands in which as much is owned account for as much. -/
theorem of_owners (ha : H.Accounts stock gained settled d)
    (howners : ∀ x, owners H.held x ≤ owners H'.held x)
    (hstore : H'.store = none ∨ H'.store = H.store) : H'.Accounts stock gained settled d where
  roots x hx := (ha.roots x hx).imp (Nat.lt_of_lt_of_le · (howners x)) id
  once := ha.once
  found := ha.found
  shares := ha.shares
  store s hs := by
    rcases hstore with hnone | hsame
    · simp [hnone] at hs
    · exact ha.store s (hsame ▸ hs)

/-- Depots with the same roots and the same counts have the same account. -/
theorem alike (ha : H.Accounts stock gained settled d) (h : d.Alike d') :
    H.Accounts stock gained settled d' where
  roots x hx := ha.roots x (h.roots x hx)
  once := ha.once
  found x hx := h.keeps.found (ha.found x hx)
  shares p hp := by
    obtain ⟨hfound, hcount⟩ := ha.shares p hp
    exact ⟨h.keeps.found hfound, (h.keeps.shareCountOf hfound).trans hcount⟩
  store s hs := h.lives s (ha.store s hs)

/-- A container that is taken into hand is gained.  It must be new if it is owned, and nothing
    else may have become a root. -/
theorem take (ha : H.Accounts stock gained settled d) (hgrows : d.Grows d') {x : Holding}
    (hroots : ∀ y, d'.Root y → (x.isOwned ∧ y = x.container.handle) ∨ d.Root y)
    (hx : x.isOwned → owners gained x.container.handle = 0 ∧
      ∃ r, d'.find? x.container.handle = some r) :
    Accounts stock (gained ++ [x]) settled ⟨x :: H.held, H.store⟩ d' := by
  -- Only the handle of the container itself is counted otherwise than before.
  constructor
  · intro y hy
    rw [owners_cons, owners_append, owners_singleton]
    split
    · exact .inl (by omega)
    · next hother =>
      rw [Nat.zero_add, Nat.add_zero]
      exact ha.roots y ((hroots y hy).resolve_left fun h => hother ⟨h.1, h.2.symm⟩)
  · intro y
    rw [owners_append, owners_singleton]
    split
    · next hsame =>
      obtain ⟨howned, rfl⟩ := hsame
      have hnew := (hx howned).1
      omega
    · exact ha.once y
  · intro y hy
    rw [owners_append, owners_singleton] at hy
    split at hy
    · next hsame =>
      obtain ⟨howned, rfl⟩ := hsame
      exact (hx howned).2
    · exact hgrows.keeps.found (ha.found y hy)
  · intro p hp
    obtain ⟨hfound, hcount⟩ := ha.shares p hp
    exact ⟨hgrows.keeps.found hfound, (hgrows.keeps.shareCountOf hfound).trans hcount⟩
  · exact fun s hs => hgrows.lives s (ha.store s hs)

/-! ### Calls, sort by sort -/

/-- What was made is owned from then on. -/
theorem gains (ha : H.Accounts stock gained settled d) {claims : Handle → Nat} {k : Kind}
    {h : Handle} (hmakes : Makes claims k d (h, d')) :
    Accounts stock (gained ++ [⟨k, .fresh h⟩]) settled ⟨⟨k, .fresh h⟩ :: H.held, H.store⟩ d' := by
  have howned : (⟨k, .fresh h⟩ : Holding).isOwned := by
    simpa [Holding.isOwned, Container.fresh, Container.isNull] using hmakes.ne_null
  refine ha.take hmakes.toGrows (fun y hy => ?_) fun _ => ⟨?_, ?_⟩
  · exact (hmakes.roots y hy).imp (fun hy => ⟨howned, hy⟩) id
  · -- Whatever was gained before is found, and the new handle was not.
    refine Nat.eq_zero_of_not_pos fun hpos => ?_
    obtain ⟨r, hr⟩ := ha.found _ (.inl hpos)
    have hfresh : d.find? h = none := hmakes.fresh
    simp [Container.fresh, hfresh] at hr
  · obtain ⟨r, hr, -⟩ := hmakes.kind
    exact ⟨r, hr⟩

/-- What is released is no root any more. -/
theorem releases (ha : H.Accounts stock gained settled d) {claims : Handle → Nat}
    {gone : List Handle} (hreleases : Releases claims gone d d') {out : List Holding}
    (hout : ∀ x, sharers out x = 0)
    (howners : ∀ x, x ∉ gone → owners H.held x ≤ owners H'.held x)
    (hstore : ∀ s, H'.store = some s → d'.isAlive s) :
    H'.Accounts stock gained (settled ++ out) d' where
  roots x hx := by
    obtain ⟨hroot, hgone⟩ := hreleases.roots x hx
    exact (ha.roots x hroot).imp (Nat.lt_of_lt_of_le · (howners x hgone)) id
  once := ha.once
  found x hx := by
    rw [sharers_append, hout, Nat.add_zero] at hx
    exact hreleases.keeps.found (ha.found x hx)
  shares p hp := by
    obtain ⟨hfound, hcount⟩ := ha.shares p hp
    refine ⟨hreleases.keeps.found hfound, (hreleases.keeps.shareCountOf hfound).trans ?_⟩
    rw [hcount, sharers_append, hout, Nat.add_zero]
  store := hstore

/-- A call that may deliver a handle keeps the account, the handle being gained if one was
    delivered. -/
theorem answer_of_yield? (ha : H.Accounts stock gained settled d) (hs : H.Sound d)
    (hc : H.Permits c) (hyield : c.yield?.isSome) :
    (H.after c (d.answer c).1).Accounts stock (gained ++ (c.brings? (d.answer c).1).toList) settled
      (d.answer c).2 := by
  obtain ⟨k, hk⟩ := Option.isSome_iff_exists.mp hyield
  rw [after_of_yield? H hyield]
  rcases answer_yields hs.tidy hk (hs.source hc) with ⟨hbrings, halike⟩ | ⟨h, hbrings, hmakes⟩
  · simpa [hbrings] using ha.alike halike
  · simpa [hbrings] using ha.gains hmakes

/-- A reading changes no account. -/
theorem answer_of_isReading (ha : H.Accounts stock gained settled d) (hc : c.isReading) :
    (H.after c (d.answer c).1).Accounts stock gained settled (d.answer c).2 := by
  refine (ha.alike (alike_of_isReading hc d)).of_owners (fun x => ?_) ?_
  · rw [after_of_isReading H hc, owners_append]
    exact Nat.le_add_left _ _
  · rw [after_of_isReading H hc]
    exact .inr rfl

/-- What is freed was owned, and its root is gone with it. -/
theorem answer_of_free (ha : H.Accounts stock gained settled d) (hs : H.Sound d) {k : Kind}
    {h : Handle} (hc : H.Permits (.free k h)) :
    (H.after (.free k h) ()).Accounts stock gained (settled ++ [⟨k, ⟨h, .callerOwned⟩⟩])
      (d.answer (.free k h)).2 := by
  refine ha.releases (hs.free_releases hc) (fun x => ?_) (fun x hx => ?_) nofun
  · exact sharers_eq_zero (by simp)
  · have howners := (owned_of_releases (a := ()) hc rfl rfl x).1
    rw [List.count_eq_zero.mpr hx] at howners
    omega

/-- What is added to a store of one's own is not a root any more. -/
theorem answer_of_add (ha : H.Accounts stock gained settled d) (hs : H.Sound d)
    {store : Handle} {name : Option String} {item : Item} (hc : H.Permits (.add store name item)) :
    (H.after (.add store name item) ()).Accounts stock gained
      (settled ++ (Call.add store name item).releases?.toList)
      (d.answer (.add store name item)).2 := by
  have halive := ha.store store (hc.store store rfl)
  refine ha.releases (hs.add_releases hc halive) (fun x => ?_) (fun x hx => ?_) fun s hs' => ?_
  · cases item <;> exact sharers_eq_zero (by simp [Call.releases?])
  · cases item with
    | plain value => exact Nat.le_refl _
    | container k child =>
      have hx : x ∉ [child] := hx
      have howners := (owned_of_releases (a := ()) hc rfl rfl x).1
      rw [List.count_eq_zero.mpr hx] at howners
      omega
  · exact isAlive_answer_add store name item s (ha.store s hs')

/-- A share that is given up is missing from then on. -/
theorem answer_of_disown (ha : H.Accounts stock gained settled d) (hs : H.Sound d) {k : Kind}
    {h : Handle} (hc : H.Permits (.disown k h)) :
    (H.after (.disown k h) ()).Accounts stock gained (settled ++ [⟨k, ⟨h, .sharedWithHost⟩⟩])
      (d.answer (.disown k h)).2 := by
  have hshareable : k.supportsSharing := hc.shareable k h rfl
  obtain ⟨hmem, hnull⟩ := hc.released _ rfl
  have hcounts := shared_of_releases (a := ()) hc rfl rfl hshareable
  have hone : ∀ x, sharers [⟨k, ⟨h, .sharedWithHost⟩⟩] x = [h].count x := fun x => by
    simp [sharers_singleton, Holding.isShare, Container.isNull, hnull, hshareable,
      List.count_singleton]
  have hfound : ∀ {x}, (∃ r, d.find? x = some r) →
      ∃ r, (d.modify h disowned).find? x = some r := by
    rintro x ⟨r, hr⟩
    exact ⟨_, find?_modify_eq_some.mpr ⟨r, hr, rfl⟩⟩
  have halive : d.isAlive h := hs.alive_of_claims (by
    have := (hcounts h).2
    rw [List.count_singleton_self] at this
    unfold claims
    omega)
  rw [hs.disown_modifies hc]
  constructor
  · intro x hx
    rw [← (hcounts x).1]
    exact ha.roots x ((root_modify superficial_disowned h x).mp hx)
  · exact ha.once
  · -- The share is settled now, and the resource is still there.
    intro x hx
    rw [sharers_append, hone] at hx
    by_cases hxh : x = h
    · obtain ⟨r, hr, -⟩ := isAlive_iff.mp halive
      exact hfound ⟨r, hxh ▸ hr⟩
    · rw [show [h].count x = 0 by simpa [List.count_singleton] using Ne.symm hxh] at hx
      exact hfound (ha.found x hx)
  · intro p hp
    obtain ⟨hthere, hcount⟩ := ha.shares p hp
    refine ⟨hfound hthere, ?_⟩
    rw [shareCountOf_disowned halive, hcount, sharers_append, hone]
    omega
  · exact fun s hs' => (isAlive_modify (fun r => (superficial_disowned r).2.1) h s).mpr
      (ha.store s hs')

/-- **A permitted call keeps the account**, whatever it is. -/
theorem answer (ha : H.Accounts stock gained settled d) (hs : H.Sound d) (hc : H.Permits c) :
    (H.after c (d.answer c).1).Accounts stock (gained ++ (c.brings? (d.answer c).1).toList)
      (settled ++ c.releases?.toList) (d.answer c).2 := by
  cases c with
  | free k h =>
    show Accounts _ (gained ++ []) _ _ _
    rw [List.append_nil]
    exact ha.answer_of_free hs hc
  | disown k h =>
    show Accounts _ (gained ++ []) _ _ _
    rw [List.append_nil]
    exact ha.answer_of_disown hs hc
  | add store name item =>
    show Accounts _ (gained ++ []) _ _ _
    rw [List.append_nil]
    exact ha.answer_of_add hs hc
  | read | dimensions | member =>
    simpa [Call.brings?, Call.yield?, Call.releases?] using ha.answer_of_isReading rfl
  | _ => simpa [Call.releases?] using ha.answer_of_yield? hs hc rfl

/-! ### Traces -/

/-- **A permitted trace keeps the account** if no effect is met on the way. -/
theorem walks {s s' : Disturbed Depot} {trace : List Happening}
    (ha : H.Accounts stock gained settled s.state) (hs : H.Sound s.state) (hquiet : s.pending = [])
    (hwalks : Depot.host.disturbed.Walks s trace s') (htrace : H.PermitsAll trace) :
    (H.afterAll trace).Accounts stock (gained ++ received trace) (settled ++ released trace)
      s'.state ∧ s'.pending = [] := by
  induction hwalks generalizing H gained settled with
  | nil s => simpa [received, released, afterAll] using ⟨ha, hquiet⟩
  | @called s _ trace c rest ih =>
    have hanswer : Depot.host.disturbed.answer c s =
        ((s.state.answer c).1, ⟨s.pending, (s.state.answer c).2⟩) := by
      rw [Host.disturbed_answer, hquiet]
      rfl
    rw [hanswer] at htrace ih ⊢
    -- Both invariants go through the call: sound hands say what a call does to the account.
    obtain ⟨hall, hquiet'⟩ := ih (ha.answer hs htrace.1) (hs.answer htrace.1) hquiet htrace.2
    refine ⟨?_, hquiet'⟩
    simp only [received, released_called, afterAll, ← List.append_assoc]
    exact hall
  | logged e rest ih => exact ih ha hs hquiet htrace

end Hands.Accounts

end Custody
