import Custody.Proofs.Depot.Making
import Custody.Proofs.Depot.Releasing
import Custody.Session

namespace Custody

open Hands Depot

/-!
# Hands that a depot agrees with

What is in the hands of the caller is sound if the depot agrees: whatever the caller owns or has
a share in is alive and claimed by nobody else.  A call that is made with sound hands leaves
sound hands, and releases nothing by mistake.

* `owners`, `sharers`, `claims` -- how often a handle is owned, shared and claimed in hand;
* `Hands.Sound` -- the depot agrees with the hands;
* `Hands.Sound.answer` -- **a permitted call keeps hands sound**, whatever it is;
* `Hands.Sound.covers` -- hands that are accounted for are sound.
-/

/-! ### Claims -/

namespace Holding

/-- Whether the caller alone is responsible for the container. -/
def isOwned (x : Holding) : Bool :=
  !x.container.isNull && decide (x.container.ownership = .callerOwned)

/-- Whether the caller has a share in the container. -/
def isShare (x : Holding) : Bool :=
  !x.container.isNull && decide (x.container.ownership = .sharedWithHost) && x.kind.supportsSharing

/-- What is owned is somebody's to clean up. -/
theorem isOwner_of_isOwned {x : Holding} (h : x.isOwned) : x.isOwner := by
  simp only [isOwned, Bool.and_eq_true, decide_eq_true_eq] at h
  simp [isOwner, Container.isOwner, h.1, h.2, Ownership.isOwner]

/-- A share is somebody's to clean up. -/
theorem isOwner_of_isShare {x : Holding} (h : x.isShare) : x.isOwner := by
  simp only [isShare, Bool.and_eq_true, decide_eq_true_eq] at h
  simp [isOwner, Container.isOwner, h.1.1, h.1.2, Ownership.isOwner]

/-- What is nobody's to clean up is not owned. -/
theorem isOwned_eq_false {x : Holding} (h : x.isOwner = false) : x.isOwned = false := by
  cases ho : x.isOwned with
  | false => rfl
  | true => simp [isOwner_of_isOwned ho] at h

/-- What is nobody's to clean up is no share. -/
theorem isShare_eq_false {x : Holding} (h : x.isOwner = false) : x.isShare = false := by
  cases hs : x.isShare with
  | false => rfl
  | true => simp [isOwner_of_isShare hs] at h

end Holding

/-- How often a handle is owned. -/
def owners (held : List Holding) (h : Handle) : Nat :=
  held.countP fun x => x.isOwned && x.container.handle == h

/-- How many shares there are in a handle. -/
def sharers (held : List Holding) (h : Handle) : Nat :=
  held.countP fun x => x.isShare && x.container.handle == h

/-- How often a handle is claimed: by its owners, and by all that share in it together. -/
def claims (held : List Holding) (h : Handle) : Nat := owners held h + min (sharers held h) 1

/-- A handle that is in hand only under other tags has no owner. -/
theorem owners_eq_zero {held : List Holding} {h : Handle}
    (hheld : ∀ x ∈ held, x.container.handle = h → x.container.ownership ≠ .callerOwned) :
    owners held h = 0 := by
  refine List.countP_eq_zero.mpr fun x hx => ?_
  simp only [Holding.isOwned, Bool.and_eq_true, decide_eq_true_eq, beq_iff_eq]
  exact fun hcount => hheld x hx hcount.2 hcount.1.2

/-- A handle that is in hand only under other tags has no sharer. -/
theorem sharers_eq_zero {held : List Holding} {h : Handle}
    (hheld : ∀ x ∈ held, x.container.handle = h → x.container.ownership ≠ .sharedWithHost) :
    sharers held h = 0 := by
  refine List.countP_eq_zero.mpr fun x hx => ?_
  simp only [Holding.isShare, Bool.and_eq_true, decide_eq_true_eq, beq_iff_eq]
  exact fun hcount => hheld x hx hcount.2 hcount.1.1.2

/-- What is owned has an owner. -/
theorem owners_pos {held : List Holding} {x : Holding} (hx : x ∈ held) (howned : x.isOwned) :
    0 < owners held x.container.handle := List.countP_pos_iff.mpr ⟨x, hx, by simp [howned]⟩

/-- What is shared has a sharer. -/
theorem sharers_pos {held : List Holding} {x : Holding} (hx : x ∈ held) (hshare : x.isShare) :
    0 < sharers held x.container.handle := List.countP_pos_iff.mpr ⟨x, hx, by simp [hshare]⟩

/-- Owners in two lists add up. -/
theorem owners_append (l l' : List Holding) (h : Handle) :
    owners (l ++ l') h = owners l h + owners l' h := List.countP_append

/-- Sharers in two lists add up. -/
theorem sharers_append (l l' : List Holding) (h : Handle) :
    sharers (l ++ l') h = sharers l h + sharers l' h := List.countP_append

/-- The owners in a list begin with the first container. -/
theorem owners_cons (x : Holding) (l : List Holding) (h : Handle) :
    owners (x :: l) h = owners [x] h + owners l h := owners_append [x] l h

/-- The sharers in a list begin with the first container. -/
theorem sharers_cons (x : Holding) (l : List Holding) (h : Handle) :
    sharers (x :: l) h = sharers [x] h + sharers l h := sharers_append [x] l h

/-- A container has one owner for its own handle, if it is owned. -/
theorem owners_singleton (x : Holding) (h : Handle) :
    owners [x] h = if x.isOwned ∧ x.container.handle = h then 1 else 0 := by
  simp [owners, List.countP_singleton]

/-- A container is one share in its own handle, if it is shared. -/
theorem sharers_singleton (x : Holding) (h : Handle) :
    sharers [x] h = if x.isShare ∧ x.container.handle = h then 1 else 0 := by
  simp [sharers, List.countP_singleton]

variable {H H' : Hands} {d d' : Depot} {c : Call} {a : c.Answer} {ctx : Context}

/-- The owners of a handle balance over a call. -/
theorem owners_after (hc : H.Permits c) (h : Handle) :
    owners H.held h + owners (c.brings? a).toList h =
      owners c.releases?.toList h + owners (H.after c a).held h := by
  refine countP_after hc fun y hy => ?_
  simp [Holding.isOwned_eq_false hy]

/-- The sharers of a handle balance over a call. -/
theorem sharers_after (hc : H.Permits c) (h : Handle) :
    sharers H.held h + sharers (c.brings? a).toList h =
      sharers c.releases?.toList h + sharers (H.after c a).held h := by
  refine countP_after hc fun y hy => ?_
  simp [Holding.isShare_eq_false hy]

/-- Hands that are accounted for have no more owners. -/
theorem owners_le (h : Covers ctx H H') (x : Handle) : owners H'.held x ≤ owners H.held x :=
  h.countP_le fun y hy => Holding.isOwner_of_isOwned (by
    simp only [Bool.and_eq_true] at hy
    exact hy.1)

/-- Hands that are accounted for have no more sharers. -/
theorem sharers_le (h : Covers ctx H H') (x : Handle) : sharers H'.held x ≤ sharers H.held x :=
  h.countP_le fun y hy => Holding.isOwner_of_isShare (by
    simp only [Bool.and_eq_true] at hy
    exact hy.1)

/-! ### What is released -/

namespace Hands

/-- What is released was an owner before. -/
theorem owners_of_releases (hc : H.Permits c) {y : Holding} (hreleases : c.releases? = some y)
    (hbrings : c.brings? a = none) (x : Handle) :
    owners H.held x = owners [y] x + owners (H.after c a).held x := by
  have hafter := owners_after (a := a) hc x
  rw [hreleases, hbrings] at hafter
  exact hafter

/-- What is released was a sharer before. -/
theorem sharers_of_releases (hc : H.Permits c) {y : Holding} (hreleases : c.releases? = some y)
    (hbrings : c.brings? a = none) (x : Handle) :
    sharers H.held x = sharers [y] x + sharers (H.after c a).held x := by
  have hafter := sharers_after (a := a) hc x
  rw [hreleases, hbrings] at hafter
  exact hafter

/-- A container that the caller owns is claimed once more than after it was released. -/
theorem owned_of_releases {k : Kind} {h : Handle} (hc : H.Permits c)
    (hreleases : c.releases? = some ⟨k, ⟨h, .callerOwned⟩⟩) (hbrings : c.brings? a = none)
    (x : Handle) : owners H.held x = owners (H.after c a).held x + [h].count x ∧
      sharers H.held x = sharers (H.after c a).held x := by
  have hnull : h ≠ .null := (hc.released _ hreleases).2
  have hone : owners [⟨k, ⟨h, .callerOwned⟩⟩] x = [h].count x := by
    simp [owners_singleton, Holding.isOwned, Container.isNull, hnull, List.count_singleton]
  have hnone : sharers [⟨k, ⟨h, .callerOwned⟩⟩] x = 0 := by
    simp [sharers_singleton, Holding.isShare]
  rw [owners_of_releases hc hreleases hbrings, sharers_of_releases hc hreleases hbrings, hone,
    hnone]
  omega

/-- A container that the caller shares has one share more than after it was released. -/
theorem shared_of_releases {k : Kind} {h : Handle} (hc : H.Permits c)
    (hreleases : c.releases? = some ⟨k, ⟨h, .sharedWithHost⟩⟩) (hbrings : c.brings? a = none)
    (hk : k.supportsSharing) (x : Handle) : owners H.held x = owners (H.after c a).held x ∧
      sharers H.held x = sharers (H.after c a).held x + [h].count x := by
  have hnull : h ≠ .null := (hc.released _ hreleases).2
  have hone : sharers [⟨k, ⟨h, .sharedWithHost⟩⟩] x = [h].count x := by
    simp [sharers_singleton, Holding.isShare, Container.isNull, hnull, hk, List.count_singleton]
  have hnone : owners [⟨k, ⟨h, .sharedWithHost⟩⟩] x = 0 := by
    simp [owners_singleton, Holding.isOwned]
  rw [owners_of_releases hc hreleases hbrings, sharers_of_releases hc hreleases hbrings, hone,
    hnone]
  omega

/-- What a call releases was in hand, and nothing else comes into hand by it. -/
theorem known_after (hc : H.Permits c) (hbrings : c.brings? a = none)
    (hshows : c.shows? a = none) :
    ∀ x ∈ (H.after c a).held, H.Knows x.kind x.container.handle := by
  intro x hx
  simp only [Hands.after, hbrings, hshows, Option.toList_none, List.nil_append] at hx
  cases hreleases : c.releases? with
  | none =>
    rw [hreleases] at hx
    exact ⟨x.container.ownership, hx⟩
  | some y =>
    rw [hreleases] at hx
    rcases List.mem_cons.mp hx with rfl | hx
    · exact ⟨y.container.ownership, (hc.released y hreleases).1⟩
    · exact ⟨x.container.ownership, List.mem_of_mem_erase hx⟩

end Hands

/-! ### Sound hands -/

/-- A share that is given up is counted off the number of holders. -/
theorem Depot.shareCountOf_disowned {h : Handle} (hh : d.isAlive h) (x : Handle) :
    (d.modify h disowned).shareCountOf x =
      d.shareCountOf x - [h].count x := by
  obtain ⟨r, hr, -⟩ := isAlive_iff.mp hh
  unfold Depot.shareCountOf
  rw [find?_modify, List.count_singleton]
  by_cases hx : x = h
  · simp [hx, hr, disowned]
  · simp [hx, Ne.symm hx]

/-- What is kept has the number of holders that it had. -/
theorem Depot.Keeps.shareCountOf (h : d.Keeps d') {x : Handle}
    (hx : ∃ r, d.find? x = some r) : d'.shareCountOf x = d.shareCountOf x := by
  obtain ⟨r, hr⟩ := hx
  obtain ⟨r', hr', -, -, hcount⟩ := h x r hr
  simp [Depot.shareCountOf, hr, hr', hcount]

namespace Hands

/-- The depot agrees with what is in hand: it is claimed by nobody else, there are as many holders
    as shares, the kinds are right, and nothing was released by mistake so far. -/
structure Sound (H : Hands) (d : Depot) : Prop where
  tidy : d.Tidy (claims H.held)
  shares : ∀ h, 0 < sharers H.held h → (sharers H.held h : Int) ≤ d.shareCountOf h
  kinds : ∀ x ∈ H.held, x.container.isNull ∨
    ∃ r, d.find? x.container.handle = some r ∧ r.kind = x.kind
  store : ∀ s, H.store = some s → ∃ r, d.find? s = some r ∧ r.kind = .dataStore
  clean : d.misreleases = []

namespace Sound

/-- Hands that are accounted for are sound. -/
theorem covers (hs : H.Sound d) (h : Covers ctx H H') : H'.Sound d where
  -- There are at most as many owners and sharers as before, and so at most as many claims.
  tidy := hs.tidy.mono fun x => by
    have := owners_le h x
    have := sharers_le h x
    unfold claims
    omega
  shares x hx := by
    have hle := sharers_le h x
    have := hs.shares x (by omega)
    omega
  kinds x hx := by
    rcases h.known x hx with hnull | ⟨ownership, hmem⟩
    · exact .inl hnull
    · exact hs.kinds ⟨x.kind, ⟨x.container.handle, ownership⟩⟩ hmem
  store s hstore := by
    rcases h.store with hnone | hsame
    · rw [hnone] at hstore
      cases hstore
    · exact hs.store s (hsame ▸ hstore)
  clean := hs.clean

/-- What is claimed is alive. -/
theorem alive_of_claims (hs : H.Sound d) {h : Handle} (hpos : 0 < claims H.held h) :
    d.isAlive h := hs.tidy.alive h (by omega)

/-- What is known under a handle is found there, and is of that kind. -/
theorem find?_of_knows (hs : H.Sound d) {k : Kind} {h : Handle} (hk : H.Knows k h)
    (hnull : h ≠ .null) : ∃ r, d.find? h = some r ∧ r.kind = k := by
  obtain ⟨ownership, hmem⟩ := hk
  exact (hs.kinds _ hmem).resolve_left (by simpa [Container.isNull] using hnull)

/-- Hands stay sound when resources are released to which there is no claim any more. -/
theorem of_keeps (hs : H.Sound d) (hkeeps : d.Keeps d') (htidy : d'.Tidy (claims H'.held))
    (hclean : d'.misreleases = d.misreleases)
    (hsharers : ∀ x, sharers H'.held x ≤ sharers H.held x)
    (hknown : ∀ x ∈ H'.held, x.container.isNull ∨ H.Knows x.kind x.container.handle)
    (hstore : H'.store = none ∨ H'.store = H.store) : H'.Sound d' where
  tidy := htidy
  shares x hx := by
    have hle := hsharers x
    have hold := hs.shares x (by omega)
    obtain ⟨r, hr, -⟩ := isAlive_iff.mp (hs.alive_of_claims (h := x) (by unfold claims; omega))
    rw [hkeeps.shareCountOf ⟨r, hr⟩]
    omega
  -- A resource keeps its kind even when it is released.
  kinds x hx := by
    rcases hknown x hx with hnull | ⟨ownership, hmem⟩
    · exact .inl hnull
    · refine (hs.kinds ⟨x.kind, ⟨x.container.handle, ownership⟩⟩ hmem).imp id ?_
      rintro ⟨r, hr, hkind⟩
      obtain ⟨r', hr', hkind', -⟩ := hkeeps _ r hr
      exact ⟨r', hr', hkind'.trans hkind⟩
  store s hs' := by
    rcases hstore with hnone | hsame
    · rw [hnone] at hs'
      cases hs'
    · obtain ⟨r, hr, hkind⟩ := hs.store s (hsame ▸ hs')
      obtain ⟨r', hr', hkind', -⟩ := hkeeps _ r hr
      exact ⟨r', hr', hkind'.trans hkind⟩
  clean := hclean.trans hs.clean

/-- Hands stay sound where nothing has changed for those who claim or hold something. -/
theorem alike (hs : H.Sound d) (h : d.Alike d') : H.Sound d' :=
  hs.of_keeps h.keeps (h.tidy _ hs.tidy) h.clean (fun _ => Nat.le_refl _)
    (fun x hx => .inr ⟨x.container.ownership, hx⟩) (.inr rfl)

/-- Something else that was made is no concern of theirs. -/
theorem made (hs : H.Sound d) {k : Kind} {made : Handle × Depot}
    (h : Makes (claims H.held) k d made) : H.Sound made.2 :=
  hs.of_keeps h.keeps (h.tidy.mono fun _ => Nat.le_add_right _ _) h.clean
    (fun _ => Nat.le_refl _) (fun x hx => .inr ⟨x.container.ownership, hx⟩) (.inr rfl)

/-- A container that nobody claims can be in hand at any time, if its kind is right. -/
theorem cons (hs : H.Sound d) {x : Holding} (howned : x.isOwned = false)
    (hshare : x.isShare = false)
    (hkind : x.container.isNull ∨ ∃ r, d.find? x.container.handle = some r ∧ r.kind = x.kind) :
    Sound ⟨x :: H.held, H.store⟩ d := by
  have howners : owners (x :: H.held) = owners H.held := by
    funext y
    rw [owners_cons, owners_singleton, if_neg (by simp [howned]), Nat.zero_add]
  have hsharers : sharers (x :: H.held) = sharers H.held := by
    funext y
    rw [sharers_cons, sharers_singleton, if_neg (by simp [hshare]), Nat.zero_add]
  have hclaims : claims (x :: H.held) = claims H.held := by
    funext y
    simp only [claims, howners, hsharers]
  exact ⟨hclaims ▸ hs.tidy, hsharers ▸ hs.shares, List.forall_mem_cons.mpr ⟨hkind, hs.kinds⟩,
    hs.store, hs.clean⟩

/-! ### Calls, sort by sort -/

/-- The source of a permitted call is of the kind that the call says. -/
theorem source (hs : H.Sound d) (hc : H.Permits c) (k : Kind) (h : Handle) (r : Resource)
    (hsource : c.source? = some (k, h)) (hfound : d.find? h = some r) : r.kind = k := by
  obtain ⟨hknows, hnull⟩ := hc.source k h hsource
  obtain ⟨r', hr', hkind⟩ := hs.find?_of_knows hknows hnull
  obtain rfl : r = r' := Option.some.inj (hfound.symm.trans hr')
  exact hkind

/-- What is destroyed is claimed next to what stays in hand. -/
theorem tidy_free (hs : H.Sound d) {k : Kind} {h : Handle} (hc : H.Permits (.free k h)) :
    d.Tidy fun x => claims (H.after (.free k h) ()).held x + [h].count x :=
  hs.tidy.mono fun x => by
    have hx := owned_of_releases (a := ()) hc rfl rfl x
    unfold claims
    omega

/-- A container of the caller is destroyed with all that it holds. -/
theorem free_releases (hs : H.Sound d) {k : Kind} {h : Handle} (hc : H.Permits (.free k h)) :
    Releases (claims (H.after (.free k h) ()).held) [h] d (d.answer (.free k h)).2 :=
  retire_releases (hs.tidy_free hc) _

/-- A share that the caller has is given up. -/
theorem disown_modifies (hs : H.Sound d) {k : Kind} {h : Handle}
    (hc : H.Permits (.disown k h)) :
    (d.answer (.disown k h)).2 = d.modify h disowned := by
  obtain ⟨hmem, hnull⟩ := hc.released _ rfl
  have hpos : 0 < sharers H.held h := sharers_pos hmem (by
    simpa [Holding.isShare, Container.isNull, hc.shareable k h rfl] using hnull)
  obtain ⟨r, hr, halive⟩ := isAlive_iff.mp (hs.alive_of_claims (h := h) (by unfold claims; omega))
  have hcount : d.shareCountOf h = r.shareCount := by simp [Depot.shareCountOf, hr]
  have hshares := hs.shares h hpos
  exact disown_eq (live?_eq_some_iff.mpr ⟨hr, halive⟩) (by omega)

/-- A value is put into a store that is alive; otherwise only a misuse is noted. -/
theorem add_releases (hs : H.Sound d) {store : Handle} {name : Option String} {item : Item}
    (hc : H.Permits (.add store name item)) (halive : d.isAlive store) :
    Releases (claims (H.after (.add store name item) ()).held)
      ((Call.add store name item).releases?.toList.map (·.container.handle)) d
      (d.answer (.add store name item)).2 := by
  obtain ⟨r, hfound, hr⟩ := isAlive_iff.mp halive
  have hlive : d.live? store = some r := live?_eq_some_iff.mpr ⟨hfound, hr⟩
  have hkind : r.kind = .dataStore := by
    obtain ⟨r', hr', hkind⟩ := hs.store store (hc.store store rfl)
    obtain rfl : r = r' := Option.some.inj (hfound.symm.trans hr')
    exact hkind
  cases item with
  | plain value =>
    exact postTo_releases (hs.tidy.mono fun _ => Nat.le_refl _) hlive hkind _
  | container k child =>
    have hx := fun x => owned_of_releases (a := ()) hc rfl rfl x
    -- The caller owns the child until it is handed over, so it is alive.
    have hchild : d.isAlive child := hs.alive_of_claims (by
      have := (hx child).1
      simp only [List.count_singleton_self] at this
      unfold claims
      omega)
    obtain ⟨r', hr'⟩ := Option.isSome_iff_exists.mp hchild
    have hpost : (d.answer (.add store name (.container k child))).2 =
        d.postTo store [child] ⟨name, .container k child⟩ := by
      simp only [Depot.answer, post, hr']
    rw [hpost]
    have hclaims : d.Tidy fun x =>
        claims (H.after (.add store name (.container k child)) ()).held x + [child].count x :=
      hs.tidy.mono fun x => by
        have := hx x
        unfold claims
        omega
    exact postTo_releases hclaims hlive hkind _

/-! ### All of them -/

/-- Whatever a call makes, hands stay sound even if it is not granted. -/
theorem unseen (hs : H.Sound d) (hc : H.Permits c) (hyield : c.yield?.isSome) :
    H.Sound (d.answer c).2 := by
  obtain ⟨k, hk⟩ := Option.isSome_iff_exists.mp hyield
  rcases answer_yields hs.tidy hk (hs.source hc) with ⟨-, halike⟩ | ⟨h, -, hmakes⟩
  · exact hs.alike halike
  · exact hs.made hmakes

/-- A call that makes a container leaves it in sound hands. -/
theorem answer_of_yield? (hs : H.Sound d) (hc : H.Permits c) (hyield : c.yield?.isSome) :
    (H.after c (d.answer c).1).Sound (d.answer c).2 := by
  have hunseen := hs.unseen hc hyield
  obtain ⟨k, hk⟩ := Option.isSome_iff_exists.mp hyield
  rw [after_of_yield? H hyield]
  rcases answer_yields hs.tidy hk (hs.source hc) with ⟨hbrings, -⟩ | ⟨h, hbrings, hmakes⟩
  · rw [hbrings]
    exact hunseen
  · rw [hbrings]
    have hnull : h ≠ .null := hmakes.ne_null
    have howners : ∀ x, owners (⟨k, .fresh h⟩ :: H.held) x = [h].count x + owners H.held x :=
      fun x => by
        rw [owners_cons, owners_singleton, List.count_singleton]
        simp [Holding.isOwned, Container.fresh, Container.isNull, hnull]
    have hsharers : ∀ x, sharers (⟨k, .fresh h⟩ :: H.held) x = sharers H.held x := fun x => by
      rw [sharers_cons, sharers_singleton]
      simp [Holding.isShare, Container.fresh]
    -- The one new claim is the one that came with the new resource.
    refine ⟨hmakes.tidy.mono fun x => ?_, fun x hx => ?_, ?_, hunseen.store, hunseen.clean⟩
    · show claims (⟨k, .fresh h⟩ :: H.held) x ≤ _
      simp only [claims, howners, hsharers]
      omega
    · have hx : 0 < sharers (⟨k, .fresh h⟩ :: H.held) x := hx
      show ((sharers (⟨k, .fresh h⟩ :: H.held) x : Nat) : Int) ≤ _
      rw [hsharers] at hx ⊢
      exact hunseen.shares x hx
    · exact List.forall_mem_cons.mpr ⟨.inr hmakes.kind, hunseen.kinds⟩

/-- What is seen inside an array is a tensor. -/
theorem kind_of_member (hs : H.Sound d) {m : Member} {array slot : Handle}
    (hslot : (d.answer (.member m array)).1 = some slot) :
    ∃ r, (d.answer (.member m array)).2.find? slot = some r ∧ r.kind = .tensor := by
  have hpeek : (d.answer (.member m array)) =
      d.peek ("get_" ++ m.name) array none fun r => memberOf r m := rfl
  rw [hpeek] at hslot ⊢
  cases hlive : d.live? array with
  | none => simp [peek, hlive] at hslot
  | some r =>
    simp only [peek, hlive] at hslot ⊢
    obtain ⟨⟨implicit, explicit⟩, hmembers, hmember⟩ := Option.map_eq_some_iff.mp hslot
    refine hs.tidy.tensors array r (live?_eq_some_iff.mp hlive).1 slot ?_
    cases m <;> simp [Resource.memberHandles, hmembers, ← hmember]

/-- A share that is given up is missing in the count. -/
theorem answer_of_disown (hs : H.Sound d) {k : Kind} {h : Handle}
    (hc : H.Permits (.disown k h)) :
    (H.after (.disown k h) ()).Sound (d.answer (.disown k h)).2 := by
  obtain ⟨hmem, hnull⟩ := hc.released _ rfl
  have hshareable : k.supportsSharing := hc.shareable k h rfl
  have hcounts := shared_of_releases (a := ()) hc rfl rfl hshareable
  have hkind : ∀ {x r}, d.find? x = some r →
      ∃ r', (d.modify h disowned).find? x = some r' ∧ r'.kind = r.kind := fun {x r} hr => by
    refine ⟨_, find?_modify_eq_some.mpr ⟨r, hr, rfl⟩, ?_⟩
    split <;> rfl
  rw [hs.disown_modifies hc]
  constructor
  · -- With one share less there may be one claim less, and never one more.
    refine (tidy_modify hs.tidy superficial_disowned h).mono fun x => ?_
    have := hcounts x
    unfold claims
    omega
  · intro x hx
    have hnow := (hcounts x).2
    have hold := hs.shares x (by omega)
    have hh : 0 < claims H.held h := by
      have := (hcounts h).2
      rw [List.count_singleton_self] at this
      unfold claims
      omega
    rw [shareCountOf_disowned (hs.alive_of_claims hh)]
    omega
  · intro x hx
    obtain ⟨ownership, hknows⟩ := known_after (a := ()) hc rfl rfl x hx
    refine (hs.kinds ⟨x.kind, ⟨x.container.handle, ownership⟩⟩ hknows).imp id ?_
    rintro ⟨r, hr, hk⟩
    obtain ⟨r', hr', hk'⟩ := hkind hr
    exact ⟨r', hr', hk'.trans hk⟩
  · intro s hstore
    obtain ⟨r, hr, hk⟩ := hs.store s hstore
    obtain ⟨r', hr', hk'⟩ := hkind hr
    exact ⟨r', hr', hk'.trans hk⟩
  · exact (misreleases_modify d h _).trans hs.clean

/-- A call that only asks lets see nothing that sound hands do not know. -/
theorem answer_of_isReading (hs : H.Sound d) (hc : c.isReading) :
    (H.after c (d.answer c).1).Sound (d.answer c).2 := by
  have hsame := hs.alike (alike_of_isReading hc d)
  rw [after_of_isReading H hc]
  cases hshows : c.shows? (d.answer c).1 with
  | none => exact hsame
  | some x =>
    have hview := Call.isOwner_of_shows? hshows
    refine hsame.cons (Holding.isOwned_eq_false hview) (Holding.isShare_eq_false hview) (.inr ?_)
    cases c with
    | member m array =>
      obtain ⟨slot, hslot, rfl⟩ := Option.map_eq_some_iff.mp hshows
      exact kind_of_member hs hslot
    | _ => cases hshows

/-- **A permitted call keeps hands sound.** -/
theorem answer (hs : H.Sound d) (hc : H.Permits c) :
    (H.after c (d.answer c).1).Sound (d.answer c).2 := by
  have hknown := fun hbrings hshows => known_after (a := (d.answer c).1) hc hbrings hshows
  cases c with
  | free k h =>
    have hreleases := hs.free_releases hc
    refine hs.of_keeps hreleases.keeps hreleases.tidy hreleases.clean (fun x => ?_)
      (fun x hx => .inr (hknown rfl rfl x hx)) (.inl rfl)
    exact Nat.le_of_eq (owned_of_releases (a := ()) hc rfl rfl x).2.symm
  | disown k h => exact hs.answer_of_disown hc
  | add store name item =>
    have hcount : ∀ x, owners (H.after (.add store name item) ()).held x ≤ owners H.held x ∧
        sharers (H.after (.add store name item) ()).held x = sharers H.held x := fun x => by
      cases item with
      | plain value => exact ⟨Nat.le_refl _, rfl⟩
      | container k child =>
        have hx := owned_of_releases (a := ()) hc rfl rfl x
        omega
    have hfewer := fun x => Nat.le_of_eq (hcount x).2
    cases halive : d.isAlive store with
    | false =>
      -- Nothing is added to a store that is not alive, and the hands claim no more than before.
      have halike := alike_of_add name item halive
      refine hs.of_keeps halike.keeps ((halike.tidy _ hs.tidy).mono fun x => ?_) halike.clean
        hfewer (fun x hx => .inr (hknown rfl rfl x hx)) (.inr rfl)
      have hx := hcount x
      simp only [claims, Depot.answer]
      omega
    | true =>
      have hreleases := hs.add_releases hc halive
      exact hs.of_keeps hreleases.keeps hreleases.tidy hreleases.clean hfewer
        (fun x hx => .inr (hknown rfl rfl x hx)) (.inr rfl)
  | read | dimensions | member => exact hs.answer_of_isReading rfl
  | _ => exact hs.answer_of_yield? hc rfl

end Sound

end Hands

end Custody
