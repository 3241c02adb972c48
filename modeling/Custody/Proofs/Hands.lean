import Mathlib.Data.List.Perm.Subperm
import Custody.Proofs.Grants

namespace Custody

/-!
# What is in the hands of the caller

A trace is followed by keeping book of the containers that the caller has to answer for: what an
answer grants is added, and what a call destroys, gives up or hands over is taken out.  Nothing
here trusts the host, so a handle can be in hand several times.

* `Call.releases?`, `Call.shows?` -- what a call takes out of the hands, and what it lets see;
* `Hands` -- the containers in hand, and the store that can be added to;
* `Hands.Permits`, `Hands.after` -- which calls can be made, and what is in hand after one;
* `Hands.count_afterAll` -- **nothing is lost and nothing is released twice**;
* `Hands.Covers` -- hands that account for others; permits and books are kept by it.
-/

/-! ### Holdings -/

namespace Holding

/-- As many of each holding are as many of all of them together. -/
theorem countP_le_of_count_le {p : Holding → Bool} {l l' : List Holding}
    (h : ∀ x, p x → l'.count x ≤ l.count x) : l'.countP p ≤ l.countP p := by
  have hsubperm : List.Subperm (l'.filter p) (l.filter p) := by
    rw [List.subperm_ext_iff]
    intro x hx
    have hpx : p x := List.of_mem_filter hx
    rw [List.count_filter hpx, List.count_filter hpx]
    exact h x hpx
  rw [List.countP_eq_length_filter, List.countP_eq_length_filter]
  exact hsubperm.length_le

/-- Holdings are the same if their kinds, handles and tags are. -/
theorem mk_eq_iff {k k' : Kind} {h h' : Handle} {o o' : Ownership} :
    (⟨k, ⟨h, o⟩⟩ : Holding) = ⟨k', ⟨h', o'⟩⟩ ↔ k = k' ∧ h = h' ∧ o = o' := by
  constructor
  · rintro ⟨⟩
    exact ⟨rfl, rfl, rfl⟩
  · rintro ⟨rfl, rfl, rfl⟩
    rfl

/-- The container for reading only. -/
def view (x : Holding) : Holding := ⟨x.kind, x.container.view⟩

/-- Whether somebody has to clean up after the container. -/
def isOwner (x : Holding) : Bool := x.container.isOwner

/-- The call that cleans up after the container, if there is one.  Data stores are never
    shared. -/
def release? (x : Holding) : Option Call :=
  if x.container.isNull then none
  else match x.container.ownership with
    | .hostManaged => none
    | .callerOwned => some (.free x.kind x.container.handle)
    | .sharedWithHost =>
      if x.kind.supportsSharing then some (.disown x.kind x.container.handle) else none

/-- Nobody cleans up after a view. -/
@[simp] theorem isOwner_view (x : Holding) : x.view.isOwner = false := by
  simp [isOwner, view, Container.view, Container.isOwner, Ownership.isOwner]

/-- Only after a container with an owner is there something to clean up. -/
theorem isOwner_of_release? {x : Holding} {c : Call} (h : x.release? = some c) : x.isOwner := by
  unfold release? at h
  unfold isOwner Container.isOwner
  split at h
  · cases h
  · next hnull => cases ho : x.container.ownership <;> simp_all [Ownership.isOwner]

/-- A container of the caller is destroyed, and a share is given up. -/
theorem release?_eq_some {x : Holding} {c : Call} (h : x.release? = some c) :
    (x.container.ownership = .callerOwned ∧ c = .free x.kind x.container.handle) ∨
      (x.container.ownership = .sharedWithHost ∧ c = .disown x.kind x.container.handle) := by
  unfold release? at h
  split at h
  · cases h
  · split at h
    · cases h
    · next howned => exact .inl ⟨howned, (Option.some.inj h).symm⟩
    · next hshared =>
      split at h
      · exact .inr ⟨hshared, (Option.some.inj h).symm⟩
      · cases h

end Holding

/-! ### Calls -/

namespace Call

/-- What a call takes out of the hands of the caller: a container that is destroyed or handed
    over to a store, or a share that is given up. -/
def releases? : Call → Option Holding
  | free k h | add _ _ (.container k h) => some ⟨k, ⟨h, .callerOwned⟩⟩
  | disown k h => some ⟨k, ⟨h, .sharedWithHost⟩⟩
  | _ => none

/-- The tensor inside an array that an answer lets see.  It stays with the host. -/
def shows? : (c : Call) → c.Answer → Option Holding
  | member _ _, slot => slot.map fun h => ⟨.tensor, ⟨h, .hostManaged⟩⟩
  | _, _ => none

/-- The container whose kind decides the kind of what the call makes. -/
def source? : Call → Option (Kind × Handle)
  | clone k h => some (k, h)
  | convertNumericArray h _ _ _ => some (.numericArray, h)
  | convertImage h _ _ => some (.image, h)
  | resetImplicit array _ => some (.sparseArray, array)
  | _ => none

/-- The store that the call adds to. -/
def addsTo? : Call → Option Handle
  | add store _ _ => some store
  | _ => none

/-- Whether the call destroys a container. -/
def isFree : Call → Bool
  | free .. => true
  | _ => false

/-- A container that is released was not the host's. -/
theorem isOwner_of_releases? {c : Call} {x : Holding} (h : c.releases? = some x)
    (hnull : x.container.handle ≠ .null) : x.isOwner := by
  have howner : ∀ {k : Kind} {h : Handle} {ownership : Ownership}, h ≠ .null →
      ownership.isOwner → (⟨k, ⟨h, ownership⟩⟩ : Holding).isOwner := fun hh ho => by
    simp [Holding.isOwner, Container.isOwner, Container.isNull, hh, ho]
  unfold releases? at h
  split at h
  · obtain rfl := Option.some.inj h
    exact howner hnull rfl
  · obtain rfl := Option.some.inj h
    exact howner hnull rfl
  · obtain rfl := Option.some.inj h
    exact howner hnull rfl
  · cases h

/-- Nobody cleans up after what an answer lets see. -/
theorem isOwner_of_shows? {c : Call} {a : c.Answer} {x : Holding} (h : c.shows? a = some x) :
    x.isOwner = false := by
  cases c with
  | member m array =>
    obtain ⟨slot, -, rfl⟩ := Option.map_eq_some_iff.mp h
    simp [Holding.isOwner, Container.isOwner, Ownership.isOwner]
  | _ => cases h

end Call

/-! ### Hands -/

/-- What the caller has to answer for, and the data store that can be added to. -/
structure Hands where
  held : List Holding
  store : Option Handle := none

namespace Hands

variable {H H' : Hands} {c : Call} {a : c.Answer} {x : Holding}

/-- Whether a container of this kind with this handle is in hand, under whatever tag. -/
def Knows (H : Hands) (k : Kind) (h : Handle) : Prop := ∃ ownership, ⟨k, ⟨h, ownership⟩⟩ ∈ H.held

/-- The call is made with what is in hand: it releases what can be released, and names a source
    or a store that is known. -/
structure Permits (H : Hands) (c : Call) : Prop where
  released : ∀ x, c.releases? = some x → x ∈ H.held ∧ x.container.handle ≠ .null
  source : ∀ k h, c.source? = some (k, h) → H.Knows k h ∧ h ≠ .null
  store : ∀ store, c.addsTo? = some store → H.store = some store
  shareable : ∀ k h, c = .disown k h → k.supportsSharing

/-- What is in hand once a call was answered.  What was released can still be seen, and while
    nothing was destroyed, the store is still there. -/
def after (H : Hands) (c : Call) (a : c.Answer) : Hands where
  held := (c.brings? a).toList ++ (c.shows? a).toList ++
    match c.releases? with
    | none => H.held
    | some x => x.view :: H.held.erase x
  store := if c.isFree then none else H.store

/-- The steps of a trace are made with what is in hand before each of them. -/
def PermitsAll : Hands → List Happening → Prop
  | _, [] => True
  | H, .called c a :: trace => H.Permits c ∧ (H.after c a).PermitsAll trace
  | H, .logged _ :: trace => H.PermitsAll trace

/-- What is in hand after a trace. -/
def afterAll : Hands → List Happening → Hands
  | H, [] => H
  | H, .called c a :: trace => (H.after c a).afterAll trace
  | H, .logged _ :: trace => H.afterAll trace

/-- The hands after two traces are those after one and then the other. -/
theorem afterAll_append (H : Hands) (trace trace' : List Happening) :
    H.afterAll (trace ++ trace') = (H.afterAll trace).afterAll trace' := by
  induction trace generalizing H with
  | nil => rfl
  | cons x trace ih => cases x <;> exact ih _

/-- Two traces are permitted if the second is with the hands that the first leaves. -/
theorem permitsAll_append (H : Hands) (trace trace' : List Happening) :
    H.PermitsAll (trace ++ trace') ↔
      H.PermitsAll trace ∧ (H.afterAll trace).PermitsAll trace' := by
  induction trace generalizing H with
  | nil => simp [PermitsAll, afterAll]
  | cons x trace ih =>
    cases x with
    | called c a =>
      simp only [List.cons_append, PermitsAll, afterAll, ih]
      exact and_assoc.symm
    | logged e => exact ih H

/-- What is known stays known, also after it was released. -/
theorem Knows.after {k : Kind} {h : Handle} (hk : H.Knows k h) : (H.after c a).Knows k h := by
  obtain ⟨ownership, hmem⟩ := hk
  unfold Knows Hands.after
  cases hreleases : c.releases? with
  | none => exact ⟨ownership, List.mem_append_right _ hmem⟩
  | some x =>
    by_cases hx : x = ⟨k, ⟨h, ownership⟩⟩
    · subst hx
      exact ⟨.hostManaged, List.mem_append_right _ List.mem_cons_self⟩
    · refine ⟨ownership, List.mem_append_right _ (List.mem_cons_of_mem _ ?_)⟩
      exact (List.mem_erase_of_ne (Ne.symm hx)).mpr hmem

/-! ### The books -/

/-- The containers that the answers of a trace grant. -/
def received : List Happening → List Holding
  | [] => []
  | .called c a :: trace => (c.brings? a).toList ++ received trace
  | .logged _ :: trace => received trace

/-- The containers that the calls of a trace release. -/
def released (trace : List Happening) : List Holding :=
  (Happening.calls trace).filterMap Call.releases?

/-- A trace releases what its first call does, and then the rest. -/
@[simp] theorem released_called (c : Call) (a : c.Answer) (trace : List Happening) :
    released (.called c a :: trace) = c.releases?.toList ++ released trace := by
  cases hc : c.releases? <;> simp [released, hc]

variable {p : Holding → Bool}

/-- What an answer lets see counts for nothing that only owners count for. -/
theorem countP_shows? (hp : ∀ y, y.isOwner = false → p y = false) :
    (c.shows? a).toList.countP p = 0 := by
  refine List.countP_eq_zero.mpr fun y hy => ?_
  simp [hp y (Call.isOwner_of_shows? (a := a) (by simpa using hy))]

/-- What a call adds to the books and takes out of them, whatever containers with an owner are
    counted. -/
theorem countP_after (hc : H.Permits c) (hp : ∀ y, y.isOwner = false → p y = false) :
    H.held.countP p + (c.brings? a).toList.countP p =
      c.releases?.toList.countP p + (H.after c a).held.countP p := by
  unfold after
  simp only [List.countP_append, countP_shows? hp]
  cases hreleases : c.releases? with
  | none =>
    simp only [Option.toList_none, List.countP_nil]
    omega
  | some y =>
    -- What is released stays in hand as a view, which is not counted.
    have hperm := (List.perm_cons_erase (hc.released y hreleases).1).countP_eq p
    simp only [List.countP_cons, hp _ (Holding.isOwner_view y), Option.toList_some,
      List.countP_nil, Bool.false_eq_true, ↓reduceIte] at hperm ⊢
    omega

/-- **One call balances**: what was in hand or came is what was released or is in hand. -/
theorem count_after (hc : H.Permits c) (hx : x.isOwner) :
    H.held.count x + (c.brings? a).toList.count x =
      c.releases?.toList.count x + (H.after c a).held.count x := by
  refine countP_after hc fun y hy => ?_
  simpa using fun h : y = x => by simp [← h, hy] at hx

/-- **Nothing is lost and nothing is released twice**: whatever the host answers, what was in
    hand and what was granted is what was released and what is in hand now. -/
theorem count_afterAll {trace : List Happening} (htrace : H.PermitsAll trace)
    (hx : x.isOwner) :
    H.held.count x + (received trace).count x =
      (released trace).count x + (H.afterAll trace).held.count x := by
  induction trace generalizing H with
  | nil => simp [received, released, afterAll]
  | cons step trace ih =>
    cases step with
    | called c a =>
      have hstep := count_after (a := a) htrace.1 hx
      have hrest := ih htrace.2
      simp only [received, released_called, afterAll, List.count_append]
      omega
    | logged e => exact ih htrace

/-! ### Sorts of calls -/

/-- A call that only asks can be made with any hands. -/
theorem permits_of_isReading (H : Hands) (hc : c.isReading) : H.Permits c := by
  constructor <;> (intros; cases c <;> contradiction)

/-- A call that makes a container can be made if its source is known. -/
theorem permits_of_yield? (hc : c.yield?.isSome)
    (hsource : ∀ k h, c.source? = some (k, h) → H.Knows k h ∧ h ≠ .null) : H.Permits c := by
  refine ⟨?_, hsource, ?_, ?_⟩ <;> (intros; cases c <;> contradiction)

/-- An owned container may be freed. -/
theorem permits_free {k : Kind} {h : Handle} (hmem : ⟨k, ⟨h, .callerOwned⟩⟩ ∈ H.held)
    (hnull : h ≠ .null) : H.Permits (.free k h) where
  released x hx := by
    obtain rfl := Option.some.inj hx
    exact ⟨hmem, hnull⟩
  source _ _ h := by cases h
  store _ h := by cases h
  shareable _ _ h := by cases h

/-- A share may be given up. -/
theorem permits_disown {k : Kind} {h : Handle} (hmem : ⟨k, ⟨h, .sharedWithHost⟩⟩ ∈ H.held)
    (hnull : h ≠ .null) (hk : k.supportsSharing) : H.Permits (.disown k h) where
  released x hx := by
    obtain rfl := Option.some.inj hx
    exact ⟨hmem, hnull⟩
  source _ _ h := by cases h
  store _ h := by cases h
  shareable k' h' heq := by
    obtain ⟨rfl, rfl⟩ : k = k' ∧ h = h' := by simpa using heq
    exact hk

/-- A value can be added to the store, a container if it belongs to the caller. -/
theorem permits_add {store : Handle} {name : Option String} {item : Item}
    (hstore : H.store = some store)
    (hitem : ∀ k h, item = .container k h → ⟨k, ⟨h, .callerOwned⟩⟩ ∈ H.held ∧ h ≠ .null) :
    H.Permits (.add store name item) where
  released x hx := by
    cases item with
    | plain value => cases hx
    | container k h =>
      obtain rfl := Option.some.inj hx
      exact hitem k h rfl
  source _ _ h := by cases h
  store s hs := by
    obtain rfl : store = s := Option.some.inj hs
    exact hstore
  shareable _ _ h := by cases h

/-- A reading adds to the hands what it lets see. -/
theorem after_of_isReading (H : Hands) (hc : c.isReading) (a : c.Answer) :
    H.after c a = ⟨(c.shows? a).toList ++ H.held, H.store⟩ := by
  cases c <;> first | rfl | cases hc

/-- A call that may deliver a container adds it to the hands if it does. -/
theorem after_of_yield? (H : Hands) (hc : c.yield?.isSome) (a : c.Answer) :
    H.after c a = ⟨(c.brings? a).toList ++ H.held, H.store⟩ := by
  cases c <;> first | (simp [after, Call.shows?, Call.releases?, Call.isFree]; done) | cases hc

/-! ### Hands that account for others -/

/-- The hands `H` account for `H'`: at most what has an owner in `H` has one in `H'`, and exactly
    that where the host can clean up after it; the kinds of the containers are known. -/
structure Covers (ctx : Context) (H H' : Hands) : Prop where
  count_le : ∀ x, x.isOwner → H'.held.count x ≤ H.held.count x
  count_eq : ∀ x c, x.release? = some c → ctx.provides c.entry →
    H'.held.count x = H.held.count x
  known : ∀ x ∈ H'.held, x.container.isNull ∨ H.Knows x.kind x.container.handle
  store : H'.store = none ∨ H'.store = H.store

namespace Covers

variable {ctx : Context} {H'' : Hands}

/-- Hands know what those do that they account for. -/
theorem knows (h : Covers ctx H H') {k : Kind} {handle : Handle} (hk : H'.Knows k handle)
    (hnull : handle ≠ .null) : H.Knows k handle := by
  obtain ⟨ownership, hmem⟩ := hk
  exact (h.known _ hmem).resolve_left (by simpa [Container.isNull] using hnull)

/-- Hands that account for hands that account for third ones account for those. -/
theorem trans (h : Covers ctx H H') (h' : Covers ctx H' H'') : Covers ctx H H'' where
  count_le x hx := Nat.le_trans (h'.count_le x hx) (h.count_le x hx)
  count_eq x c hc hctx := (h'.count_eq x c hc hctx).trans (h.count_eq x c hc hctx)
  known x hx := by
    by_cases hnull : x.container.isNull
    · exact .inl hnull
    · have hk := (h'.known x hx).resolve_left hnull
      exact .inr (h.knows hk (by simpa [Container.isNull] using hnull))
  store := by
    rcases h'.store with hnone | heq
    · exact .inl hnone
    · rw [heq]
      exact h.store

/-- Hands with the same owners account for each other. -/
theorem of_count (hcount : ∀ x, x.isOwner → H'.held.count x = H.held.count x)
    (hknown : ∀ x ∈ H'.held, x.container.isNull ∨ H.Knows x.kind x.container.handle)
    (hstore : H'.store = none ∨ H'.store = H.store) : Covers ctx H H' where
  count_le x hx := Nat.le_of_eq (hcount x hx)
  count_eq x _ hx _ := hcount x (Holding.isOwner_of_release? hx)
  known := hknown
  store := hstore

/-- Hands account for those with the same containers, and without the store. -/
theorem of_perm (hperm : H'.held.Perm H.held) (hstore : H'.store = none ∨ H'.store = H.store) :
    Covers ctx H H' where
  count_le x _ := Nat.le_of_eq (hperm.count_eq x)
  count_eq x _ _ _ := hperm.count_eq x
  known x hx := .inr ⟨x.container.ownership, hperm.mem_iff.mp hx⟩
  store := hstore

/-- A container without an owner need not stay in hand. -/
theorem of_cons (hx : x.isOwner = false) (held : List Holding) (store : Option Handle) :
    Covers ctx ⟨x :: held, store⟩ ⟨held, store⟩ where
  count_le y _ := List.count_le_count_cons
  count_eq y c hc _ := by
    have hne : x ≠ y := fun h => by simp [h, Holding.isOwner_of_release? hc] at hx
    simp [List.count_cons_of_ne hne]
  known y hy := .inr ⟨y.container.ownership, List.mem_cons_of_mem _ hy⟩
  store := .inr rfl

/-- A container without an owner can be in hand at any time, if its kind is known. -/
theorem cons (hx : x.isOwner = false)
    (hknown : x.container.isNull ∨ H.Knows x.kind x.container.handle) :
    Covers ctx H ⟨x :: H.held, H.store⟩ := by
  refine of_count (fun y hy => ?_) (List.forall_mem_cons.mpr ⟨hknown, fun y hy => ?_⟩) (.inr rfl)
  · exact List.count_cons_of_ne fun h => by simp [h, hy] at hx
  · exact .inr ⟨y.container.ownership, hy⟩

/-- A container that the host cannot clean up after need not stay in hand. -/
theorem erase (hx : ∀ c, x.release? = some c → ctx.provides c.entry = false)
    {store : Option Handle} (hstore : store = none ∨ store = H.store) :
    Covers ctx H ⟨H.held.erase x, store⟩ where
  count_le y _ := List.erase_sublist.count_le y
  count_eq y c hc hctx := by
    refine List.count_erase_of_ne fun h => ?_
    subst h
    simp [hx c hc] at hctx
  known y hy := .inr ⟨y.container.ownership, List.mem_of_mem_erase hy⟩
  store := hstore

/-- Hands account for themselves. -/
theorem refl (H : Hands) : Covers ctx H H := of_perm (.refl _) (.inr rfl)

/-- Hands account for those in which the store is forgotten. -/
theorem forget (H : Hands) : Covers ctx H ⟨H.held, none⟩ := of_perm (.refl _) (.inl rfl)

/-- What is permitted with hands that are accounted for is permitted. -/
theorem permits (h : Covers ctx H H') (hc : H'.Permits c) : H.Permits c where
  released x hx := by
    obtain ⟨hmem, hnull⟩ := hc.released x hx
    have hle := h.count_le x (Call.isOwner_of_releases? hx hnull)
    exact ⟨List.count_pos_iff.mp (Nat.lt_of_lt_of_le (List.count_pos_iff.mpr hmem) hle), hnull⟩
  source k handle hsource := by
    obtain ⟨hk, hnull⟩ := hc.source k handle hsource
    exact ⟨h.knows hk hnull, hnull⟩
  store store hstore := by
    have heq := hc.store store hstore
    rcases h.store with hnone | hsame
    · rw [hnone] at heq
      cases heq
    · rw [← hsame, heq]
  shareable := hc.shareable

/-- A permitted call leaves the hands accounted for. -/
theorem after (h : Covers ctx H H') (hc : H'.Permits c) (a : c.Answer) :
    Covers ctx (H.after c a) (H'.after c a) where
  count_le x hx := by
    have hsmall := count_after (a := a) hc hx
    have hlarge := count_after (a := a) (h.permits hc) hx
    have hle := h.count_le x hx
    omega
  count_eq x c' hc' hctx := by
    have hx := Holding.isOwner_of_release? hc'
    have hsmall := count_after (a := a) hc hx
    have hlarge := count_after (a := a) (h.permits hc) hx
    have heq := h.count_eq x c' hc' hctx
    omega
  known x hx := by
    rcases List.mem_append.mp hx with hgained | hkept
    · exact .inr ⟨x.container.ownership, List.mem_append_left _ hgained⟩
    · -- What was known before the call is known after it, if only as a view.
      have hknown : ∀ y ∈ H'.held, y.container.isNull ∨
          (H.after c a).Knows y.kind y.container.handle :=
        fun y hy => (h.known y hy).imp id Knows.after
      cases hreleases : c.releases? with
      | none =>
        rw [hreleases] at hkept
        exact hknown x hkept
      | some y =>
        rw [hreleases] at hkept
        rcases List.mem_cons.mp hkept with rfl | hkept
        · exact hknown y (hc.released y hreleases).1
        · exact hknown x (List.mem_of_mem_erase hkept)
  store := by
    show (if c.isFree then none else H'.store) = none ∨
      (if c.isFree then none else H'.store) = if c.isFree then none else H.store
    split
    · exact .inl rfl
    · exact h.store

/-- At most as many containers of any sort that have owners are in hand. -/
theorem countP_le (h : Covers ctx H H') (hp : ∀ y, p y → y.isOwner) :
    H'.held.countP p ≤ H.held.countP p :=
  Holding.countP_le_of_count_le fun x hx => h.count_le x (hp x hx)

/-- What the smaller hands permit the larger ones permit, and they account for them afterwards. -/
theorem permitsAll {trace : List Happening} (h : Covers ctx H H')
    (htrace : H'.PermitsAll trace) :
    H.PermitsAll trace ∧ Covers ctx (H.afterAll trace) (H'.afterAll trace) := by
  induction trace generalizing H H' with
  | nil => exact ⟨trivial, h⟩
  | cons step trace ih =>
    cases step with
    | called c a =>
      obtain ⟨hrest, hcovers⟩ := ih (h.after htrace.1 a) htrace.2
      exact ⟨⟨h.permits htrace.1, hrest⟩, hcovers⟩
    | logged e => exact ih h htrace

/-- What was seen by reading need not stay in hand. -/
theorem after_of_isReading (H : Hands) (hc : c.isReading) (a : c.Answer) :
    Covers ctx (H.after c a) H := by
  rw [Hands.after_of_isReading H hc a]
  cases hshows : c.shows? a with
  | none => exact refl H
  | some x => exact of_cons (Call.isOwner_of_shows? hshows) _ _

end Covers

end Hands

end Custody
