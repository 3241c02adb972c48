import Custody.Proofs.Depot.Runs
import Custody.Proofs.Depot.Uniformity
import Custody.Proofs.Sessions

namespace Custody

open Hands Depot

/-!
# Hands with something set aside

A caller that counts no shares can still tell who owns what.  With the depot answering as it
does by itself, owned containers stay apart from each other and from all that is held by stores
and arrays, and so do containers that are set aside and not used.

* `Depot.Admits`, `Operation.Candid` -- what is wrapped is there, and nobody else owns it;
* `Hands.Firm` -- the invariant, with the handles that are set aside;
* `Hands.Firm.answer` -- **a permitted call keeps hands firm**, whatever it is;
* `Hands.Firm.hands` -- a candid operation begins with firm hands;
* `Hands.Firm.walks` -- the same for a trace, with what each of its calls preserves;
* `Session.Firm` -- the same for sessions; `Session.Firm.step`, `Session.Firm.run`.
-/

/-- A container can be taken into hand next to others: it is alive and of its kind, and if it is
    to be owned, nobody else owns or holds it. -/
structure Depot.Admits (d : Depot) (others : List Holding) (x : Holding) : Prop where
  live : ∃ r, d.live? x.container.handle = some r ∧ r.kind = x.kind
  owned : x.container.ownership = .callerOwned →
    (∀ h, ¬ d.Contains h x.container.handle) ∧
      ∀ y ∈ others, y.container.handle = x.container.handle →
        y.container.ownership ≠ .callerOwned

/-- What the operation wraps or resets to is admitted.  The null handle is always right. -/
def Operation.Candid (d : Depot) (w : Workspace) (op : Operation) : Prop :=
  op.isWrapping → ∀ x, (op.deal w).taken = some x → x.container.isNull = false →
    d.Admits ((op.deal w).rest w.held) x

/-- The operation neither wraps the handle nor resets a container to it. -/
def Operation.Avoids (h : Handle) (w : Workspace) (op : Operation) : Prop :=
  op.isWrapping → ∀ x, (op.deal w).taken = some x → x.container.handle ≠ h

variable {aside : List Handle} {H H' : Hands} {d d' : Depot} {w : Workspace} {c : Call}
  {ctx : Context} {x : Holding}

/-- A container more is owned once more, at most. -/
theorem owners_cons_le (x : Holding) (held : List Holding) (h : Handle) :
    owners (x :: held) h ≤ owners held h + [x.container.handle].count h := by
  rw [owners_cons, owners_singleton, List.count_singleton]
  by_cases hx : x.container.handle = h
  · simp only [hx, beq_self_eq_true, ↓reduceIte]
    split <;> omega
  · simp [hx]

/-! ### The invariant -/

namespace Hands

/-- The depot agrees with what is in hand and what is set aside: it is owned or held once, the
    kinds are right, arrays match their implicit values, and what is set aside is not in hand. -/
structure Firm (aside : List Handle) (H : Hands) (d : Depot) : Prop where
  tidy : d.Tidy fun x => owners H.held x + aside.count x
  kinds : ∀ x ∈ H.held, x.container.isNull ∨
    ∃ r, d.find? x.container.handle = some r ∧ r.kind = x.kind
  store : ∀ s, H.store = some s → ∃ r, d.find? s = some r ∧ r.kind = .dataStore
  uniform : d.Uniform
  apart : ∀ h ∈ aside, ∀ x ∈ H.held, x.container.handle ≠ h
  closed : ∀ h ∈ aside, H.store ≠ some h

namespace Firm

/-- What is set aside is alive. -/
theorem isAlive_of_mem (hs : H.Firm aside d) {h : Handle} (hh : h ∈ aside) : d.isAlive h :=
  hs.tidy.alive h (by
    have := List.count_pos_iff.mpr hh
    omega)

/-- What is set aside is held by nothing. -/
theorem not_contains (hs : H.Firm aside d) {h : Handle} (hh : h ∈ aside) (y : Handle) :
    ¬ d.Contains y h := by
  have hunique := hs.tidy.unique h
  have hcount := List.count_pos_iff.mpr hh
  refine grip_eq_zero_iff.mp ?_ y
  omega

/-- What is owned is alive. -/
theorem isAlive_of_owned (hs : H.Firm aside d) (hx : x ∈ H.held) (howned : x.isOwned) :
    d.isAlive x.container.handle :=
  hs.tidy.alive _ (by
    have := owners_pos hx howned
    omega)

/-- What is known under a handle is found there, and is of that kind. -/
theorem find?_of_knows (hs : H.Firm aside d) {k : Kind} {h : Handle} (hk : H.Knows k h)
    (hnull : h ≠ .null) : ∃ r, d.find? h = some r ∧ r.kind = k := by
  obtain ⟨ownership, hmem⟩ := hk
  exact (hs.kinds _ hmem).resolve_left (by simpa [Container.isNull] using hnull)

/-- What is known is not what is set aside. -/
theorem ne_of_knows (hs : H.Firm aside d) {k : Kind} {h : Handle} (hk : H.Knows k h) {y : Handle}
    (hy : y ∈ aside) : h ≠ y := by
  obtain ⟨ownership, hmem⟩ := hk
  exact hs.apart y hy _ hmem

/-- The source of a permitted call is of the kind that the call says. -/
theorem source (hs : H.Firm aside d) (hc : H.Permits c) (k : Kind) (h : Handle) (r : Resource)
    (hsource : c.source? = some (k, h)) (hfound : d.find? h = some r) : r.kind = k := by
  obtain ⟨hknows, hnull⟩ := hc.source k h hsource
  obtain ⟨r', hr', hkind⟩ := hs.find?_of_knows hknows hnull
  obtain rfl : r = r' := Option.some.inj (hfound.symm.trans hr')
  exact hkind

/-- Hands stay firm while nothing comes into hand and every resource keeps its kind. -/
theorem of_tidy (hs : H.Firm aside d)
    (hkinds : ∀ x r, d.find? x = some r → ∃ r', d'.find? x = some r' ∧ r'.kind = r.kind)
    (htidy : d'.Tidy fun x => owners H'.held x + aside.count x) (huniform : d'.Uniform)
    (hknown : ∀ x ∈ H'.held, x.container.isNull ∨ H.Knows x.kind x.container.handle)
    (hstore : H'.store = none ∨ H'.store = H.store) : H'.Firm aside d' where
  tidy := htidy
  kinds x hx := by
    rcases hknown x hx with hnull | ⟨ownership, hmem⟩
    · exact .inl hnull
    · refine (hs.kinds ⟨x.kind, ⟨x.container.handle, ownership⟩⟩ hmem).imp id ?_
      rintro ⟨r, hr, hkind⟩
      obtain ⟨r', hr', hkind'⟩ := hkinds _ r hr
      exact ⟨r', hr', hkind'.trans hkind⟩
  store s hs' := by
    rcases hstore with hnone | hsame
    · rw [hnone] at hs'
      cases hs'
    · obtain ⟨r, hr, hkind⟩ := hs.store s (hsame ▸ hs')
      obtain ⟨r', hr', hkind'⟩ := hkinds _ r hr
      exact ⟨r', hr', hkind'.trans hkind⟩
  uniform := huniform
  apart h hh x hx := by
    rcases hknown x hx with hnull | hknows
    · rintro rfl
      -- What is set aside is alive, and nothing is alive under the null handle.
      obtain ⟨r, hr, -⟩ := isAlive_iff.mp (hs.isAlive_of_mem hh)
      exact ne_null_of_find? hr (by simpa [Container.isNull] using hnull)
    · exact hs.ne_of_knows hknows hh
  closed h hh hstore' := by
    rcases hstore with hnone | hsame
    · simp [hnone] at hstore'
    · exact hs.closed h hh (hsame ▸ hstore')

/-- Hands that are accounted for are firm. -/
theorem covers (hs : H.Firm aside d) (h : Covers ctx H H') : H'.Firm aside d :=
  hs.of_tidy (fun _ r hr => ⟨r, hr, rfl⟩)
    (hs.tidy.mono fun x => Nat.add_le_add_right (owners_le h x) _) hs.uniform h.known h.store

/-- Hands stay firm where nothing has changed for those who claim or hold something. -/
theorem alike (hs : H.Firm aside d) (h : d.Alike d') (huniform : d'.Uniform) : H.Firm aside d' :=
  hs.of_tidy (fun y r hr => (h.keeps y r hr).imp fun _ hr' => ⟨hr'.1, hr'.2.1⟩)
    (h.tidy _ hs.tidy) huniform (fun x hx => .inr ⟨x.container.ownership, hx⟩) (.inr rfl)

/-- What is made for nobody in hand leaves hands firm. -/
theorem of_makes (hs : H.Firm aside d) {k : Kind} {made : Handle × Depot}
    (hmakes : Makes (fun x => owners H.held x + aside.count x) k d made)
    (huniform : made.2.Uniform) : H.Firm aside made.2 :=
  hs.of_tidy (fun y r hr => (hmakes.keeps y r hr).imp fun _ hr' => ⟨hr'.1, hr'.2.1⟩)
    (hmakes.tidy.mono fun _ => Nat.le_add_right _ _) huniform
    (fun x hx => .inr ⟨x.container.ownership, hx⟩) (.inr rfl)

/-- A container of a known kind that is not set aside can be in hand, if there is room for its
    owner. -/
theorem cons (hs : H.Firm aside d)
    (htidy : d.Tidy fun y => owners (x :: H.held) y + aside.count y)
    (hkind : x.container.isNull ∨ ∃ r, d.find? x.container.handle = some r ∧ r.kind = x.kind)
    (hapart : ∀ h ∈ aside, x.container.handle ≠ h) : Firm aside ⟨x :: H.held, H.store⟩ d where
  tidy := htidy
  kinds := List.forall_mem_cons.mpr ⟨hkind, hs.kinds⟩
  store := hs.store
  uniform := hs.uniform
  apart h hh := List.forall_mem_cons.mpr ⟨hapart h hh, hs.apart h hh⟩
  closed := hs.closed

/-- A container that nobody owns needs no room. -/
theorem cons_of_not_isOwned (hs : H.Firm aside d) (howned : x.isOwned = false)
    (hkind : x.container.isNull ∨ ∃ r, d.find? x.container.handle = some r ∧ r.kind = x.kind)
    (hapart : ∀ h ∈ aside, x.container.handle ≠ h) : Firm aside ⟨x :: H.held, H.store⟩ d := by
  have howners : owners (x :: H.held) = owners H.held := by
    funext y
    rw [owners_cons, owners_singleton, if_neg (by simp [howned]), Nat.zero_add]
  exact hs.cons (howners ▸ hs.tidy) hkind hapart

/-- A container need not stay in hand. -/
theorem erase (hs : H.Firm aside d) (x : Holding) : Firm aside ⟨H.held.erase x, H.store⟩ d := by
  have hfewer : ∀ y, owners (H.held.erase x) y ≤ owners H.held y :=
    fun y => List.erase_sublist.countP_le
  exact hs.of_tidy (fun _ r hr => ⟨r, hr, rfl⟩)
    (hs.tidy.mono fun y => Nat.add_le_add_right (hfewer y) _) hs.uniform
    (fun y hy => .inr ⟨y.container.ownership, List.mem_of_mem_erase hy⟩) (.inr rfl)

/-- What the depot admits can be taken into hand. -/
theorem admitted (hs : H.Firm aside d) (hx : d.Admits H.held x)
    (hapart : ∀ h ∈ aside, x.container.handle ≠ h) : Firm aside ⟨x :: H.held, H.store⟩ d := by
  obtain ⟨r, hlive, hkind⟩ := hx.live
  have hfound : ∃ r, d.find? x.container.handle = some r ∧ r.kind = x.kind :=
    ⟨r, (live?_eq_some_iff.mp hlive).1, hkind⟩
  by_cases howner : x.container.ownership = .callerOwned
  · obtain ⟨hfree, hothers⟩ := hx.owned howner
    have hgrip := grip_eq_zero_iff.mpr hfree
    have howners : owners H.held x.container.handle = 0 := owners_eq_zero hothers
    have haside : aside.count x.container.handle = 0 :=
      List.count_eq_zero.mpr fun hmem => hapart _ hmem rfl
    -- Nothing changes for other handles, and this one is owned by nobody yet.
    refine hs.cons ⟨hs.tidy.toWellFormed, fun y => ?_, fun y hy => ?_⟩ (.inr hfound) hapart
    · have hold := hs.tidy.unique y
      have hnew := owners_cons_le x H.held y
      by_cases hyx : x.container.handle = y
      · subst hyx
        rw [List.count_singleton_self] at hnew
        omega
      · rw [List.count_eq_zero.mpr (by simpa using Ne.symm hyx)] at hnew
        omega
    · by_cases hyx : x.container.handle = y
      · exact hyx ▸ isAlive_of_live? hlive
      · have hnew := owners_cons_le x H.held y
        rw [List.count_eq_zero.mpr (by simpa using Ne.symm hyx)] at hnew
        exact hs.tidy.alive y (by omega)
  · exact hs.cons_of_not_isOwned (by simp [Holding.isOwned, howner]) (.inr hfound) hapart

/-! ### Calls, sort by sort -/

/-- A call that makes a container leaves it in firm hands. -/
theorem answer_of_yield? (hs : H.Firm aside d) (hc : H.Permits c) (hyield : c.yield?.isSome) :
    (H.after c (d.answer c).1).Firm aside (d.answer c).2 := by
  have huniform := answer_uniform hs.tidy hs.uniform (hs.source hc)
  obtain ⟨k, hk⟩ := Option.isSome_iff_exists.mp hyield
  rw [after_of_yield? H hyield]
  rcases answer_yields hs.tidy hk (hs.source hc) with ⟨hbrings, halike⟩ | ⟨h, hbrings, hmakes⟩
  · rw [hbrings]
    exact hs.alike halike huniform
  · rw [hbrings]
    have hbefore : H.Firm aside (d.answer c).2 := hs.of_makes hmakes huniform
    refine hbefore.cons (x := ⟨k, .fresh h⟩) (hmakes.tidy.mono fun y => ?_) (.inr hmakes.kind) ?_
    · have hnew : owners (⟨k, .fresh h⟩ :: H.held) y ≤ owners H.held y + [h].count y :=
        owners_cons_le ⟨k, .fresh h⟩ H.held y
      show _ ≤ owners H.held y + aside.count y + [h].count y
      omega
    · -- What is set aside was there before.
      rintro y hy rfl
      obtain ⟨r, hr, -⟩ := isAlive_iff.mp (hs.isAlive_of_mem hy)
      have hfresh : d.find? h = none := hmakes.fresh
      simp [Container.fresh, hfresh] at hr

/-- What is seen inside an array is a tensor, and held by the array. -/
theorem seen_in_array (hs : H.Firm aside d) {m : Member} {array slot : Handle}
    (hslot : (d.answer (.member m array)).1 = some slot) :
    d.Contains array slot ∧ ∃ r, d.find? slot = some r ∧ r.kind = .tensor := by
  have hpeek : (d.answer (.member m array)) =
      d.peek ("get_" ++ m.name) array none fun r => memberOf r m := rfl
  rw [hpeek] at hslot
  cases hlive : d.live? array with
  | none => simp [peek, hlive] at hslot
  | some r =>
    obtain ⟨hr, halive⟩ := live?_eq_some_iff.mp hlive
    simp only [peek, hlive] at hslot
    obtain ⟨⟨implicit, explicit⟩, hmembers, hmember⟩ := Option.map_eq_some_iff.mp hslot
    have hmem : slot ∈ r.memberHandles := by
      cases m <;> simp [Resource.memberHandles, hmembers, ← hmember]
    exact ⟨⟨r, hr, by simp [Resource.contents, halive, hmem]⟩, hs.tidy.tensors array r hr slot hmem⟩

/-- A call that only asks lets see nothing that is set aside. -/
theorem answer_of_isReading (hs : H.Firm aside d) (hc : H.Permits c) (hreading : c.isReading) :
    (H.after c (d.answer c).1).Firm aside (d.answer c).2 := by
  have hsame := hs.alike (alike_of_isReading hreading d)
    (answer_uniform hs.tidy hs.uniform (hs.source hc))
  rw [after_of_isReading H hreading]
  cases hshows : c.shows? (d.answer c).1 with
  | none => exact hsame
  | some x =>
    have hview := Call.isOwner_of_shows? hshows
    cases c with
    | member m array =>
      obtain ⟨slot, hslot, rfl⟩ := Option.map_eq_some_iff.mp hshows
      obtain ⟨hcontains, r, hr, hkind⟩ := hs.seen_in_array hslot
      refine hsame.cons_of_not_isOwned (Holding.isOwned_eq_false hview) (.inr ?_) ?_
      · obtain ⟨r', hr', hkind', -⟩ := (alike_of_isReading hreading d).keeps slot r hr
        exact ⟨r', hr', hkind'.trans hkind⟩
      · rintro y hy rfl
        exact hs.not_contains hy array hcontains
    | _ => cases hshows

/-- After a container is released it is owned no more. -/
theorem free_tidy (hs : H.Firm aside d) {k : Kind} {h : Handle} (hc : H.Permits (.free k h)) :
    (d.answer (.free k h)).2.Tidy fun x =>
      owners (H.after (.free k h) ()).held x + aside.count x := by
  refine (retire_releases (hs.tidy.mono fun x => ?_) _).tidy
  have hx := owned_of_releases (a := ()) hc rfl rfl x
  omega

/-- Giving up a share changes nothing of what is owned, so the depot stays tidy. -/
theorem disown_tidy (hs : H.Firm aside d) {k : Kind} {h : Handle} (hc : H.Permits (.disown k h)) :
    (d.answer (.disown k h)).2.Tidy fun x =>
      owners (H.after (.disown k h) ()).held x + aside.count x := by
  have hd : (d.disown h).Tidy fun x => owners H.held x + aside.count x := by
    unfold disown
    split
    · exact hs.tidy.of_resources_eq (d.use_resources _ h)
    · split
      · exact tidy_modify hs.tidy superficial_disowned h
      · exact hs.tidy.of_resources_eq rfl
  refine hd.mono fun x => ?_
  have hx := owners_of_releases (a := ()) hc rfl rfl x
  omega

/-- What is put into a store is owned no more, but held. -/
theorem add_tidy (hs : H.Firm aside d) {store : Handle} {name : Option String} {item : Item}
    (hc : H.Permits (.add store name item)) :
    (d.answer (.add store name item)).2.Tidy fun x =>
      owners (H.after (.add store name item) ()).held x + aside.count x := by
  have howners : ∀ x, owners H.held x =
      owners (H.after (.add store name item) ()).held x + item.children.count x := fun x => by
    cases item with
    | plain value => rfl
    | container k child => exact (owned_of_releases (a := ()) hc rfl rfl x).1
  -- The addition was carried out, or the depot is as it was; the child is given up in any case.
  rcases answer_add_done d store name item with hsame | ⟨⟨r, hlive⟩, hdone⟩
  · refine (hs.tidy.of_resources_eq hsame).mono fun x => ?_
    have := howners x
    omega
  · have hkind : r.kind = .dataStore := by
      obtain ⟨r', hr', hkind⟩ := hs.store store (hc.store store rfl)
      obtain rfl : r = r' := Option.some.inj ((live?_eq_some_iff.mp hlive).1.symm.trans hr')
      exact hkind
    rw [hdone, ← postTo_eq hlive]
    refine (postTo_releases (hs.tidy.mono fun x => ?_) hlive hkind _).tidy
    have := howners x
    omega

/-- **A permitted call keeps hands firm.** -/
theorem answer (hs : H.Firm aside d) (hc : H.Permits c) :
    (H.after c (d.answer c).1).Firm aside (d.answer c).2 := by
  have hkinds : ∀ x r, d.find? x = some r →
      ∃ r', (d.answer c).2.find? x = some r' ∧ r'.kind = r.kind := fun x r hr => by
    obtain ⟨r', hr', hchange⟩ := answer_changes hs.tidy.toWellFormed c hr
    exact ⟨r', hr', hchange.kind⟩
  have huniform := answer_uniform hs.tidy hs.uniform (hs.source hc)
  have hknown := fun hbrings hshows => known_after (a := (d.answer c).1) hc hbrings hshows
  -- Only cleanups and additions take out of the hands; any other call adds to them at most.
  cases c with
  | free k h =>
    exact hs.of_tidy hkinds (hs.free_tidy hc) huniform (fun x hx => .inr (hknown rfl rfl x hx))
      (.inl rfl)
  | disown k h =>
    exact hs.of_tidy hkinds (hs.disown_tidy hc) huniform (fun x hx => .inr (hknown rfl rfl x hx))
      (.inr rfl)
  | add store name item =>
    exact hs.of_tidy hkinds (hs.add_tidy hc) huniform (fun x hx => .inr (hknown rfl rfl x hx))
      (.inr rfl)
  | read | dimensions | member => exact hs.answer_of_isReading hc rfl
  | _ => exact hs.answer_of_yield? hc rfl

/-! ### Operations -/

/-- What is in hand after a candid deal that avoids what is set aside is firm. -/
theorem deal (hs : Firm aside ⟨w.held, none⟩ d) (hw : w.Ordered) {op : Operation}
    (hop : op.Candid d w) (havoids : ∀ h ∈ aside, op.Avoids h w) :
    Firm aside ⟨(op.deal w).applied w.held, none⟩ d := by
  have hrest : Firm aside ⟨(op.deal w).rest w.held, none⟩ d := by
    unfold Deal.rest
    split
    · exact hs
    · exact hs.erase _
  unfold Deal.applied
  cases htaken : (op.deal w).taken with
  | none => exact hrest
  | some x =>
    cases hwrapping : op.isWrapping with
    | true =>
      have hapart := fun h hh => havoids h hh hwrapping x htaken
      cases hnull : x.container.isNull with
      | true =>
        exact hrest.cons_of_not_isOwned (by simp [Holding.isOwned, hnull]) (.inl hnull) hapart
      | false => exact hrest.admitted (hop hwrapping x htaken hnull) hapart
    | false =>
      -- Where no handle is wrapped, what is taken is a view of what is given.
      obtain ⟨y, hgiven, rfl⟩ := Operation.taken_of_not_isWrapping hwrapping htaken
      have hy := Operation.given_mem_held hw hgiven
      exact hrest.cons_of_not_isOwned (Holding.isOwned_eq_false (Holding.isOwner_view y))
        (hs.kinds y hy) fun h hh => hs.apart h hh y hy

/-- **A candid operation begins with firm hands.** -/
theorem hands (hs : Firm aside ⟨w.held, none⟩ d) (hw : w.Ordered) {op : Operation}
    (hop : op.Candid d w) (havoids : ∀ h ∈ aside, op.Avoids h w) :
    (op.hands w).Firm aside d := by
  -- Only a push has a store to add to, and that is in a variable.
  have hstore : ∀ s, (op.hands w).store = some s →
      ∃ c : DataStore, ⟨.dataStore, c⟩ ∈ w.held ∧ c.handle = s ∧ s ≠ .null := by
    intro s hs'
    cases op with
    | push store name value =>
      simp only [Operation.hands, Option.filter_eq_some_iff, Option.map_eq_some_iff] at hs'
      obtain ⟨⟨c, hc, rfl⟩, hvalid⟩ := hs'
      cases hfound : w.dataStore store with
      | error failure => simp [hfound, Except.toOption] at hc
      | ok c' =>
        obtain rfl : c' = c := by simpa [hfound, Except.toOption] using hc
        exact ⟨c', hw.mem_held (Workspace.dataStore_eq_ok hfound), rfl, by simpa using hvalid⟩
    | _ => cases hs'
  refine { hs.deal hw hop havoids with store := fun s hs' => ?_, closed := fun h hh hs' => ?_ }
  · obtain ⟨c, hmem, rfl, hnull⟩ := hstore s hs'
    exact (hs.kinds _ hmem).resolve_left (by simpa [Container.isNull] using hnull)
  · obtain ⟨c, hmem, rfl, -⟩ := hstore h hs'
    exact hs.apart _ hh _ hmem rfl

end Firm

end Hands

/-! ### What the host makes on its own account -/

namespace Depot

/-- What the host makes for itself preserves what is there. -/
theorem supply_preserves (d : Depot) (stock : Stock) (shareCount : Option Int) :
    d.Preserves (d.supply stock shareCount).2 := by
  have hstock : d.Preserves (d.stock stock).2 ∧ d.find? (d.stock stock).1 = none := by
    cases stock with
    | sparseArray type dims =>
      exact ⟨(allocSparse_found d type dims).1, (allocSparse_found d type dims).2.1⟩
    | _ => exact ⟨preserves_alloc d _, find?_nextHandle d⟩
  cases shareCount with
  | none => exact hstock.1
  | some n => exact hstock.1.modify hstock.2 _

/-- What the host makes for itself has matching types. -/
theorem supply_uniform (hu : d.Uniform) (stock : Stock) (shareCount : Option Int) :
    (d.supply stock shareCount).2.Uniform := by
  have hstock : (d.stock stock).2.Uniform := by
    cases stock with
    | sparseArray type dims => exact uniform_allocSparse hu type dims
    | _ => exact uniform_alloc hu nofun
  cases shareCount with
  | none => exact hstock
  | some n =>
    exact uniform_modify (f := fun r => { r with shareCount := n }) hstock
      (fun _ => ⟨rfl, rfl, rfl, rfl⟩) _

end Depot

/-! ### Traces -/

/-- **A permitted trace keeps hands firm.** Whatever each call of it preserves along the way, a
    relation of the depot to the one in the end, holds of the trace. -/
theorem Hands.Firm.walks {s s' : Disturbed Depot} {trace : List Happening}
    (hs : H.Firm aside s.state) (hquiet : s.pending = [])
    (hwalks : Depot.host.disturbed.Walks s trace s') (htrace : H.PermitsAll trace)
    {R : Depot → List Call → Depot → Prop} (hnil : ∀ d, R d [] d)
    (hcons : ∀ (H : Hands) d c cs d', H.Firm aside d → H.Permits c → R (d.answer c).2 cs d' →
      R d (c :: cs) d') :
    (H.afterAll trace).Firm aside s'.state ∧ s'.pending = [] ∧
      R s.state (Happening.calls trace) s'.state := by
  induction hwalks generalizing H with
  | nil s => exact ⟨hs, hquiet, hnil s.state⟩
  | @called s s' trace c rest ih =>
    have hanswer := Depot.host.disturbed_of_quiet c hquiet
    rw [hanswer] at htrace ih ⊢
    obtain ⟨hfirm, hquiet', hrest⟩ := ih (hs.answer htrace.1) rfl htrace.2
    exact ⟨hfirm, hquiet', hcons H s.state c _ s'.state hs htrace.1 hrest⟩
  | logged e rest ih => exact ih hs hquiet htrace

namespace Session

variable {s : Session}

/-- What holds at every step may be said more widely. -/
theorem Every.imp {p q : Session → Step → Prop} (h : ∀ s step, p s step → q s step)
    {steps : List Step} (hsteps : s.Every p steps) : s.Every q steps := by
  induction steps generalizing s with
  | nil => exact hsteps
  | cons step rest ih => exact ⟨h s step hsteps.1, ih hsteps.2⟩

/-- What holds at every step holds together. -/
theorem Every.and {p q : Session → Step → Prop} {steps : List Step} (hp : s.Every p steps)
    (hq : s.Every q steps) : s.Every (fun s step => p s step ∧ q s step) steps := by
  induction steps generalizing s with
  | nil => exact hp
  | cons step rest ih => exact ⟨⟨hp.1, hq.1⟩, ih hp.2 hq.2⟩

/-- What the operation wraps or resets to is admitted, and the host is not made to give wrong
    answers. -/
def Candid (s : Session) : Step → Prop
  | .operation op => op.Candid s.depot s.workspace
  | .host (.inject ..) => False
  | .host _ => True

/-- The step does not take the handle into hand. -/
def Avoids (h : Handle) (s : Session) : Step → Prop
  | .operation op => op.Avoids h s.workspace
  | .host _ => True

/-- The depot answers as it does by itself, and agrees with what is in the variables and with
    what is set aside. -/
structure Firm (aside : List Handle) (s : Session) : Prop where
  ordered : s.workspace.Ordered
  quiet : s.host.pending = []
  hands : Hands.Firm aside ⟨s.workspace.held, none⟩ s.depot

/-- What happens on the side of the host changes nothing that is there. -/
theorem hostStep_preserves (s : Session) (op : HostOperation) :
    s.depot.Preserves (s.hostStep op).2.depot := by
  cases op with
  | alloc stock shareCount handleName => exact supply_preserves s.depot stock shareCount
  | shareCount | isAlive | postings => exact .refl s.depot
  | updateInPlace on => exact .of_resources_eq rfl
  | fail undertaking code => exact .of_resources_eq (by cases undertaking <;> rfl)
  | inject entry request =>
    unfold hostStep
    dsimp only
    split <;> exact .refl s.depot

namespace Firm

/-- A quiet run of an honest dialogue that begins and ends with what is at hand. -/
theorem operationStep_walks (hs : s.Firm aside) {op : Operation}
    (hop : op.Candid s.depot s.workspace) (havoids : ∀ h ∈ aside, op.Avoids h s.workspace)
    {R : Depot → List Call → Depot → Prop} (hnil : ∀ d, R d [] d)
    (hcons : ∀ (H : Hands) d c cs d', H.Firm aside d → H.Permits c → R (d.answer c).2 cs d' →
      R d (c :: cs) d') :
    (s.operationStep op).2.Firm aside ∧
      R s.depot (Happening.calls (s.operationStep op).1.trace) (s.operationStep op).2.depot := by
  have hhands := hs.hands.hands hs.ordered hop havoids
  obtain ⟨hpermits, H', hcovers, hordered, rfl⟩ :=
    (Operation.perform_honest s.context hs.ordered op).run Depot.host.disturbed s.host
  obtain ⟨hfirm, hquiet, hR⟩ := hhands.walks hs.quiet
    ((op.perform s.context s.workspace).run_walks Depot.host.disturbed s.host) hpermits hnil hcons
  exact ⟨⟨hordered, hquiet, hfirm.covers hcovers⟩, hR⟩

/-- **An operation keeps a session firm** if it is candid and stays away from what is set aside. -/
theorem operationStep (hs : s.Firm aside) {op : Operation}
    (hop : op.Candid s.depot s.workspace) (havoids : ∀ h ∈ aside, op.Avoids h s.workspace) :
    (s.operationStep op).2.Firm aside :=
  (hs.operationStep_walks hop havoids (R := fun _ _ _ => True) (fun _ => trivial)
    fun _ _ _ _ _ _ _ _ => trivial).1

/-- The depot with other notes, or asked to fail or to answer in another way. -/
theorem withDepot (hs : s.Firm aside) {d : Depot} (h : d.resources = s.depot.resources) :
    (s.withDepot d).Firm aside where
  ordered := hs.ordered
  quiet := hs.quiet
  hands := hs.hands.of_tidy (fun x r hr => ⟨r, (find?_of_resources_eq h x).trans hr, rfl⟩)
    (hs.hands.tidy.of_resources_eq h) (hs.hands.uniform.of_resources_eq h)
    (fun x hx => .inr ⟨x.container.ownership, hx⟩) (.inr rfl)

/-- What happens on the side of the host concerns nobody. -/
theorem hostStep (hs : s.Firm aside) {op : HostOperation} (hop : s.Candid (.host op)) :
    (s.hostStep op).2.Firm aside := by
  cases op with
  | alloc stock shareCount handleName =>
    obtain ⟨k, hmakes⟩ := supply_makes hs.hands.tidy stock shareCount
    refine ⟨hs.ordered.record handleName _, hs.quiet, ?_⟩
    show Hands.Firm aside ⟨(s.workspace.record handleName _).held, none⟩
      (s.depot.supply stock shareCount).2
    rw [Workspace.held_record]
    exact hs.hands.of_makes hmakes (supply_uniform hs.hands.uniform stock shareCount)
  | shareCount | isAlive | postings => exact hs
  | updateInPlace on => exact hs.withDepot rfl
  | fail undertaking code => exact hs.withDepot (by cases undertaking <;> rfl)
  | inject => exact hop.elim

/-- **A step keeps a session firm** if it is candid and stays away from what is set aside. -/
theorem step (hs : s.Firm aside) {step : Step} (hstep : s.Candid step)
    (havoids : ∀ h ∈ aside, s.Avoids h step) : (s.step step).2.Firm aside := by
  cases step with
  | operation op => exact hs.operationStep hstep havoids
  | host op => exact hs.hostStep hstep

/-- A candid session that uses nothing of what is set aside. -/
theorem run (hs : s.Firm aside) {steps : List Step}
    (hsteps : s.Every (fun s step => s.Candid step ∧ ∀ h ∈ aside, s.Avoids h step) steps) :
    (s.run steps).2.Firm aside := by
  induction steps generalizing s with
  | nil => exact hs
  | cons step rest ih => exact ih (hs.step hsteps.1.1 hsteps.1.2) hsteps.2

end Firm

/-- In a session that begins with an empty depot, nothing is owned yet. -/
theorem firm_start (ctx : Context) : Firm [] { context := ctx } where
  ordered := (sound_start ctx).ordered
  quiet := rfl
  hands := by
    have hstart := (sound_start ctx).hands
    have huniform : Depot.Uniform {} := fun x r hr => by simp [Depot.find?] at hr
    refine ⟨hstart.tidy, hstart.kinds, hstart.store, huniform, fun _ hh => ?_, fun _ hh => ?_⟩ <;>
      cases hh

end Session

end Custody
