import Custody.Proofs.Depot.Nesting
import Custody.Proofs.Firmness

namespace Custody

open Dialogue Hands Depot Relation

/-!
# Copies are independent

A copy reads like its source when it is made, and from then on nothing that is done without it
changes it or anything that it holds.

* `Depot.Persists` -- what is alive in the end was alive before, and holds what it held;
  `Depot.Persists.isAlive_of_reachable`;
* `Hands.Firm.find?_answer` -- **what is set aside stays as it is**;
* `Hands.Firm.elementType_eq` -- the element type that is read is the one that is kept;
* `Session.AtHand` -- containers in variables, views of them, and views of what is in an array;
* `Session.Firm.cloned` -- a copy that is set aside leaves the session firm;
* `Session.clone_is_independent` -- **a copy is independent of its source and of all else**.
-/

/-! ### What persists -/

namespace Depot

variable {d d' d'' : Depot} {claims : Handle → Nat} {h root x : Handle}

/-- What is alive in the end was alive before, and holds what it held before. -/
def Persists (d d' : Depot) : Prop :=
  ∀ x r, d.find? x = some r → ∃ r', d'.find? x = some r' ∧
    (r'.alive → r.alive ∧ r.contents ⊆ r'.contents)

namespace Persists

/-- What is preserved persists. -/
theorem of_preserves (h : d.Preserves d') : d.Persists d' :=
  fun x r hr => ⟨r, h x r hr, fun halive => ⟨halive, List.Subset.refl _⟩⟩

/-- A depot persists in itself. -/
theorem refl (d : Depot) : d.Persists d := of_preserves (.refl d)

/-- What persists twice persists. -/
theorem trans (h : d.Persists d') (h' : d'.Persists d'') : d.Persists d'' := by
  intro x r hr
  obtain ⟨r', hr', hstep⟩ := h x r hr
  obtain ⟨r'', hr'', hstep'⟩ := h' x r' hr'
  refine ⟨r'', hr'', fun halive => ?_⟩
  obtain ⟨halive', hcontents'⟩ := hstep' halive
  obtain ⟨halive, hcontents⟩ := hstep halive'
  exact ⟨halive, List.Subset.trans hcontents hcontents'⟩

/-- What is still alive still holds what it held. -/
theorem contains (hp : d.Persists d') (hcontains : d.Contains h x) (halive : d'.isAlive h) :
    d'.Contains h x := by
  obtain ⟨r, hr, hmem⟩ := hcontains
  obtain ⟨r', hr', hkept⟩ := hp h r hr
  obtain ⟨r'', hr'', halive⟩ := isAlive_iff.mp halive
  obtain rfl : r' = r'' := Option.some.inj (hr'.symm.trans hr'')
  exact ⟨r', hr', (hkept halive).2 hmem⟩

/-- **While something is alive, so is all that hung on it.** -/
theorem isAlive_of_reachable (hp : d.Persists d') (hd : d'.Tidy claims) (hroot : d'.isAlive root)
    (hreach : ReflTransGen d.Contains root x) : d'.isAlive x := by
  induction hreach with
  | refl => exact hroot
  | tail _ hcontains ih =>
    refine hd.alive _ ?_
    have := grip_pos_iff.mpr ⟨_, hp.contains hcontains ih⟩
    omega

end Persists

/-- No call takes anything out of what is alive. -/
theorem answer_persists (hd : d.WellFormed) (c : Call) : d.Persists (d.answer c).2 := by
  intro x r hr
  obtain ⟨r', hr', hchange⟩ := answer_changes hd c hr
  refine ⟨r', hr', fun halive => ?_⟩
  cases hchange with
  | same => exact ⟨halive, List.Subset.refl _⟩
  | released => cases halive
  | disowned | retyped => exact ⟨halive, List.Subset.refl _⟩
  | filled _ name item _ hralive =>
    refine ⟨hralive, fun y hy => ?_⟩
    simp only [Resource.contents, hralive, ↓reduceIte, List.mem_append, filled] at hy ⊢
    exact hy.imp .inl id

end Depot

/-! ### What is set aside -/

namespace Hands.Firm

variable {aside : List Handle} {H : Hands} {d d' : Depot} {c : Call} {h : Handle} {r : Resource}

/-- **What is set aside stays as it is**, whatever call is made. -/
theorem find?_answer (hs : H.Firm aside d) (hc : H.Permits c) (hh : h ∈ aside)
    (hr : d.find? h = some r) : (d.answer c).2.find? h = some r := by
  obtain ⟨r', hr', hchange⟩ := answer_changes hs.tidy.toWellFormed c hr
  obtain ⟨r'', hr'', halive⟩ := isAlive_iff.mp ((hs.answer hc).isAlive_of_mem hh)
  obtain rfl : r' = r'' := Option.some.inj (hr'.symm.trans hr'')
  cases hchange with
  | same => exact hr'
  | released => cases halive
  | disowned k =>
    -- Only a container in hand is given up.
    obtain ⟨hmem, -⟩ := hc.released _ rfl
    exact absurd rfl (hs.apart h hh _ hmem)
  | retyped array implicit _ _ a type hlive hx =>
    rcases hx with rfl | hx
    · exact absurd rfl (hs.ne_of_knows (hc.source _ _ rfl).1 hh)
    · -- What an array holds is not set aside.
      obtain ⟨ha, haalive⟩ := live?_eq_some_iff.mp hlive
      have hcontains : d.Contains array h :=
        ⟨a, ha, by simp [Resource.contents, haalive, hx]⟩
      exact absurd hcontains (hs.not_contains hh array)
  | filled name item => exact absurd (hc.store h rfl) (hs.closed h hh)

/-- A resource that was just made can be set aside. -/
theorem setAside (hs : H.Firm aside d) {k : Kind}
    (hmakes : Makes (fun x => owners H.held x + aside.count x) k d (h, d'))
    (huniform : d'.Uniform) (hstore : H.store = none) : H.Firm (h :: aside) d' := by
  have hfresh : d.find? h = none := hmakes.fresh
  have hkept : H.Firm aside d' := hs.of_makes hmakes huniform
  refine ⟨hmakes.tidy.mono fun x => ?_, hkept.kinds, hkept.store, huniform, ?_, ?_⟩
  · show _ ≤ owners H.held x + aside.count x + [h].count x
    simp only [List.count_cons, List.count_nil]
    omega
  · refine List.forall_mem_cons.mpr ⟨fun x hx => ?_, hs.apart⟩
    -- What is in hand was there before, or is null.
    rintro rfl
    rcases hs.kinds x hx with hnull | ⟨r, hr, -⟩
    · exact hmakes.ne_null (by simpa [Container.isNull] using hnull)
    · simp [hfresh] at hr
  · simp [hstore]

/-- The element type that is read from a container is the one that is kept with it, if it has
    one: an array has the type of its implicit value. -/
theorem elementType_eq (hs : H.Firm aside d) (hlive : d.live? h = some r) :
    Container.elementType d r r.kind =
      if r.kind = .dataStore then none else some (Query.word r.kind .type r.typeCode) := by
  obtain ⟨hr, halive⟩ := live?_eq_some_iff.mp hlive
  cases hkind : r.kind with
  | sparseArray =>
    obtain ⟨i, e, t, hmembers, ht, htype⟩ := hs.uniform h r hr halive hkind
    have hgrip := grip_pos_iff.mpr ⟨h, contains_implicit hr halive hmembers⟩
    obtain ⟨t', ht', htalive⟩ := isAlive_iff.mp (hs.tidy.alive i (by omega))
    obtain rfl : t = t' := Option.some.inj (ht.symm.trans ht')
    have hnull := ne_null_of_find? ht
    have hnumber : d.number .tensor .type i = (Query.word .tensor .type t.typeCode, d) := by
      simp only [number, peek, live?_eq_some_iff.mpr ⟨ht, htalive⟩, fact]
    have hread : Container.elementType d r .sparseArray = some (d.number .tensor .type i).1 := by
      simp [Container.elementType, memberOf, hmembers, hnull]
    rw [hread, hnumber, htype]
    rfl
  | _ => rfl

end Hands.Firm

/-! ### Sessions -/

namespace Session

variable {s : Session} {aside : List Handle}

/-- What reading an accessor gives at this moment. -/
def reads (s : Session) {k : Kind} (c : Container k) (a : Accessor) : Reading :=
  ((c.get s.context a).run Depot.host.disturbed s.host).value

/-- What copying a container gives at this moment. -/
def copies (s : Session) {k : Kind} (c : Container k) : Except Error (Container k) :=
  ((c.tryClone s.context).run.run Depot.host.disturbed s.host).value

/-- The session after a container was copied. -/
def afterCopying (s : Session) {k : Kind} (c : Container k) : Session :=
  { s with host := ((c.tryClone s.context).run.run Depot.host.disturbed s.host).state }

/-- The containers that the caller can work with: those in variables, views of them, and views of
    the tensors inside an array. -/
inductive AtHand (s : Session) : Holding → Prop where
  | held {name : String} {x : Holding} (h : s.workspace.find? name = some x) : AtHand s x
  | view {x : Holding} (h : AtHand s x) : AtHand s x.view
  | member {a : SparseArray} {t : Tensor} (m : Member) (h : AtHand s ⟨.sparseArray, a⟩)
      (ht : ((a.member s.context m).run.run Depot.host.disturbed s.host).value = .ok t) :
      AtHand s ⟨.tensor, t⟩

/-- A view of what is in an array has the handle that the depot lets see. -/
theorem member_run_eq_ok {ctx : Context} {d : Depot} {a : SparseArray} {m : Member} {t : Tensor}
    (ht : ((a.member ctx m).run.run Depot.host d).value = .ok t) :
    (d.answer (.member m a.handle)).1 = some t.handle := by
  rw [SparseArray.member_run] at ht
  cases hctx : ctx.require (.member m) with
  | error e => simp [hctx] at ht
  | ok _ =>
    simp only [hctx, checked_ok] at ht
    split at ht
    · cases ht
    · simp only [Container.memberSlot_eq, call_bind, done_bind, run_call, Run.after] at ht
      show (Depot.host.answer (.member m a.handle) d).1 = some t.handle
      cases hslot : (Depot.host.answer (.member m a.handle) d).1.filter fun h => !h.isNull with
      | none =>
        rw [hslot] at ht
        cases ht
      | some h =>
        -- The view is of what stood in the slot, once that is known not to be null.
        obtain ⟨hanswer, hnull⟩ := Option.filter_eq_some_iff.mp hslot
        rw [hslot] at ht
        simp only [Container.wrap_run, show h.isNull = false by simpa using hnull] at ht
        obtain rfl : (⟨h, .hostManaged⟩ : Tensor) = t := Except.ok.inj ht
        exact hanswer

/-- What is at hand is of its kind. -/
theorem Firm.kind_of_atHand (hs : s.Firm aside) {x : Holding} (hx : s.AtHand x) :
    x.container.isNull ∨
      ∃ r, s.depot.find? x.container.handle = some r ∧ r.kind = x.kind := by
  induction hx with
  | held h => exact hs.hands.kinds _ (hs.ordered.mem_held h)
  | view _ ih => exact ih
  | member m _ ht _ =>
    rw [Dialogue.run_of_quiet _ _ hs.quiet] at ht
    exact .inr (hs.hands.seen_in_array (member_run_eq_ok ht)).2

/-- **A live container is copied**, and with the copy set aside the session is firm still. -/
theorem Firm.cloned (hs : s.Firm aside) (hfull : ∀ e, s.context.provides e) {k : Kind}
    {c : Container k} {r : Resource} (hlive : s.depot.live? c.handle = some r) (hkind : r.kind = k)
    (hfail : s.depot.failClone = none) :
    ∃ copy, s.copies c = .ok (.fresh copy) ∧
      Replica s.depot r (copy, (s.afterCopying c).depot) ∧
        (s.afterCopying c).Firm (copy :: aside) := by
  have hsource : ∀ r', s.depot.find? c.handle = some r' → r'.kind = k := fun r' hr' => by
    obtain rfl : r = r' := Option.some.inj ((live?_eq_some_iff.mp hlive).1.symm.trans hr')
    exact hkind
  obtain ⟨copy, hcopy, hreplica⟩ := copied_replica hs.hands.tidy.toWellFormed hlive "clone"
  have hmake : s.depot.make (.clone k c.handle) = s.depot.copied "clone" c.handle := by
    simp only [make, clone, hfail]
  -- What the depot makes is claimed by the copy.
  have hgrants : Grants _ k .null s.depot (s.depot.make (.clone k c.handle)) :=
    clone_grants hs.hands.tidy hsource
  unfold Grants at hgrants
  rw [hmake, hcopy] at hgrants
  obtain ⟨hnull, hmakes⟩ := hgrants
  have hmakes := (hmakes.resolve_left fun h => hnull h.1).2
  -- The library hands the copy on as it is made.
  obtain ⟨hvalue, hstate⟩ := Container.tryClone_run_of_make (hfull (.clone k))
    (Container.isNull_of_live? hlive) (hmake.trans (Prod.ext hcopy rfl)) hnull
  have hquiet := Dialogue.run_of_quiet Depot.host (c.tryClone s.context).run hs.quiet
  have hhost : (s.afterCopying c).host = ⟨[], (s.depot.copied "clone" c.handle).2⟩ :=
    (congrArg Run.state hquiet).trans (congrArg (Disturbed.mk []) hstate)
  have hdepot : (s.afterCopying c).depot = (s.depot.copied "clone" c.handle).2 :=
    congrArg Disturbed.state hhost
  refine ⟨copy, (congrArg Run.value hquiet).trans hvalue, hdepot ▸ hreplica, hs.ordered,
    by rw [hhost], ?_⟩
  rw [hdepot]
  exact hs.hands.setAside hmakes (copied_uniform hs.hands.uniform "clone" c.handle) rfl

/-- What a step leaves of what is alive, and of what is set aside. -/
theorem Firm.step_persists (hs : s.Firm aside) {step : Step} (hstep : s.Candid step)
    (havoids : ∀ h ∈ aside, s.Avoids h step) :
    s.depot.Persists (s.step step).2.depot ∧ ∀ h ∈ aside, ∀ r, s.depot.find? h = some r →
      (s.step step).2.depot.find? h = some r := by
  cases step with
  | operation op =>
    refine (hs.operationStep_walks hstep havoids (R := fun d _ d' => d.Persists d' ∧
      ∀ h ∈ aside, ∀ r, d.find? h = some r → d'.find? h = some r)
      (fun d => ⟨.refl d, fun _ _ _ hr => hr⟩) ?_).2
    rintro H d c cs d' hfirm hc ⟨hrest, hkept⟩
    exact ⟨(answer_persists hfirm.tidy.toWellFormed c).trans hrest,
      fun h hh r hr => hkept h hh r (hfirm.find?_answer hc hh hr)⟩
  | host op =>
    have hpreserves := hostStep_preserves s op
    exact ⟨.of_preserves hpreserves, fun h _ r hr => hpreserves h r hr⟩

/-- **What is set aside stays as it is in a run** that is candid and stays away from it. -/
theorem Firm.run_persists (hs : s.Firm aside) {steps : List Step}
    (hsteps : s.Every (fun s step => s.Candid step ∧ ∀ h ∈ aside, s.Avoids h step) steps) :
    s.depot.Persists (s.run steps).2.depot ∧ ∀ h ∈ aside, ∀ r, s.depot.find? h = some r →
      (s.run steps).2.depot.find? h = some r := by
  induction steps generalizing s with
  | nil => exact ⟨.refl s.depot, fun _ _ _ hr => hr⟩
  | cons step rest ih =>
    obtain ⟨hfirst, hkept⟩ := hs.step_persists hsteps.1.1 hsteps.1.2
    obtain ⟨hrest, hkept'⟩ := ih (hs.step hsteps.1.1 hsteps.1.2) hsteps.2
    exact ⟨hfirst.trans hrest, fun h hh r hr => hkept' h hh r (hkept h hh r hr)⟩

/-- Readings of live containers are the same if what is kept of them is. -/
theorem Firm.reads_congr {s' : Session} {aside' : List Handle} (hs : s.Firm aside)
    (hs' : s'.Firm aside') (hctx : s'.context = s.context) (hfull : ∀ e, s.context.provides e)
    {k : Kind} {c c' : Container k} {r r' : Resource} (hlive : s.depot.live? c.handle = some r)
    (hlive' : s'.depot.live? c'.handle = some r') (hkind : r.kind = k) (hkind' : r'.kind = k)
    (htype : r'.typeCode = r.typeCode) (hdims : r'.dims = r.dims)
    (hfacts : k ≠ .sparseArray → ∀ q, q ≠ .shareCount → fact r' q = fact r q) {a : Accessor}
    (ha : a ∈ Accessor.ofKind k) (hcount : a ≠ .shareCount) : s'.reads c' a = s.reads c a := by
  have helement : Container.elementType s'.depot r' k = Container.elementType s.depot r k := by
    have h := hs.hands.elementType_eq hlive
    have h' := hs'.hands.elementType_eq hlive'
    rw [hkind] at h
    rw [hkind'] at h'
    rw [h, h', htype]
  unfold reads
  rw [Dialogue.run_of_quiet _ _ hs.quiet, Dialogue.run_of_quiet _ _ hs'.quiet, hctx]
  exact Container.get_congr hlive hlive' hfull ⟨hdims, hfacts, helement⟩ ha hcount

/-- The count of shares that is read is the one that is kept, or zero where nothing is shared. -/
theorem Firm.reads_shareCount (hs : s.Firm aside) (hfull : ∀ e, s.context.provides e) {k : Kind}
    {c : Container k} {r : Resource} (hlive : s.depot.live? c.handle = some r) :
    s.reads c .shareCount = .number (if k.supportsSharing then r.shareCount else 0) := by
  unfold reads
  rw [Dialogue.run_of_quiet _ _ hs.quiet]
  exact Container.shareCount_run hlive hfull

/-- In the session `made` there is a copy of a container as it was in the session `s`: it is the
    caller's, has a handle that was not there before, and reads the same, a store also its
    entries; only nobody shares it. -/
structure HasCopied {k : Kind} (s : Session) (c : Container k) (made : Session)
    (copy : Container k) : Prop where
  owned : copy.ownership = .callerOwned
  fresh : s.depot.find? copy.handle = none
  reads : ∀ a ∈ Accessor.ofKind k,
    made.reads copy a = if a = .shareCount then .number 0 else s.reads c a
  entries : k = .dataStore → made.depot.postingsOf copy.handle = s.depot.postingsOf c.handle

/-- From one session to the other nothing has happened to a container: it is alive with all that
    it holds, is kept as it was, and reads as it did, a store also its entries. -/
structure Untouched {k : Kind} (s : Session) (c : Container k) (s' : Session) : Prop where
  alive : ∀ x, ReflTransGen s.depot.Contains c.handle x → s'.depot.isAlive x
  same : s'.depot.find? c.handle = s.depot.find? c.handle
  reads : ∀ a ∈ Accessor.ofKind k, s'.reads c a = s.reads c a
  entries : s'.depot.postingsOf c.handle = s.depot.postingsOf c.handle

/-- A replica reads like what it was made from. -/
theorem Firm.hasCopied {made : Session} {aside' : List Handle} (hs : s.Firm aside)
    (hmade : made.Firm aside') (hctx : made.context = s.context)
    (hfull : ∀ e, s.context.provides e) {k : Kind} {c : Container k} {r : Resource}
    (hlive : s.depot.live? c.handle = some r) (hkind : r.kind = k) {copy : Handle}
    (hreplica : Replica s.depot r (copy, made.depot)) : s.HasCopied c made (.fresh copy) := by
  obtain ⟨r', hr', halive', hkind', hcount, htype, hdims, hplain, -⟩ := hreplica.found
  have hlive' : made.depot.live? copy = some r' := live?_eq_some_iff.mpr ⟨hr', halive'⟩
  have hplain : k ≠ .sparseArray → r' = { r with shareCount := 0, children := r'.children } :=
    fun hk => hplain (hkind ▸ hk)
  refine ⟨rfl, hreplica.fresh, fun a ha => ?_, ?_⟩
  · split
    · next hshare =>
      -- Nobody shares a copy yet.
      subst hshare
      rw [hmade.reads_shareCount (by rwa [hctx]) hlive', hcount, ite_self]
    · next hshare =>
      refine hs.reads_congr hmade hctx hfull hlive hlive' hkind (hkind'.trans hkind) htype hdims
        (fun hk q hq => ?_) ha hshare
      rw [hplain hk]
      cases q <;> first | rfl | exact absurd rfl hq
  · rintro rfl
    have hpostings : r'.postings = r.postings := by rw [hplain nofun]
    simp [postingsOf, Container.fresh, hr', (live?_eq_some_iff.mp hlive).1, hpostings]

/-- What is set aside is untouched by a candid session that does not use it. -/
theorem Firm.untouched (hs : s.Firm aside) (hfull : ∀ e, s.context.provides e) {k : Kind}
    {c : Container k} (hc : c.handle ∈ aside)
    (hkind : ∀ r, s.depot.find? c.handle = some r → r.kind = k) {steps : List Step}
    (hsteps : s.Every (fun s step => s.Candid step ∧ ∀ h ∈ aside, s.Avoids h step) steps) :
    s.Untouched c (s.run steps).2 := by
  have hend := hs.run hsteps
  obtain ⟨hpersists, hkept⟩ := hs.run_persists hsteps
  obtain ⟨r, hr, halive⟩ := isAlive_iff.mp (hs.hands.isAlive_of_mem hc)
  have hr' := hkept c.handle hc r hr
  have hlive := live?_eq_some_iff.mpr ⟨hr, halive⟩
  have hlive' := live?_eq_some_iff.mpr ⟨hr', halive⟩
  refine ⟨fun x hx => hpersists.isAlive_of_reachable hend.hands.tidy
    (hend.hands.isAlive_of_mem hc) hx, hr'.trans hr.symm, fun a ha => ?_, ?_⟩
  · by_cases hcount : a = .shareCount
    · subst hcount
      rw [hs.reads_shareCount hfull hlive, hend.reads_shareCount (by simpa using hfull) hlive']
    · exact hs.reads_congr hend (run_context s steps) hfull hlive hlive' (hkind r hr) (hkind r hr)
        rfl rfl (fun _ _ _ => rfl) ha hcount
  · simp [postingsOf, hr, hr']

/-- **A copy is independent.** In any state that a candid session reaches with a complete host
    that is not waiting to fail, whatever live container is at hand, under whatever tag, in a
    variable or as a view: it is copied; the copy is the caller's, is new, and reads like its
    source, but that nobody shares it; and whatever is done after that without the copy, to the
    source, to what holds it, or to the array that it was seen in, the copy is untouched. -/
theorem clone_is_independent (ctx : Context) (hfull : ∀ e, ctx.provides e) (before : List Step)
    (x : Holding) :
    let s := (Session.run { context := ctx } before).2
    let made := s.afterCopying x.container
    Every Candid { context := ctx } before → s.AtHand x → s.depot.isAlive x.container.handle →
      s.depot.failClone = none →
        ∃ copy, s.copies x.container = .ok copy ∧ s.HasCopied x.container made copy ∧
          ∀ after, made.Every Candid after → made.Every (Avoids copy.handle) after →
            made.Untouched copy (made.run after).2 := by
  intro s made hbefore hx halive hfail
  -- Nothing is set aside up to the copy, which is the one thing that is set aside from then on.
  have hs : s.Firm [] := (firm_start ctx).run (hbefore.imp fun _ _ h => ⟨h, nofun⟩)
  have hfull : ∀ e, s.context.provides e := by simpa [s] using hfull
  obtain ⟨r, hr, hralive⟩ := isAlive_iff.mp halive
  have hlive := live?_eq_some_iff.mpr ⟨hr, hralive⟩
  have hkind : r.kind = x.kind := by
    obtain ⟨r', hr', hkind⟩ := (hs.kind_of_atHand hx).resolve_left
      (by simp [Container.isNull_of_live? hlive])
    obtain rfl : r = r' := Option.some.inj (hr.symm.trans hr')
    exact hkind
  obtain ⟨copy, hcopies, hreplica, hmade⟩ := hs.cloned hfull hlive hkind hfail
  refine ⟨.fresh copy, hcopies, hs.hasCopied hmade rfl hfull hlive hkind hreplica, ?_⟩
  intro after hafter havoids
  refine hmade.untouched hfull (c := .fresh copy) List.mem_cons_self (fun r' hr' => ?_)
    ((hafter.and havoids).imp fun _ _ h => ⟨h.1, ?_⟩)
  · obtain ⟨r'', hr'', -, hkind', -⟩ := hreplica.found
    obtain rfl : r' = r'' := Option.some.inj (hr'.symm.trans hr'')
    exact hkind'.trans hkind
  · simpa [Container.fresh] using h.2

/-- A copy of the implicit value of an array, seen in the array: after that the array gets another
    implicit value, which the host writes into the one that was seen, and is let go of. -/
theorem clone_is_independent_of_member_view :
    let before : List Step :=
      [.operation (.new (.tensor 3 [3]) "t"), .operation (.fromTensor "t" none "a")]
    let s := (Session.run { context := .full } before).2
    let seen : Tensor := ⟨.ofNumber 2, .hostManaged⟩
    let made := s.afterCopying seen
    let after : List Step :=
      [.host (.updateInPlace true), .operation (.new (.tensor 4 []) "z"),
        .operation (.setImplicit "a" (some "z")), .operation (.drop "a")]
    let copy : Tensor := .fresh (.ofNumber 5)
    s.AtHand ⟨.tensor, seen⟩ ∧ s.copies seen = .ok copy ∧ s.HasCopied seen made copy ∧
      ((made.run after).2.depot.find? seen.handle).map (fun r => (r.typeCode, r.alive)) =
        some (4, false) ∧
      made.Untouched copy (made.run after).2 := by
  intro before s seen made after copy
  have hfull : ∀ e, Context.full.provides e := fun _ => rfl
  have hbefore : Every Candid { context := .full } before := ⟨nofun, nofun, trivial⟩
  have harray : s.workspace.find? "a" = some ⟨.sparseArray, ⟨.ofNumber 4, .callerOwned⟩⟩ := rfl
  have hseen : s.AtHand ⟨.tensor, seen⟩ := .member .implicitValue (.held harray) rfl
  have halive : s.depot.isAlive seen.handle := by decide +kernel
  have hcopies : s.copies seen = .ok copy := by decide +kernel
  obtain ⟨copy', hcopies', hcopied, huntouched⟩ :=
    clone_is_independent .full hfull before ⟨.tensor, seen⟩ hbefore hseen halive rfl
  obtain rfl : copy = copy' := Except.ok.inj (hcopies.symm.trans hcopies')
  have hafter : made.Every Candid after := ⟨trivial, nofun, nofun, nofun, trivial⟩
  have havoids : made.Every (Avoids copy.handle) after := ⟨trivial, nofun, nofun, nofun, trivial⟩
  exact ⟨hseen, hcopies, hcopied, by decide +kernel, huntouched after hafter havoids⟩

end Session

end Custody
