import Custody.Proofs.Depot.Tameness
import Custody.Proofs.Truthfulness

namespace Custody

open Hands Depot

/-!
# Every resource has one owner

A session in which every handle is wrapped truthfully, and in which the host puts no handle into
an answer that it did not make, never loses track of who answers for a resource.  The host may
fail as it likes.

* `Session.Truthful`, `Session.Every` -- the steps that are taken are truthful;
* `Session.Sound` -- the invariant; `Session.Sound.step` is what one step preserves;
* `Session.Secure` -- nobody but one party will release a resource;
* `Session.secure_of_truthful` -- **a truthful session is secure** in every state it reaches.
-/

/-- The effect that is asked for puts no handle into an answer of the entry. -/
def EffectRequest.Tame (entry : Entry) (request : EffectRequest) : Prop :=
  ∀ c : Call, c.entry = entry → c.shape.carriesHandle → request.value = none

namespace Session

/-- What the operation wraps or resets to is right, and the effect that is waited for is tame. -/
def Truthful (s : Session) : Step → Prop
  | .operation op => op.Truthful s.depot s.workspace
  | .host (.inject entry request) => request.Tame entry
  | .host _ => True

/-- Each step satisfies a condition when it is taken. -/
def Every (p : Session → Step → Prop) (s : Session) : List Step → Prop
  | [] => True
  | step :: rest => p s step ∧ (s.step step).2.Every p rest

/-- The depot agrees with what is in the variables, and no effect that waits puts a handle into
    an answer. -/
structure Sound (s : Session) : Prop where
  ordered : s.workspace.Ordered
  hands : Hands.Sound ⟨s.workspace.held, none⟩ s.depot
  tame : s.host.Tame

/-- Nobody but one party will release a resource.  What is owned is alive, of the right kind, in
    no store or array, and neither owned nor shared by another variable; what is shared is alive,
    of the right kind, in no store or array, owned by no variable, and shared by no more than
    have a share; what a store or an array holds is alive, and held by no other; and nothing was
    released that was not there to be released. -/
structure Secure (s : Session) : Prop where
  owned : ∀ name x, s.workspace.find? name = some x → x.isOwned →
    (∃ r, s.depot.live? x.container.handle = some r ∧ r.kind = x.kind) ∧
      (∀ h, ¬ s.depot.Contains h x.container.handle) ∧
      ∀ other y, s.workspace.find? other = some y → y.container.handle = x.container.handle →
        y.isOwned ∨ y.isShare → other = name
  shared : ∀ name x, s.workspace.find? name = some x → x.isShare →
    (∃ r, s.depot.live? x.container.handle = some r ∧ r.kind = x.kind) ∧
      (∀ h, ¬ s.depot.Contains h x.container.handle) ∧
      (∀ other y, s.workspace.find? other = some y → y.container.handle = x.container.handle →
        y.isOwned = false) ∧
      (sharers s.workspace.held x.container.handle : Int) ≤
        s.depot.shareCountOf x.container.handle
  contained : ∀ x, s.depot.grip x ≤ 1 ∧ ((∃ h, s.depot.Contains h x) → s.depot.isAlive x)
  released : ∀ v ∈ s.depot.violations, v.operation ∉ releasing

end Session

/-! ### What a step preserves -/

/-- A session keeps its context. -/
@[simp] theorem Session.run_context (s : Session) (steps : List Step) :
    (s.run steps).2.context = s.context := by
  induction steps generalizing s with
  | nil => rfl
  | cons step rest ih =>
    have hstep : (s.step step).2.context = s.context := by
      cases step with
      | operation op => rfl
      | host op =>
        cases op with
        | inject entry request =>
          simp only [Session.step, Session.hostStep]
          split <;> rfl
        | _ => rfl
    exact (ih _).trans hstep

/-- An honest dialogue ends with sound hands. -/
theorem Dialogue.Honest.sound {α : Type} {ctx : Context} {H : Hands} {d : Dialogue α}
    {Q : α → Hands → Prop} (hd : d.Honest ctx H Q) {host : Disturbed Depot}
    (hs : H.Sound host.state) (htame : host.Tame) :
    ∃ H', Q (d.run Depot.host.disturbed host).value H' ∧
      H'.Sound (d.run Depot.host.disturbed host).state.state ∧
      (d.run Depot.host.disturbed host).state.Tame := by
  obtain ⟨hpermits, H', hcovers, hvalue⟩ := hd.run Depot.host.disturbed host
  obtain ⟨hsound, htame'⟩ := hs.walks htame (d.run_walks Depot.host.disturbed host) hpermits
  exact ⟨H', hvalue, hsound.covers hcovers, htame'⟩

namespace Depot

variable {claims : Handle → Nat} {d : Depot}

/-- What was just made can be changed superficially. -/
theorem Makes.modify {k : Kind} {made : Handle × Depot} (h : Makes claims k d made)
    {f : Resource → Resource} (hf : Superficial f) :
    Makes claims k d (made.1, made.2.modify made.1 f) where
  keeps x r hr := by
    have hother : x ≠ made.1 := fun hx => by simp [hx, h.fresh] at hr
    obtain ⟨r', hr', hkeeps⟩ := h.keeps x r hr
    exact ⟨r', by rwa [find?_modify, if_neg hother], hkeeps⟩
  lives x hx := (isAlive_modify (fun r => (hf r).2.1) made.1 x).mpr (h.lives x hx)
  clean := (misreleases_modify made.2 made.1 f).trans h.clean
  fresh := h.fresh
  tidy := tidy_modify h.tidy hf made.1
  kind := by
    obtain ⟨r, hr, hkind⟩ := h.kind
    exact ⟨f r, by rw [find?_modify, if_pos rfl, hr, Option.map_some], (hf r).1.trans hkind⟩
  roots x hx := h.roots x ((root_modify hf made.1 x).mp hx)

/-- What the host makes on its own account, with its number of holders. -/
def supply (d : Depot) (stock : Stock) (shareCount : Option Int) : Handle × Depot :=
  let made := d.stock stock
  (made.1, (shareCount.map (made.2.share made.1)).getD made.2)

/-- What the host makes on its own account is made, whatever number of holders it is given. -/
theorem supply_makes (hd : d.Tidy claims) (stock : Stock) (shareCount : Option Int) :
    ∃ k, Makes claims k d (d.supply stock shareCount) := by
  have hstock : ∃ k, Makes claims k d (d.stock stock) := by
    cases stock with
    | sparseArray type dims => exact ⟨_, allocSparse_makes hd type dims⟩
    | _ => exact ⟨_, alloc_makes hd rfl rfl rfl⟩
  obtain ⟨k, hmakes⟩ := hstock
  refine ⟨k, ?_⟩
  cases shareCount with
  | none => exact hmakes
  | some n => exact hmakes.modify fun _ => ⟨rfl, rfl, rfl, rfl⟩

end Depot

namespace Session

variable {s : Session}

namespace Sound

/-- What happens on the side of the host concerns nobody. -/
theorem hostStep (hs : s.Sound) {op : HostOperation} (hop : s.Truthful (.host op)) :
    (s.hostStep op).2.Sound := by
  have halike : ∀ {d}, s.depot.Alike d → (s.withDepot d).Sound := fun h =>
    ⟨hs.ordered, hs.hands.alike h, hs.tame⟩
  cases op with
  | alloc stock shareCount handleName =>
    obtain ⟨k, hmakes⟩ := supply_makes hs.hands.tidy stock shareCount
    refine ⟨hs.ordered.record handleName _, ?_, hs.tame⟩
    show Hands.Sound ⟨(s.workspace.record handleName _).held, none⟩
      (s.depot.supply stock shareCount).2
    rw [Workspace.held_record]
    exact hs.hands.made hmakes
  | shareCount | isAlive | postings => exact hs
  | updateInPlace on => exact halike (alike_of_eq rfl rfl)
  | fail undertaking code => exact halike (by cases undertaking <;> exact alike_of_eq rfl rfl)
  | inject entry request =>
    simp only [Session.hostStep]
    cases hvalue : request.value.mapM s.workspace.number with
    | error failure => exact hs
    | ok value =>
      refine ⟨hs.ordered, hs.hands, fun p hp => ?_⟩
      rcases List.mem_append.mp hp with hp | hp
      · exact hs.tame p hp
      · -- The effect that is added asks for no handle where one could be read.
        obtain rfl := List.mem_singleton.mp hp
        intro c hc hshape
        have hnone : request.value = none := hop c hc hshape
        rw [hnone] at hvalue
        exact (Except.ok.inj hvalue).symm

/-- An operation of the library leaves a sound session sound. -/
theorem operationStep (hs : s.Sound) {op : Operation} (hop : op.Truthful s.depot s.workspace) :
    (s.operationStep op).2.Sound := by
  obtain ⟨H', ⟨hordered, rfl⟩, hsound, htame⟩ :=
    (Operation.perform_honest s.context hs.ordered op).sound
      (hs.hands.hands hs.ordered hop) hs.tame
  exact ⟨hordered, hsound, htame⟩

/-- **A truthful step keeps a session sound.** -/
theorem step (hs : s.Sound) {step : Step} (hstep : s.Truthful step) : (s.step step).2.Sound := by
  cases step with
  | operation op => exact hs.operationStep hstep
  | host op => exact hs.hostStep hstep

/-- **And so does a truthful run.** -/
theorem run (hs : s.Sound) {steps : List Step} (hsteps : s.Every Truthful steps) :
    (s.run steps).2.Sound := by
  induction steps generalizing s with
  | nil => exact hs
  | cons step rest ih => exact ih (hs.step hsteps.1) hsteps.2

/-- Letting go of all variables keeps a session sound. -/
theorem finish (hs : s.Sound) : s.finish.2.Sound := by
  obtain ⟨H', ⟨hheld, rfl⟩, hsound, htame⟩ :=
    (s.workspace.dropAll_honest s.context).sound hs.hands hs.tame
  have hholdings : s.finish.2.workspace.holdings = [] := List.map_eq_nil_iff.mp hheld
  refine ⟨?_, ?_, htame⟩
  · simp [Workspace.Ordered, hholdings]
  · show Hands.Sound ⟨s.finish.2.workspace.held, none⟩ _
    rwa [Workspace.held, hholdings]

/-! ### What the invariant says -/

/-- In a sound session no release has gone wrong. -/
theorem released (hs : s.Sound) : ∀ v ∈ s.depot.violations, v.operation ∉ releasing := by
  have hclean := List.filter_eq_nil_iff.mp hs.hands.clean
  exact fun v hv => by simpa using hclean v hv

/-- Whatever is claimed is of the right kind and held by no resource. -/
theorem live_of_claims (hs : s.Sound) {name : String} {x : Holding}
    (hx : s.workspace.find? name = some x) (hnull : x.container.isNull = false)
    (hclaims : 0 < claims s.workspace.held x.container.handle) :
    (∃ r, s.depot.live? x.container.handle = some r ∧ r.kind = x.kind) ∧
      ∀ h, ¬ s.depot.Contains h x.container.handle := by
  have halive := hs.hands.alive_of_claims hclaims
  have hunique := hs.hands.tidy.unique x.container.handle
  obtain ⟨r, hr, hkind⟩ :=
    (hs.hands.kinds x (hs.ordered.mem_held hx)).resolve_left (by simp [hnull])
  refine ⟨⟨r, ?_, hkind⟩, grip_eq_zero_iff.mp ?_⟩
  · obtain ⟨r', hr', halive⟩ := isAlive_iff.mp halive
    obtain rfl : r = r' := Option.some.inj (hr.symm.trans hr')
    exact live?_eq_some_iff.mpr ⟨hr, halive⟩
  · -- It is claimed once or held once, and it is claimed.
    simp only at hunique
    omega

/-- Two variables do not own the same resource, nor does one own what another shares. -/
theorem eq_of_isOwned (hs : s.Sound) {name other : String} {x y : Holding}
    (hx : s.workspace.find? name = some x) (hy : s.workspace.find? other = some y)
    (hsame : y.container.handle = x.container.handle) (howned : x.isOwned)
    (hclaims : y.isOwned ∨ y.isShare) : other = name := by
  by_contra hne
  -- Without the first variable the second one still claims the resource, so with it there are
  -- two claims.
  have hunique := hs.hands.tidy.unique x.container.handle
  have hrest : y ∈ (s.workspace.remove name).held :=
    (hs.ordered.remove name).mem_held (by rw [Workspace.find?_remove, if_neg hne, hy])
  have hperm := hs.ordered.held_perm hx
  have howners : owners s.workspace.held x.container.handle =
      owners (s.workspace.remove name).held x.container.handle + 1 := by
    simp [owners, hperm.countP_eq, howned]
  have hsharers : sharers (s.workspace.remove name).held x.container.handle ≤
      sharers s.workspace.held x.container.handle := by
    simp [sharers, hperm.countP_eq, List.countP_cons]
  have hother : 0 < owners (s.workspace.remove name).held x.container.handle ∨
      0 < sharers (s.workspace.remove name).held x.container.handle :=
    hsame ▸ hclaims.imp (owners_pos hrest) (sharers_pos hrest)
  simp only [claims] at hunique
  omega

/-- **A sound session is secure.** -/
theorem secure (hs : s.Sound) : s.Secure where
  owned name x hx howned := by
    have hnull : x.container.isNull = false := by
      simp only [Holding.isOwned, Bool.and_eq_true, Bool.not_eq_true'] at howned
      exact howned.1
    have hpos := owners_pos (hs.ordered.mem_held hx) howned
    obtain ⟨hlive, hfree⟩ := hs.live_of_claims hx hnull (Nat.add_pos_left hpos _)
    exact ⟨hlive, hfree, fun other y hy hsame hclaims =>
      hs.eq_of_isOwned hx hy hsame howned hclaims⟩
  shared name x hx hshare := by
    have hmem := hs.ordered.mem_held hx
    have hnull : x.container.isNull = false := by
      simp only [Holding.isShare, Bool.and_eq_true, Bool.not_eq_true'] at hshare
      exact hshare.1.1
    have hpos := sharers_pos hmem hshare
    have hclaims : 0 < claims s.workspace.held x.container.handle := by
      unfold claims
      omega
    obtain ⟨hlive, hfree⟩ := hs.live_of_claims hx hnull hclaims
    refine ⟨hlive, hfree, fun other y hy hsame => ?_, hs.hands.shares _ hpos⟩
    cases howned : y.isOwned with
    | false => rfl
    | true =>
      -- An owner besides a sharer would be a second claim.
      have hunique := hs.hands.tidy.unique x.container.handle
      have howners := owners_pos (hs.ordered.mem_held hy) howned
      rw [hsame] at howners
      simp only [claims] at hunique
      omega
  contained x := by
    have hunique := hs.hands.tidy.unique x
    refine ⟨by omega, fun hcontains => hs.hands.tidy.alive x ?_⟩
    have := grip_pos_iff.mpr hcontains
    omega
  released := hs.released

end Sound

/-- A session that begins with an empty depot is sound. -/
theorem sound_start (ctx : Context) : Sound { context := ctx } where
  ordered := Workspace.ordered_empty []
  hands := by
    have hfind : ∀ x, ({} : Depot).find? x = none := fun x => by simp [find?]
    have htidy : ({} : Depot).Tidy fun _ => 0 :=
      ⟨⟨fun x r hx => by simp [hfind] at hx, fun x r hx => by simp [hfind] at hx,
          fun x r hx => by simp [hfind] at hx⟩,
        fun _ => Nat.zero_le 1, fun _ hx => absurd hx (Nat.lt_irrefl 0)⟩
    refine ⟨htidy, fun _ hx => absurd hx (Nat.lt_irrefl 0), fun _ hx => ?_, fun _ hs => ?_, rfl⟩
    · cases hx
    · cases hs
  tame p hp := by cases hp

/-- **Every resource has one owner.** Whatever operations are made in whatever order, and however
    the host fails, if every handle is wrapped truthfully, then in every state that is reached
    nobody but one party will release a resource, and no release goes wrong; and letting go of
    all variables then releases nothing twice. -/
theorem secure_of_truthful (ctx : Context) (steps : List Step)
    (hsteps : Every Truthful { context := ctx } steps) :
    (Session.run { context := ctx } steps).2.Secure ∧
      (Session.run { context := ctx } steps).2.finish.2.Secure := by
  have hs := (sound_start ctx).run hsteps
  exact ⟨hs.secure, hs.finish.secure⟩

/-- A tensor of the host is wrapped as a share and pushed into a store, while its copy is made
    late and then refused: the share is given up when the push fails, and the copy is lost, but
    nothing is released twice. -/
theorem secure_of_refused_copy :
    let steps : List Step :=
      [.host (.alloc (.tensor 2 [3]) (some 1) (some "t")),
        .operation (.wrap .tensor (.named "t") (.ownership .sharedWithHost) "a"),
        .operation (.new .dataStore "s"),
        .host (.inject (.clone .tensor) { code := 6, late := true }),
        .operation (.push "s" none (.variable "a"))]
    Every Truthful { context := .full } steps ∧
      (Session.run { context := .full } steps).2.Secure ∧
        (Session.run { context := .full } steps).2.finish.2.Secure := by
  intro steps
  have hsteps : Every Truthful { context := .full } steps := by
    refine ⟨trivial, fun _ x hx _ => ?_, nofun, fun _ _ _ => rfl, nofun, trivial⟩
    obtain rfl : (⟨.tensor, ⟨.ofNumber 1, .sharedWithHost⟩⟩ : Holding) = x := Option.some.inj hx
    constructor
    · exact ⟨_, rfl, rfl⟩
    · exact nofun
    · exact fun _ _ => ⟨grip_eq_zero_iff.mp rfl, nofun, by decide +kernel⟩
  exact ⟨hsteps, secure_of_truthful _ _ hsteps⟩

end Session

end Custody
