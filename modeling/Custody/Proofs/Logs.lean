import Custody.Proofs.Provision
import Custody.Proofs.Requests
import Custody.Proofs.Speeches

namespace Custody

open Dialogue

/-!
# The log tells the truth

The events are logged by the operations and the calls are made row by row, and the two agree: every
cleanup is announced and every announcement is kept, unless it is taken back at once, and every
container that the host made is told of once.

* `Event.resources`, `Event.carries` -- the resources that the fields of an event name;
* `Event.announced` -- the cleanups that a log announces and does not take back;
* `Event.Grounded` -- every warning stands behind the announcement that it is about;
* `Happening.grants` -- the calls by which the host made a container, each with the container;
* `Candid` -- the log of a trace tells the truth about its calls; `Phrase.candid` says so of one
  turn and `Speech.candid` of all;
* `Speech.reports_le` -- no more is told of containers than was asked for;
* `Operation.log_tells_truth` -- **and so of each operation and of all of them**, with any host;
* `Operation.copy_carried_twice` -- a cleanup that follows at once names the container again.
-/

/-! ### Reading a log -/

namespace Event

/-- The resources that the fields of an event name, in their order. -/
def resources : Event → List (Kind × Handle)
  | opened _ | cleanupMissing .. => []
  | wrapping k h _ | relinquishing k h _ | passed k h _ | noResultSlot k h => [(k, h)]
  | destroying k h | givingUpShare k h | pushingCopy k h => [(k, h)]
  | storeNeverShared h | createdStore h | pushed h .. => [(.dataStore, h)]
  | cloned k source copy => [(k, source), (k, copy)]
  | allocatedTensor h .. => [(.tensor, h)]
  | allocatedNumericArray h .. => [(.numericArray, h)]
  | allocatedImage h _ => [(.image, h)]
  | convertedNumericArray source h .. => [(.numericArray, source), (.numericArray, h)]
  | convertedImage source h .. => [(.image, source), (.image, h)]
  | builtFromTensor h source => [(.sparseArray, h), (.tensor, source)]
  | builtFromPositions h => [(.sparseArray, h)]
  | computed _ array tensor => [(.sparseArray, array), (.tensor, tensor)]
  | implicitReset old new _ => [(.sparseArray, old), (.sparseArray, new)]

/-- What is named is shown in a field. -/
theorem shown_mem_fields {e : Event} {k : Kind} {h : Handle} (hnamed : (k, h) ∈ e.resources) :
    h.shown k ∈ e.fields.map (·.2) := by
  cases e <;> simp [resources] at hnamed <;> grind [fields]

/-- Whether a field of the event carries the handle of a container. -/
def carries (x : Holding) (e : Event) : Bool := (x.kind, x.container.handle) ∈ e.resources

/-- Whether the event tells a debugger of a resource, and of no cleanup. -/
def isReport (e : Event) : Bool :=
  e.level = .debug ∧ e.cleanup? = none ∧ e.resources ≠ []

/-- The event that tells of a container carries its handle. -/
theorem carries_of_adopts? {e : Event} {x : Holding} (h : e.adopts? = some x) : e.carries x := by
  rw [carries, decide_eq_true_iff]
  cases e with
  | implicitReset old new ownership =>
    rw [adopts?] at h
    split at h
    · cases h
    · obtain rfl := Option.some.inj h
      simp [resources, Container.fresh]
  | cloned | allocatedTensor | allocatedNumericArray | allocatedImage | createdStore
  | convertedNumericArray | convertedImage | builtFromTensor | builtFromPositions | computed =>
    obtain rfl := Option.some.inj h
    simp [resources, Container.fresh]
  | _ => cases h

/-- The cleanups that are announced and not taken back by the event that follows. -/
def announced : List Event → List Call
  | [] => []
  | e :: rest => (if rest.head?.any isRetraction then none else e.cleanup?).toList ++ announced rest

/-- Every warning that there is no entry for a cleanup stands directly behind the announcement of
    that cleanup, and names its entry. -/
def Grounded (events : List Event) : Prop :=
  ∀ before after k function, events = before ++ cleanupMissing k function :: after →
    ∃ e call, before.getLast? = some e ∧ e.cleanup? = some call ∧ call.entry = ⟨k, function⟩

/-- Logs can be read one after the other, unless the second takes back what the first announced. -/
theorem announced_append {events events' : List Event}
    (h : events'.head?.any isRetraction = false) :
    announced (events ++ events') = announced events ++ announced events' := by
  induction events with
  | nil => rfl
  | cons e rest ih =>
    have hnext : (rest ++ events').head?.any isRetraction = rest.head?.any isRetraction := by
      cases rest with
      | nil => exact h
      | cons next rest => rfl
    rw [List.cons_append, announced, announced, ih, hnext, List.append_assoc]

/-- A log without warnings is grounded. -/
theorem grounded_of_no_warning {events : List Event}
    (h : ∀ e ∈ events, ∀ k function, e ≠ cleanupMissing k function) : Grounded events := by
  intro before after k function hevents
  have hmem : cleanupMissing k function ∈ events := by
    rw [hevents]
    exact List.mem_append_right _ List.mem_cons_self
  exact absurd rfl (h _ hmem k function)

/-- Grounded logs in a row are grounded. -/
theorem Grounded.append {events events' : List Event} (h : Grounded events)
    (h' : Grounded events') : Grounded (events ++ events') := by
  intro before after k function hevents
  rcases List.append_eq_append_iff.mp hevents with
    ⟨middle, hbefore, hrest⟩ | ⟨middle, hfirst, hrest⟩
  · -- The warning stands in the second log, and so does what it is about.
    obtain ⟨e, call, hlast, hcall⟩ := h' middle after k function hrest
    refine ⟨e, call, ?_, hcall⟩
    rw [hbefore, List.getLast?_append, hlast]
    rfl
  · cases middle with
    | nil =>
      -- It cannot stand first in the second one.
      obtain ⟨e, call, hlast, -⟩ := h' [] after k function hrest.symm
      cases hlast
    | cons next middle =>
      obtain ⟨rfl, -⟩ := List.cons.inj hrest
      exact h before middle k function hfirst

end Event

/-! ### Events and grants of a trace -/

namespace Happening

/-- The events among the steps of a trace. -/
def events (trace : List Happening) : List Event := trace.filterMap event?

/-- The call and the container that came into being by it, if the step brings one. -/
def grant? : Happening → Option (Call × Holding)
  | called c a => (c.brings? a).map (c, ·)
  | logged _ => none

/-- The calls of a trace by which containers came into being, with the containers. -/
def grants (trace : List Happening) : List (Call × Holding) := trace.filterMap grant?

variable (trace trace' : List Happening)

@[simp] theorem events_nil : events [] = [] := rfl

@[simp] theorem events_called (c : Call) (a : c.Answer) :
    events (.called c a :: trace) = events trace := rfl

@[simp] theorem events_logged (e : Event) : events (.logged e :: trace) = e :: events trace := rfl

@[simp] theorem events_append : events (trace ++ trace') = events trace ++ events trace' :=
  List.filterMap_append

@[simp] theorem grants_append : grants (trace ++ trace') = grants trace ++ grants trace' :=
  List.filterMap_append

/-- The grants of a trace begin with that of its first call. -/
theorem grants_called {c : Call} {a : c.Answer} {granted : Option Holding}
    (h : c.brings? a = granted) :
    grants (.called c a :: trace) = (granted.map (c, ·)).toList ++ grants trace := by
  have hgrant : (called c a).grant? = granted.map (c, ·) := by rw [grant?, h]
  rw [grants, List.filterMap_cons, hgrant]
  cases granted <;> rfl

@[simp] theorem grants_logged (e : Event) : grants (.logged e :: trace) = grants trace := rfl

end Happening

/-! ### What brings a container -/

namespace Call

variable {c : Call} {a : c.Answer}

/-- A call that cannot deliver a container brings none. -/
theorem brings?_of_yield?_eq_none (hc : c.yield? = none) : c.brings? a = none := by
  rw [brings?, hc]

/-- A refusal brings nothing. -/
theorem brings?_of_refused {refusal : Refusal} (h : c.granted a = .error refusal) :
    c.brings? a = none := by
  rw [brings?, h]
  cases c.yield? <;> rfl

/-- The handle that comes into being is the one that was granted. -/
theorem handle_of_brings? {x : Holding} {h : Handle} (hx : c.brings? a = some x)
    (hgranted : c.granted a = .ok h) : x.container.handle = h := by
  rw [brings?, hgranted] at hx
  split at hx
  · next k h' _ hsame =>
    obtain rfl := Except.ok.inj hsame
    split at hx
    · cases hx
    · obtain rfl := Option.some.inj hx
      rfl
  · cases hx

/-- A cleanup delivers no container. -/
theorem yield?_of_isCleanup (hc : c.isCleanup) : c.yield? = none := by
  cases c <;> first | rfl | cases hc

/-- An addition delivers no container. -/
theorem yield?_of_isAddition (hc : c.isAddition) : c.yield? = none := by
  cases c <;> first | rfl | cases hc

/-- An addition cleans nothing up. -/
theorem isCleanup_of_isAddition (hc : c.isAddition) : c.isCleanup = false := by
  cases c <;> first | rfl | cases hc

end Call

namespace Event

variable {e : Event} {c : Call} {h : Handle}

/-- What is announced is a cleanup. -/
theorem isCleanup_of_cleanup? (hannounced : e.cleanup? = some c) : c.isCleanup := by
  cases e with
  | destroying k h | givingUpShare k h =>
    obtain rfl := Option.some.inj hannounced
    rfl
  | _ => cases hannounced

/-- A remark announces nothing. -/
theorem cleanup?_of_isRemark (he : e.isRemark) : e.cleanup? = none := by
  cases e <;> first | rfl | cases he

/-- A remark takes nothing back. -/
theorem isRetraction_of_isRemark (he : e.isRemark) : e.isRetraction = false := by
  cases e <;> first | rfl | cases he

/-- A remark tells of no container that came into being. -/
theorem adopts?_of_isRemark (he : e.isRemark) : e.adopts? = none := by
  cases e <;> first | rfl | cases he

/-- An announcement takes nothing back. -/
theorem isRetraction_of_cleanup? (hannounced : e.cleanup? = some c) : e.isRetraction = false := by
  cases e <;> first | rfl | cases hannounced

/-- An announcement tells of no container that came into being. -/
theorem adopts?_of_cleanup? (hannounced : e.cleanup? = some c) : e.adopts? = none := by
  cases e <;> first | rfl | cases hannounced

/-- What takes nothing back is no warning. -/
theorem ne_cleanupMissing (he : e.isRetraction = false) (k : Kind) (function : String) :
    e ≠ cleanupMissing k function := by
  rintro rfl
  cases he

namespace Reports

/-- A report is on the level of debugging. -/
theorem level (hreports : e.Reports c h) : e.level = .debug := by cases hreports <;> rfl

/-- A report announces no cleanup. -/
theorem cleanup?_eq_none (hreports : e.Reports c h) : e.cleanup? = none := by
  cases hreports <;> rfl

/-- A report takes nothing back. -/
theorem isRetraction_eq_false (hreports : e.Reports c h) : e.isRetraction = false := by
  cases hreports <;> rfl

/-- The container that an event tells of is the one that came into being. -/
theorem adopts?_eq (hreports : e.Reports c h) {a : c.Answer} (hgranted : c.granted a = .ok h) :
    e.adopts? = c.brings? a := by
  have hne : h ≠ .null := Call.ne_null_of_granted hgranted
  rw [Call.brings?, hgranted]
  cases hreports with
  | image options =>
    -- Flat and sliced images are made by two calls.
    have hslot : (Image.newCall options).slotBefore = .null := by
      unfold Image.newCall
      split <;> rfl
    have hyield : (Image.newCall options).yield? = some .image := by
      unfold Image.newCall
      split <;> rfl
    rw [hslot, hyield]
    exact (if_neg hne).symm
  | implicitReset => rfl
  | _ => exact (if_neg hne).symm

end Reports

end Event

/-! ### Candour -/

/-- The event tells, on the level of debugging, of the container that a call brought. -/
def Event.TellsOf (e : Event) (grant : Call × Holding) : Prop :=
  e.level = .debug ∧ e.adopts? = some grant.2 ∧ e.Reports grant.1 grant.2.container.handle

/-- The log tells the truth about the calls: it announces the cleanups that are made, in order; it
    warns of those that cannot be made, where it announced them; and of the events that tell of new
    containers there is one for each that the host made, in order. -/
structure Candid (trace : List Happening) : Prop where
  cleanups : Event.announced (Happening.events trace) =
    (Happening.calls trace).filter Call.isCleanup
  warnings : Event.Grounded (Happening.events trace)
  adoptions : List.Forall₂ Event.TellsOf
    ((Happening.events trace).filter (·.adopts?.isSome)) (Happening.grants trace)

/-- A log of nothing is candid. -/
theorem candid_nil : Candid [] where
  cleanups := rfl
  warnings := Event.grounded_of_no_warning fun _ he => absurd he List.not_mem_nil
  adoptions := .nil

/-- What is told truly in two logs is told truly in both together. -/
theorem Candid.append {trace trace' : List Happening} (h : Candid trace) (h' : Candid trace')
    (hhead : (Happening.events trace').head?.any Event.isRetraction = false) :
    Candid (trace ++ trace') where
  cleanups := by
    rw [Happening.events_append, Happening.calls_append, Event.announced_append hhead,
      List.filter_append, h.cleanups, h'.cleanups]
  warnings := by
    rw [Happening.events_append]
    exact h.warnings.append h'.warnings
  adoptions := by
    rw [Happening.events_append, Happening.grants_append, List.filter_append]
    exact List.rel_append h.adoptions h'.adoptions

variable {ctx : Context}

/-- No turn begins by taking something back. -/
theorem Phrase.head_not_retraction {phrase : List Happening} (h : Phrase ctx phrase) :
    (Happening.events phrase).head?.any Event.isRetraction = false := by
  induction h with
  | reading | refused | added => rfl
  | remark e he => exact Event.isRetraction_of_isRemark he
  | granted c a e h hc hsubjects hgranted hreports => exact hreports.isRetraction_eq_false
  | released e c a hannounced => exact Event.isRetraction_of_cleanup? hannounced
  | withheld e c hannounced => exact Event.isRetraction_of_cleanup? hannounced
  | neverShared => rfl

/-- No speech begins by taking something back. -/
theorem Speech.head_not_retraction {trace : List Happening} (h : Speech ctx trace) :
    (Happening.events trace).head?.any Event.isRetraction = false := by
  induction h with
  | nil => rfl
  | cons first rest ih =>
    rw [Happening.events_append, List.head?_append]
    have hfirst := first.head_not_retraction
    revert hfirst
    cases (Happening.events _).head? with
    | none => exact fun _ => ih
    | some e => exact id

/-- Where the host made nothing, it is enough that nothing is told of. -/
theorem adoptions_of_none {trace : List Happening} (hgrants : Happening.grants trace = [])
    (hevents : ∀ e ∈ Happening.events trace, e.adopts? = none) :
    List.Forall₂ Event.TellsOf ((Happening.events trace).filter (·.adopts?.isSome))
      (Happening.grants trace) := by
  have hnone : (Happening.events trace).filter (·.adopts?.isSome) = [] := by
    rw [List.filter_eq_nil_iff]
    intro e he
    simp [hevents e he]
  rw [hnone, hgrants]
  exact .nil

/-- A call that is no cleanup and brings nothing needs no event. -/
theorem candid_called {c : Call} {a : c.Answer} (hcleanup : c.isCleanup = false)
    (hbrings : c.brings? a = none) : Candid [.called c a] where
  cleanups := by simp [Event.announced, hcleanup]
  warnings := Event.grounded_of_no_warning fun _ he => absurd he List.not_mem_nil
  adoptions :=
    adoptions_of_none (Happening.grants_called [] hbrings) fun _ he => absurd he List.not_mem_nil

/-- An event about neither a cleanup nor a container needs no call. -/
theorem candid_remark {e : Event} (he : e.isRemark) : Candid [.logged e] where
  cleanups := by simp [Event.announced, Event.cleanup?_of_isRemark he]
  warnings := Event.grounded_of_no_warning <| by
    simpa using Event.ne_cleanupMissing (Event.isRetraction_of_isRemark he)
  adoptions := adoptions_of_none rfl <| by simpa using Event.adopts?_of_isRemark he

/-- A container that was made and the event that tells of it. -/
theorem candid_granted {c : Call} {a : c.Answer} {e : Event} {h : Handle} (hc : c.yield?.isSome)
    (hgranted : c.granted a = .ok h) (hreports : e.Reports c h) :
    Candid [.called c a, .logged e] where
  cleanups := by simp [Event.announced, hreports.cleanup?_eq_none, Call.isCleanup_eq_false hc]
  warnings := Event.grounded_of_no_warning <| by
    simpa using Event.ne_cleanupMissing hreports.isRetraction_eq_false
  adoptions := by
    have hadopts : c.brings? a = e.adopts? := (hreports.adopts?_eq hgranted).symm
    cases hbrings : e.adopts? with
    | none =>
      -- An array that was changed in place.
      rw [hbrings] at hadopts
      exact adoptions_of_none (Happening.grants_called _ hadopts) (by simpa using hbrings)
    | some x =>
      have hhandle : x.container.handle = h :=
        Call.handle_of_brings? (hadopts.trans hbrings) hgranted
      have htells : e.TellsOf (c, x) := ⟨hreports.level, hbrings, by rwa [hhandle]⟩
      have hrest : Happening.grants [.logged e] = [] := rfl
      rw [Happening.grants_called _ (hadopts.trans hbrings), hrest]
      simpa [hbrings] using htells

/-- A cleanup and its announcement. -/
theorem candid_released {e : Event} {c : Call} (a : c.Answer) (hannounced : e.cleanup? = some c) :
    Candid [.logged e, .called c a] where
  cleanups := by simp [Event.announced, hannounced, Event.isCleanup_of_cleanup? hannounced]
  warnings := Event.grounded_of_no_warning <| by
    simpa using Event.ne_cleanupMissing (Event.isRetraction_of_cleanup? hannounced)
  adoptions := by
    have hcleanup : c.isCleanup := Event.isCleanup_of_cleanup? hannounced
    have hnone : c.brings? a = none :=
      Call.brings?_of_yield?_eq_none (Call.yield?_of_isCleanup hcleanup)
    refine adoptions_of_none ?_ (by simpa using Event.adopts?_of_cleanup? hannounced)
    rw [Happening.grants_logged, Happening.grants_called [] hnone]
    rfl

/-- A warning and the announcement before it. -/
theorem candid_withheld {e : Event} {c : Call} (hannounced : e.cleanup? = some c) :
    Candid [.logged e, .logged (.cleanupMissing c.entry.table c.entry.function)] where
  cleanups := by simp [Event.announced, Event.isRetraction, Event.cleanup?]
  warnings := by
    intro before after k function hevents
    cases before with
    | nil =>
      -- The announcement is no warning itself.
      obtain ⟨rfl, -⟩ := List.cons.inj hevents
      cases hannounced
    | cons first before =>
      obtain ⟨rfl, hrest⟩ := List.cons.inj hevents
      cases before with
      | nil =>
        obtain ⟨hwarning, -⟩ := List.cons.inj hrest
        obtain ⟨rfl, rfl⟩ := Event.cleanupMissing.inj hwarning
        exact ⟨_, c, rfl, hannounced, rfl⟩
      | cons second before =>
        obtain ⟨-, hnil⟩ := List.cons.inj hrest
        exact absurd hnil.symm (by simp)
  adoptions := adoptions_of_none rfl <|
    List.forall_mem_cons.mpr ⟨Event.adopts?_of_cleanup? hannounced,
      List.forall_mem_singleton.mpr rfl⟩

/-- **In one turn** the log tells the truth. -/
theorem Phrase.candid {phrase : List Happening} (h : Phrase ctx phrase) : Candid phrase := by
  cases h with
  | remark e he => exact candid_remark he
  | reading c a hc =>
    exact candid_called (Call.isCleanup_of_isReading hc)
      (Call.brings?_of_yield?_eq_none (Call.yield?_of_isReading hc))
  | refused c a hc _ refusal hrefused =>
    exact candid_called (Call.isCleanup_eq_false hc) (Call.brings?_of_refused hrefused)
  | granted c a e h hc _ hgranted hreports => exact candid_granted hc hgranted hreports
  | released e c a hannounced => exact candid_released a hannounced
  | withheld e c hannounced => exact candid_withheld hannounced
  | neverShared k h =>
    refine ⟨rfl, Event.grounded_of_no_warning ?_, .nil⟩
    simp
  | added c a hc =>
    exact candid_called (Call.isCleanup_of_isAddition hc)
      (Call.brings?_of_yield?_eq_none (Call.yield?_of_isAddition hc))

/-- **In a whole speech** it does. -/
theorem Speech.candid {trace : List Happening} (h : Speech ctx trace) : Candid trace := by
  induction h with
  | nil => exact candid_nil
  | cons first rest ih => exact first.candid.append ih rest.head_not_retraction

/-! ### Reports -/

/-- In one turn no more is told of containers than was asked for, unless a slot was missing. -/
theorem Phrase.reports_le {phrase : List Happening} (h : Phrase ctx phrase)
    (hslot : ∀ k h, .noResultSlot k h ∉ Happening.events phrase) :
    (Happening.events phrase).countP Event.isReport ≤
      (Happening.calls phrase).countP (·.yield?.isSome) := by
  cases h with
  | remark e he =>
    have hnone : e.isReport = false := by
      cases e with
      | noResultSlot k h => exact absurd (List.mem_singleton_self _) (hslot k h)
      | _ => first | rfl | cases he
    simp [hnone]
  | granted c a e h hc =>
    show [e].countP Event.isReport ≤ [c].countP _
    rw [List.countP_singleton, List.countP_singleton, if_pos hc]
    split <;> omega
  | released e c a hannounced => simp [Event.isReport, hannounced]
  | withheld e c hannounced => simp [Event.isReport, hannounced, Event.level]
  | reading | refused | neverShared | added => exact Nat.zero_le _

/-- In a whole speech neither. -/
theorem Speech.reports_le {trace : List Happening} (h : Speech ctx trace)
    (hslot : ∀ k h, .noResultSlot k h ∉ Happening.events trace) :
    (Happening.events trace).countP Event.isReport ≤
      (Happening.calls trace).countP (·.yield?.isSome) := by
  induction h with
  | nil => exact Nat.le_refl 0
  | cons first rest ih =>
    rw [Happening.events_append] at hslot ⊢
    have hfirst := first.reports_le fun k h hmem => hslot k h (List.mem_append_left _ hmem)
    have hrest := ih fun k h hmem => hslot k h (List.mem_append_right _ hmem)
    rw [Happening.calls_append, List.countP_append, List.countP_append]
    omega

/-! ### One operation -/

/-- What comes into being was asked for. -/
theorem Happening.length_grants_le (trace : List Happening) :
    (grants trace).length ≤ (calls trace).countP (·.yield?.isSome) := by
  induction trace with
  | nil => exact Nat.le_refl 0
  | cons step rest ih =>
    cases step with
    | logged e => exact ih
    | called c a =>
      rw [grants_called rest rfl, calls_called, List.length_append, List.countP_cons]
      cases hyield : c.yield? with
      | none =>
        rw [Call.brings?_of_yield?_eq_none hyield]
        simpa using ih
      | some k =>
        have hone : ((c.brings? a).map (c, ·)).toList.length ≤ 1 := by
          cases c.brings? a <;> simp
        simp only [Option.isSome_some, if_true]
        omega

/-- Where at most one container was made, there is one event that tells of it, or none was made and
    no event tells of any. -/
theorem Candid.adoption {trace : List Happening} (h : Candid trace)
    (hone : (Happening.grants trace).length ≤ 1) :
    (Happening.grants trace = [] ∧ ∀ e ∈ Happening.events trace, e.adopts? = none) ∨
      ∃ e grant, Happening.grants trace = [grant] ∧
        (Happening.events trace).filter (·.adopts?.isSome) = [e] ∧ e.TellsOf grant := by
  have hadoptions := h.adoptions
  match hgrants : Happening.grants trace with
  | [] =>
    rw [hgrants] at hadoptions
    have hnone := List.filter_eq_nil_iff.mp (List.forall₂_nil_right_iff.mp hadoptions)
    exact .inl ⟨rfl, fun e he => by simpa using hnone e he⟩
  | [grant] =>
    rw [hgrants] at hadoptions
    obtain ⟨e, rest, htells, hrest, hevents⟩ := List.forall₂_cons_right_iff.mp hadoptions
    obtain rfl := List.forall₂_nil_right_iff.mp hrest
    exact .inr ⟨e, grant, rfl, hevents, htells⟩
  | _ :: _ :: _ =>
    rw [hgrants, List.length_cons, List.length_cons] at hone
    omega

/-- Where no more than one report was made, the event that tells of a container is the only one of
    debugging that carries its handle, but for those that announce a cleanup. -/
theorem filter_carries_eq_singleton {events : List Event} {e : Event} {grant : Call × Holding}
    (hone : events.countP Event.isReport ≤ 1) (hmem : e ∈ events) (htells : e.TellsOf grant) :
    events.filter (fun other =>
      other.level = .debug ∧ other.cleanup? = none ∧ other.carries grant.2) = [e] := by
  obtain ⟨hlevel, hadopts, hreports⟩ := htells
  have hcarries : e.carries grant.2 := Event.carries_of_adopts? hadopts
  have hnamed : e.resources ≠ [] := List.ne_nil_of_mem (decide_eq_true_iff.mp hcarries)
  have hcleanup : e.cleanup? = none := hreports.cleanup?_eq_none
  have hreport : e ∈ events.filter Event.isReport :=
    List.mem_filter.mpr ⟨hmem, decide_eq_true ⟨hlevel, hcleanup, hnamed⟩⟩
  have hreported : events.filter Event.isReport = [e] := by
    have hpos := List.length_pos_of_mem hreport
    rw [List.countP_eq_length_filter] at hone
    obtain ⟨other, hall⟩ := List.length_eq_one_iff.mp (Nat.le_antisymm hone hpos)
    rw [hall, List.mem_singleton] at hreport
    rw [hall, hreport]
  -- What carries the handle is a report, so that it is found among the reports.
  have hfilter : events.filter (fun other =>
      other.level = .debug ∧ other.cleanup? = none ∧ other.carries grant.2) =
      (events.filter Event.isReport).filter fun other => other.carries grant.2 := by
    rw [List.filter_filter]
    refine List.filter_congr fun other _ => ?_
    cases hother : other.carries grant.2 with
    | false => simp
    | true =>
      have hnamed : other.resources ≠ [] := List.ne_nil_of_mem (decide_eq_true_iff.mp hother)
      simp [Event.isReport, hnamed]
  rw [hfilter, hreported, List.filter_cons_of_pos hcarries, List.filter_nil]

/-- A pass calls nothing. -/
theorem Happening.calls_of_pass {trace : List Happening} (h : ∀ x ∈ trace, x.Allowed ctx true) :
    calls trace = [] := by
  refine List.filterMap_eq_nil_iff.mpr fun x hx => ?_
  cases x with
  | logged e => rfl
  | called c a => cases (h _ hx).1

/-- Nothing but a pass says that there is no slot. -/
theorem Happening.noResultSlot_notMem {trace : List Happening}
    (h : ∀ x ∈ trace, x.Allowed ctx false) (k : Kind) (handle : Handle) :
    .noResultSlot k handle ∉ events trace := by
  intro hmem
  obtain ⟨x, hx, hevent⟩ := List.mem_filterMap.mp hmem
  cases x with
  | called c a => cases hevent
  | logged e =>
    obtain rfl := Option.some.inj hevent
    exact absurd (h _ hx) Bool.false_ne_true

namespace Operation

variable {σ : Type} {w : Workspace}

/-- Each of the operations that are carried out one after the other is a speech, asks for one
    container at most and takes only steps that it may take. -/
theorem deeds_speech (hw : w.Proper) (host : Host σ) (s : σ) (ops : List Operation) :
    ∀ d ∈ deeds ctx host w s ops,
      Speech ctx d.trace ∧ (Happening.calls d.trace).countP (·.yield?.isSome) ≤ 1 ∧
        ∀ x ∈ d.trace, x.Allowed ctx d.op.isPass := by
  induction ops generalizing w s with
  | nil => exact fun _ hd => absurd hd List.not_mem_nil
  | cons op rest ih =>
    let run := (op.perform ctx w).run host s
    have hfirst : Speech ctx run.trace ∧ Outcome.Proper run.value :=
      (perform_orderly hw op).run host s
    have hrequests : (Happening.calls run.trace).countP (·.yield?.isSome) ≤ 1 :=
      (perform_requests op).run host s
    have hallowed : ∀ x ∈ run.trace, x.Allowed ctx op.isPass := (perform_allowed op).run host s
    rw [deeds, List.forall_mem_cons]
    exact ⟨⟨hfirst.1, hrequests, hallowed⟩, ih hfirst.2.2 _⟩

/-- **The log tells the truth.** Take any host, any tables and any operations, and let go of all
    variables at the end.  The log announces the cleanups that were made, in order, and warns of
    those that could not be made right behind their announcement; and of the events that tell of
    new containers there is one for each that the host made.  The same holds within each operation,
    which either obtains no container and tells of none, or obtains one and tells of it by exactly
    one event.  No other event of debugging carries the handle that was obtained, but for those that
    announce a cleanup. -/
theorem log_tells_truth (ctx : Context) (host : Host σ) (s : σ)
    (handles : List (String × Handle)) (ops : List Operation) :
    let run := (performAll ctx { handles } ops).run host s
    let finish := (run.value.2.dropAll ctx).run host run.state
    Candid (run.trace ++ finish.trace) ∧
    ∀ d ∈ deeds ctx host { handles } s ops, Candid d.trace ∧
      ((Happening.grants d.trace = [] ∧ ∀ e ∈ Happening.events d.trace, e.adopts? = none) ∨
        ∃ e grant, Happening.grants d.trace = [grant] ∧
          (Happening.events d.trace).filter (·.adopts?.isSome) = [e] ∧ e.TellsOf grant ∧
          (Happening.events d.trace).filter (fun other =>
            other.level = .debug ∧ other.cleanup? = none ∧ other.carries grant.2) = [e]) := by
  intro run finish
  have hproper : ({ handles } : Workspace).Proper := Workspace.proper_empty handles
  have hrun : Speech ctx run.trace := ((performAll_orderly hproper ops).run host s).1
  have hfinish : Speech ctx finish.trace :=
    ((Workspace.dropAll_orderly run.value.2).run host run.state).1
  refine ⟨(hrun.append hfinish).candid, fun d hd => ?_⟩
  obtain ⟨hspeech, hrequests, hallowed⟩ := deeds_speech hproper host s ops d hd
  have hgrants := Happening.length_grants_le d.trace
  refine ⟨hspeech.candid, (hspeech.candid.adoption (Nat.le_trans hgrants hrequests)).imp_right ?_⟩
  rintro ⟨e, grant, hgrant, hadoption, htells⟩
  refine ⟨e, grant, hgrant, hadoption, htells, filter_carries_eq_singleton ?_ ?_ htells⟩
  · cases hpass : d.op.isPass with
    | true =>
      -- A pass obtains nothing, as it calls nothing.
      rw [hpass] at hallowed
      rw [hgrant, Happening.calls_of_pass hallowed] at hgrants
      cases hgrants
    | false =>
      rw [hpass] at hallowed
      have hreports := hspeech.reports_le (Happening.noResultSlot_notMem hallowed)
      exact Nat.le_trans hreports hrequests
  · have hmem : e ∈ (Happening.events d.trace).filter (·.adopts?.isSome) := by
      rw [hadoption]
      exact List.mem_singleton_self e
    exact List.mem_of_mem_filter hmem

/-- Cleanups carry the handle as well: a copy is made for a store, and destroyed as soon as the
    entry by which it is added turns out to be missing, so that two events of debugging in one push
    carry the handle of the copy. -/
theorem copy_carried_twice :
    let ctx : Context := ⟨Version.tables, fun _ => true, (· != .add false "tensor")⟩
    let depot : Depot := (({} : Depot).stock (.tensor 2 [2])).2
    let ops := [wrap .tensor (.named "h") (.ownership .hostManaged) "t", new .dataStore "s",
      push "s" none (.variable "t")]
    let deeds := deeds ctx Depot.host { handles := [("h", .ofNumber 1)] } depot ops
    let carriers (d : Deed) : List (List Event) := (Happening.grants d.trace).map fun grant =>
      (Happening.events d.trace).filter fun e => e.level = .debug ∧ e.carries grant.2
    deeds.map carriers = [[], [[.createdStore (.ofNumber 2)]],
      [[.cloned .tensor (.ofNumber 1) (.ofNumber 3), .destroying .tensor (.ofNumber 3)]]] ∧
    ¬∀ d ∈ deeds, ∀ events ∈ carriers d, ∃ e, events = [e] := by
  intro ctx depot ops deeds carriers
  have hcarriers : deeds.map carriers = [[], [[.createdStore (.ofNumber 2)]],
      [[.cloned .tensor (.ofNumber 1) (.ofNumber 3), .destroying .tensor (.ofNumber 3)]]] := by
    decide +kernel
  refine ⟨hcarriers, fun hone => ?_⟩
  have hlast : [[.cloned .tensor (.ofNumber 1) (.ofNumber 3), .destroying .tensor (.ofNumber 3)]] ∈
      deeds.map carriers := by
    rw [hcarriers]
    exact List.mem_of_getLast? rfl
  obtain ⟨push, hpush, hevents⟩ := List.mem_map.mp hlast
  obtain ⟨e, he⟩ := hone push hpush _ (hevents ▸ List.mem_singleton_self _)
  cases he

end Operation

end Custody
