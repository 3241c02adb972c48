import Custody.Proofs.Absence
import Custody.Proofs.Postings

namespace Custody

open Dialogue Happening

/-!
# The outcome of a push

A push looks at the store, the name, the table, the value, a copy and an entry, in this order, and
may fail at each of them.  By then a container may have been copied, and the original may be gone.
What a push comes to is written down here without its steps: what is objected to first, who is
cleaned up after, and what is added.

* `verdict` -- an outcome as the first objection of a list;
* `DataStore.objections` -- everything that can be objected to a push, in order;
* `Value.leftovers` -- the containers that are nobody's after a push;
* `DataStore.pushCalls` -- the calls of a push: the copy, the entry and the cleanups;
* `Container.transferable_comesTo`, `DataStore.addPlain_comesTo`, `DataStore.addContainer_comesTo`
  -- what the parts of a push come to;
* `DataStore.push_outcome` -- **the complete outcome of a push**.
-/

/-! ### Objections -/

/-- The outcome of checks that are made one after the other: the first objection, if there is
    one. -/
def verdict : List (Option Error) → Except Error Unit
  | [] => .ok ()
  | none :: rest => verdict rest
  | some e :: _ => .error e

@[simp] theorem verdict_nil : verdict [] = .ok () := rfl

@[simp] theorem verdict_none_cons (rest : List (Option Error)) :
    verdict (none :: rest) = verdict rest := rfl

@[simp] theorem verdict_some_cons (e : Error) (rest : List (Option Error)) :
    verdict (some e :: rest) = .error e := rfl

/-- Later objections count if there are no earlier ones. -/
theorem verdict_append (first second : List (Option Error)) :
    verdict (first ++ second) = verdict first >>= fun _ => verdict second := by
  induction first with
  | nil => rfl
  | cons objection first ih =>
    cases objection with
    | none => exact ih
    | some e => rfl

/-- Nothing is objected to exactly if there is no objection in the list. -/
theorem verdict_eq_ok_iff {objections : List (Option Error)} :
    verdict objections = .ok () ↔ ∀ objection ∈ objections, objection = none := by
  induction objections with
  | nil => simp
  | cons objection rest ih => cases objection <;> simp [ih]

/-- A failure is one of the objections. -/
theorem mem_of_verdict {objections : List (Option Error)} {e : Error}
    (h : verdict objections = .error e) : some e ∈ objections := by
  induction objections with
  | nil => cases h
  | cons objection rest ih =>
    cases objection with
    | none => exact List.mem_cons_of_mem _ (ih h)
    | some e' =>
      obtain rfl : e' = e := Except.error.inj h
      exact List.mem_cons_self

/-- The objection to a text: the host would cut it at its first NUL. -/
def textFault? (text : String) : Option Error :=
  (Text.nulOffset? text.toList).map fun offset => .invalidArgument (.nulByte offset)

/-- The check of a text, as a list of one objection. -/
theorem checkTerminated_eq (text : String) : checkTerminated text = verdict [textFault? text] := by
  unfold checkTerminated textFault?
  cases Text.nulOffset? text.toList <;> rfl

section Objections

variable {σ : Type} (ctx : Context) (host : Host σ) (s : σ)

/-- The copy that the host makes of a container at this moment, or why it makes none. -/
def Container.copied {k : Kind} (c : Container k) : Except Error (Container k) :=
  ((c.tryClone ctx).run.run host s).value

namespace Value

/-- The objection to a value: text with a NUL, and an empty container. -/
def fault? : Value → Option Error
  | .plain (.string text) => textFault? text
  | .plain _ => none
  | .container k c => if c.isNull then some (.invalidArgument (.emptyValue k)) else none

/-- The objection to a container that has to be copied and cannot be. -/
def copyFault? : Value → Option Error
  | .plain _ => none
  | .container _ c =>
    if c.ownership = .callerOwned then none
    else match c.copied ctx host s with
      | .ok _ => none
      | .error e => some e

/-- The entry that adds a value, with or without a name. -/
def entry (named : Bool) : Value → Entry
  | .plain value => .add named value.typeName
  | .container k _ => .add named k.tableName

/-- The objection to a value for which the host has no entry. -/
def entryFault? (named : Bool) (value : Value) : Option Error :=
  if ctx.hasEntry (value.entry named) then none
  else some (.missingFunction .dataStore (value.entry named).function)

end Value

namespace DataStore

/-- What can be objected to before the value is looked at. -/
def storeObjections (d : DataStore) (name : Option String) : List (Option Error) :=
  [ if d.isNull then some (.invalidArgument .emptyStore) else none,
    name.bind textFault?,
    if ctx.hasTable .dataStore then none else some .hostUnavailable ]

/-- What can be objected to the value. -/
def valueObjections (name : Option String) (value : Value) : List (Option Error) :=
  [value.fault?, value.copyFault? ctx host s, value.entryFault? ctx name.isSome]

/-- Whether a push comes as far as calling the host. -/
def begins (d : DataStore) (name : Option String) (value : Value) : Bool :=
  (verdict (storeObjections ctx d name ++ [value.fault?])).isOk

/-- **Everything that can be objected to a push**, in order. -/
def objections (d : DataStore) (name : Option String) (value : Value) : List (Option Error) :=
  storeObjections ctx d name ++ valueObjections ctx host s name value

end DataStore

/-! ### What becomes of a container -/

namespace Value

/-- The copy that is asked for if nothing is objected to early. -/
def copying : Value → List Call
  | .plain _ => []
  | .container k c => if c.ownership = .callerOwned then [] else [.clone k c.handle]

/-- The containers that nobody has after a push.  A container of the caller was handed over unless
    the push failed.  Any other is given up in any case; its copy, if it came to one, was handed
    over unless the push failed. -/
def leftovers (started failed : Bool) : Value → List Holding
  | .plain _ => []
  | .container k c =>
    if c.ownership = .callerOwned then
      if failed then [⟨k, c⟩] else []
    else
      ⟨k, c⟩ :: if started && failed then
        match c.copied ctx host s with
        | .ok copy => [⟨k, copy⟩]
        | .error _ => []
      else []

end Value

/-- The calls of a push that comes to `outcome`, where `started` says whether the value was in
    order: the copy, the cleanups, and the addition if there is one. -/
def DataStore.pushCalls (d : DataStore) (name : Option String) (value : Value) (started : Bool)
    (outcome : Except Error Unit) : List Call :=
  ctx.offered ((if started then value.copying else []) ++
      (value.leftovers ctx host s started (!outcome.isOk)).filterMap Holding.release?) ++
    if outcome.isOk then [.add d.handle name (value.item ctx host s)] else []

end Objections

section Parts

variable {σ : Type} (ctx : Context) (host : Host σ) (s : σ)

/-! ### The parts of a push -/

namespace Container

variable {k : Kind} (c : Container k)

/-- Copying a container that is not empty asks for the copy, if the host makes any. -/
theorem tryClone_comesTo (hnull : c.isNull = false) :
    (c.tryClone ctx).run.ComesTo host s (c.copied ctx host s)
      (ctx.offered [.clone k c.handle]) := by
  refine ⟨rfl, ?_⟩
  rw [tryClone_run, hnull, if_neg Bool.false_ne_true, obtain_run, Context.offered_cons]
  cases hentry : ctx.require (Call.clone k c.handle).entry with
  | error e =>
    have hmissing : ¬ctx.provides (Call.clone k c.handle).entry := by
      rw [Context.provides_iff, hentry]
      exact nofun
    rw [if_neg hmissing]
    rfl
  | ok _ =>
    rw [if_pos (Context.provides_iff.mpr hentry), checked_ok, adopt_run, run_call]
    split <;> rfl

/-- A copy belongs to the caller, so that it is destroyed when it goes away. -/
theorem release?_of_copied (hnull : c.isNull = false) {copy : Container k}
    (hcopied : c.copied ctx host s = .ok copy) :
    (⟨k, copy⟩ : Holding).release? = some (.free k copy.handle) := by
  rw [copied, tryClone_run, hnull, if_neg Bool.false_ne_true, obtain_run] at hcopied
  cases hentry : ctx.require (Call.clone k c.handle).entry with
  | error e =>
    rw [hentry] at hcopied
    cases hcopied
  | ok _ =>
    rw [hentry, checked_ok, adopt_run, run_call] at hcopied
    split at hcopied
    · cases hcopied
    · next h hgranted =>
      have hcopy : fresh h = copy := Except.ok.inj hcopied
      rw [← hcopy]
      exact if_neg (by simpa [fresh, isNull] using Shape.ne_null_of_granted hgranted)

/-- What a store can take over, and what is done for it. -/
theorem transferable_comesTo :
    (c.transferable ctx).ComesTo host s
      (if c.isNull then .error (.invalidArgument (.emptyValue k))
        else if c.ownership = .callerOwned then .ok c else c.copied ctx host s)
      (if c.isNull ∨ c.ownership = .callerOwned then []
        else ctx.offered ([.clone k c.handle] ++ (⟨k, c⟩ : Holding).release?.toList)) := by
  rw [transferable_eq]
  cases hnull : c.isNull with
  | true => exact comesTo_done _
  | false =>
    by_cases howned : c.ownership = .callerOwned
    · simp only [howned, Bool.false_eq_true, ↓reduceIte, or_true]
      exact comesTo_done _
    · simp only [howned, Bool.false_eq_true, ↓reduceIte, or_self]
      rw [Context.offered_append]
      exact comesTo_log ((c.tryClone_comesTo ctx host s hnull).bind
        ((c.cleanup_comesTo ctx host _).bind_quiet fun _ => comesTo_done _))

end Container

namespace DataStore

variable (d : DataStore) (name : Option String)

/-- The checks before a push are the first objections. -/
theorem checkPush_verdict : checkPush ctx d name = verdict (storeObjections ctx d name) := by
  have htable : ctx.requireTable .dataStore =
      verdict [if ctx.hasTable .dataStore then none else some .hostUnavailable] := by
    unfold Context.requireTable
    cases ctx.hasTable .dataStore <;> rfl
  rw [storeObjections]
  cases hnull : d.isNull with
  | true =>
    rw [checkPush, hnull]
    rfl
  | false =>
    rw [checkPush, hnull]
    cases name with
    | none => exact htable
    | some text =>
      show (checkTerminated text >>= fun _ => ctx.requireTable .dataStore) = _
      rw [checkTerminated_eq, htable, ← verdict_append]
      rfl

/-- If the table is there, nothing but the entry can be missing. -/
theorem require_verdict (htable : ctx.hasTable .dataStore = true) (named : Bool) (value : Value) :
    ctx.require (value.entry named) = verdict [value.entryFault? ctx named] := by
  have hentry : (value.entry named).table = .dataStore := by cases value <;> rfl
  rw [Context.require_eq, hentry, htable, Value.entryFault?]
  cases ctx.hasEntry (value.entry named) <;> rfl

/-- What adding a plain value comes to. -/
theorem addPlain_comesTo (htable : ctx.hasTable .dataStore = true) (value : Plain) :
    (d.addPlain ctx name value).ComesTo host s
      (verdict (valueObjections ctx host s name (.plain value)))
      (d.pushCalls ctx host s name (.plain value) (Value.plain value).fault?.isNone
        (verdict (valueObjections ctx host s name (.plain value)))) := by
  have hplain : addPlain.checkPlain value = verdict [(Value.plain value).fault?] := by
    cases value with
    | string text => exact checkTerminated_eq text
    | _ => rfl
  have hcheck : (addPlain.checkPlain value >>= fun _ =>
      ctx.require (Call.add d.handle name (.plain value)).entry) =
        verdict (valueObjections ctx host s name (.plain value)) := by
    have hrequire := require_verdict ctx htable name.isSome (.plain value)
    rw [show (Call.add d.handle name (.plain value)).entry = (Value.plain value).entry name.isSome
      from rfl, hplain, hrequire, ← verdict_append]
    cases hfault : (Value.plain value).fault? <;> simp [valueObjections, hfault, Value.copyFault?]
  rw [addPlain_eq, hcheck, pushCalls]
  -- A plain value is never copied.
  have hcopying : (if (Value.plain value).fault?.isNone then Value.copying (.plain value) else []) =
    [] := ite_self _
  rw [hcopying]
  cases verdict (valueObjections ctx host s name (.plain value)) with
  | error e => exact comesTo_done _
  | ok _ => exact comesTo_call (comesTo_done _)

/-! ### Calls of a push -/

/-- The cleanups after containers begin with that of the first. -/
theorem filterMap_release?_cons (x : Holding) (xs : List Holding) :
    (x :: xs).filterMap Holding.release? = x.release?.toList ++ xs.filterMap Holding.release? := by
  rw [List.filterMap_eq_flatMap_toList, List.flatMap_cons, ← List.filterMap_eq_flatMap_toList]

section Container

variable {k : Kind} {c copy : Container k}

/-- A container that was not looked at goes away. -/
theorem pushCalls_refused (e : Error) :
    d.pushCalls ctx host s name (.container k c) false (.error e) =
      ctx.offered (⟨k, c⟩ : Holding).release?.toList := by
  by_cases howned : c.ownership = .callerOwned <;>
    simp [pushCalls, Value.leftovers, howned, filterMap_release?_cons, Except.isOk, Except.toBool]

/-- A container of the caller is added, or it goes away. -/
theorem pushCalls_owned (howned : c.ownership = .callerOwned) (fault : Option Error) :
    d.pushCalls ctx host s name (.container k c) true (verdict [fault]) =
      match fault with
      | none => [.add d.handle name (.container k c.handle)]
      | some _ => ctx.offered (⟨k, c⟩ : Holding).release?.toList := by
  cases fault <;>
    simp [pushCalls, Value.copying, Value.leftovers, Value.item, Container.handedOver, howned,
      filterMap_release?_cons, Except.isOk, Except.toBool]

/-- A container that could not be copied goes away. -/
theorem pushCalls_uncopied (howned : c.ownership ≠ .callerOwned) {e : Error}
    (hcopied : c.copied ctx host s = .error e) :
    d.pushCalls ctx host s name (.container k c) true (.error e) =
      ctx.offered ([.clone k c.handle] ++ (⟨k, c⟩ : Holding).release?.toList) := by
  simp [pushCalls, Value.copying, Value.leftovers, howned, filterMap_release?_cons, Except.isOk,
    Except.toBool, hcopied, Context.offered_cons]

/-- A container that was copied goes away, and the copy is added, or it goes away too. -/
theorem pushCalls_copied (howned : c.ownership ≠ .callerOwned)
    (hcopied : c.copied ctx host s = .ok copy) (fault : Option Error) :
    d.pushCalls ctx host s name (.container k c) true (verdict [fault]) =
      ctx.offered ([.clone k c.handle] ++ (⟨k, c⟩ : Holding).release?.toList) ++
        match fault with
        | none => [.add d.handle name (.container k copy.handle)]
        | some _ => ctx.offered (⟨k, copy⟩ : Holding).release?.toList := by
  have hitem : (Value.container k c).item ctx host s = .container k copy.handle := by
    rw [Container.copied] at hcopied
    simp [Value.item, Container.handedOver, howned, hcopied]
  cases fault <;>
    simp [pushCalls, Value.copying, Value.leftovers, howned, filterMap_release?_cons, Except.isOk,
      Except.toBool, hcopied, hitem, Context.offered_cons]

end Container

/-- A container that is ready is given up if its entry is there, and goes away if it is not. -/
theorem handOver_comesTo (htable : ctx.hasTable .dataStore = true) {k : Kind}
    (c owned : Container k) :
    (match ctx.require (.add name.isSome k.tableName) with
      | .error e => (owned.cleanup ctx).bind fun _ => .done (.error e)
      | .ok _ => .log (.relinquishing k owned.handle owned.ownership)
          (.call (.add d.handle name (.container k owned.handle)) fun _ => .done (.ok ())) :
      Dialogue (Except Error Unit)).ComesTo host s
      (verdict [(Value.container k c).entryFault? ctx name.isSome])
      (match (Value.container k c).entryFault? ctx name.isSome with
        | none => [.add d.handle name (.container k owned.handle)]
        | some _ => ctx.offered (⟨k, owned⟩ : Holding).release?.toList) := by
  have hrequire := require_verdict ctx htable name.isSome (.container k c)
  rw [Value.entry] at hrequire
  rw [hrequire]
  cases (Value.container k c).entryFault? ctx name.isSome with
  | none => exact comesTo_log (comesTo_call (comesTo_done _))
  | some e => exact (owned.cleanup_comesTo ctx host s).bind_quiet fun _ => comesTo_done _

/-- What adding a container comes to. -/
theorem addContainer_comesTo (htable : ctx.hasTable .dataStore = true) {k : Kind}
    (c : Container k) :
    (d.addContainer ctx name c).ComesTo host s
      (verdict (valueObjections ctx host s name (.container k c)))
      (d.pushCalls ctx host s name (.container k c) (Value.container k c).fault?.isNone
        (verdict (valueObjections ctx host s name (.container k c)))) := by
  have hready := c.transferable_comesTo ctx host s
  rw [addContainer_eq, valueObjections]
  -- An empty container is refused, one of the caller is handed over as it is, and any other is
  -- copied first.
  cases hnull : c.isNull with
  | true =>
    -- Nobody cleans up after an empty container.
    have hrelease : (⟨k, c⟩ : Holding).release? = none := if_pos hnull
    have hfault : (Value.container k c).fault? = some (.invalidArgument (.emptyValue k)) :=
      if_pos hnull
    rw [if_pos hnull, if_pos (.inl hnull)] at hready
    rw [hfault, verdict_some_cons, Option.isNone_some, pushCalls_refused, hrelease]
    exact hready.bind_quiet fun _ => comesTo_done _
  | false =>
    have hfault : (Value.container k c).fault? = none := if_neg (by simp [hnull])
    rw [hnull, if_neg Bool.false_ne_true] at hready
    rw [hfault, verdict_none_cons, Option.isNone_none]
    by_cases howned : c.ownership = .callerOwned
    · have hcopy : (Value.container k c).copyFault? ctx host s = none := if_pos howned
      rw [if_pos howned, if_pos (.inr howned)] at hready
      rw [hcopy, verdict_none_cons, pushCalls_owned ctx host s d name howned]
      exact hready.bind (handOver_comesTo ctx host _ d name htable c c)
    · rw [if_neg howned, if_neg (by simp [howned])] at hready
      cases hcopied : c.copied ctx host s with
      | error e =>
        have hcopy : (Value.container k c).copyFault? ctx host s = some e := by
          simp [Value.copyFault?, howned, hcopied]
        rw [hcopied] at hready
        rw [hcopy, verdict_some_cons, pushCalls_uncopied ctx host s d name howned hcopied]
        exact hready.bind_quiet fun _ => comesTo_done _
      | ok copy =>
        have hcopy : (Value.container k c).copyFault? ctx host s = none := by
          simp [Value.copyFault?, howned, hcopied]
        rw [hcopied] at hready
        rw [hcopy, verdict_none_cons, pushCalls_copied ctx host s d name howned hcopied]
        exact hready.bind (handOver_comesTo ctx host _ d name htable c copy)

/-- The host is called for no container that is empty. -/
theorem isNull_of_begins {k : Kind} {c : Container k}
    (h : begins ctx d name (.container k c) = true) : c.isNull = false := by
  rw [begins, verdict_append] at h
  cases hnull : c.isNull with
  | false => rfl
  | true =>
    have hfault : (Value.container k c).fault? = some (.invalidArgument (.emptyValue k)) :=
      if_pos hnull
    rw [hfault] at h
    cases hstore : verdict (storeObjections ctx d name) <;> rw [hstore] at h <;> cases h

/-- A push that is refused lets go of the value. -/
theorem drop_comesTo (value : Value) (e : Error) :
    (value.drop ctx).ComesTo host s () (d.pushCalls ctx host s name value false (.error e)) := by
  cases value with
  | plain value => exact comesTo_done ()
  | container k c =>
    rw [pushCalls_refused]
    exact c.cleanup_comesTo ctx host s

/-- The parts of a push put together. -/
theorem push_comesTo (value : Value) :
    (d.push ctx name value).ComesTo host s (verdict (objections ctx host s d name value))
      (d.pushCalls ctx host s name value (begins ctx d name value)
        (verdict (objections ctx host s d name value))) := by
  have hcheck := checkPush_verdict ctx d name
  rw [push_eq, hcheck, objections, begins, verdict_append, verdict_append]
  cases hstore : verdict (storeObjections ctx d name) with
  | error e => exact (d.drop_comesTo ctx host s name value e).bind_quiet fun _ => comesTo_done _
  | ok _ =>
    -- The store was not objected to, so the table is there.
    have htable : ctx.hasTable .dataStore = true := by
      have hnone := verdict_eq_ok_iff.mp hstore
        (if ctx.hasTable .dataStore then none else some .hostUnavailable)
        (by simp [storeObjections])
      by_contra hmissing
      rw [if_neg hmissing] at hnone
      cases hnone
    have hbegins : ((.ok () : Except Error Unit) >>= fun _ => verdict [value.fault?]).isOk =
        value.fault?.isNone := by
      cases value.fault? <;> rfl
    have hadd : (d.add ctx name value).ComesTo host s
        (verdict (valueObjections ctx host s name value))
        (d.pushCalls ctx host s name value value.fault?.isNone
          (verdict (valueObjections ctx host s name value))) := by
      cases value with
      | plain value => exact d.addPlain_comesTo ctx host s name htable value
      | container k c => exact d.addContainer_comesTo ctx host s name htable c
    rw [hbegins]
    show ComesTo host s _ (verdict (valueObjections ctx host s name value))
      (d.pushCalls ctx host s name value value.fault?.isNone
          (verdict (valueObjections ctx host s name value)))
    -- What follows the addition is at most a report, and adds no call.
    cases houtcome : verdict (valueObjections ctx host s name value) with
    | error e =>
      rw [houtcome] at hadd
      exact hadd.bind_quiet fun _ => comesTo_done _
    | ok _ =>
      rw [houtcome] at hadd
      exact hadd.bind_quiet fun _ => comesTo_log (comesTo_done _)

/-! ### The complete outcome -/

/-- A choice of the calls of a push: the copy is neither a cleanup nor an addition, and the three
    parts of the calls stay in order. -/
theorem filter_pushCalls {p : Call → Bool} (hclone : ∀ k h, p (.clone k h) = false)
    (value : Value) (started : Bool) (outcome : Except Error Unit) :
    (d.pushCalls ctx host s name value started outcome).filter p =
      ctx.offered (((value.leftovers ctx host s started (!outcome.isOk)).filterMap
        Holding.release?).filter p) ++
      (if outcome.isOk then [.add d.handle name (value.item ctx host s)] else []).filter p := by
  have hoffered : ∀ calls, (ctx.offered calls).filter p = ctx.offered (calls.filter p) :=
    fun calls => List.filter_comm _ _ calls
  have hcopying : (if started then value.copying else []).filter p = [] := by
    cases value with
    | plain value => cases started <;> rfl
    | container k c =>
      rw [Value.copying]
      cases started <;> split <;> simp [hclone]
  rw [pushCalls, List.filter_append, hoffered, List.filter_append, hcopying, List.nil_append]

/-- A push makes one addition if it succeeds, and none if it fails. -/
theorem additions_pushCalls (value : Value) (started : Bool) (outcome : Except Error Unit) :
    (d.pushCalls ctx host s name value started outcome).filter Call.isAddition =
      if outcome.isOk then [.add d.handle name (value.item ctx host s)] else [] := by
  have hnone : ∀ c ∈ (value.leftovers ctx host s started (!outcome.isOk)).filterMap
      Holding.release?, ¬c.isAddition = true := by
    intro c hc
    obtain ⟨x, -, hx⟩ := List.mem_filterMap.mp hc
    simp [(Holding.isCleanup_of_release? hx).2]
  rw [filter_pushCalls ctx host s d name fun _ _ => rfl, List.filter_eq_nil_iff.mpr hnone]
  split <;> rfl

/-- A push cleans up after what is left over, and after nothing else. -/
theorem cleanups_pushCalls (value : Value) (started : Bool) (outcome : Except Error Unit) :
    (d.pushCalls ctx host s name value started outcome).filter Call.isCleanup =
      ctx.offered ((value.leftovers ctx host s started (!outcome.isOk)).filterMap
        Holding.release?) := by
  have hall : ∀ c ∈ (value.leftovers ctx host s started (!outcome.isOk)).filterMap
      Holding.release?, c.isCleanup = true := by
    intro c hc
    obtain ⟨x, -, hx⟩ := List.mem_filterMap.mp hc
    exact (Holding.isCleanup_of_release? hx).1
  have hadded : (if outcome.isOk then [Call.add d.handle name (value.item ctx host s)]
      else []).filter Call.isCleanup = [] := by
    split <;> rfl
  rw [filter_pushCalls ctx host s d name fun _ _ => rfl, List.filter_eq_self.mpr hall, hadded,
    List.append_nil]

/-- A container of the caller is destroyed if the push fails, and otherwise not. -/
theorem cleanups_of_owned {k : Kind} {c : Container k} (howned : c.ownership = .callerOwned)
    (started succeeded : Bool) :
    ctx.offered (((Value.container k c).leftovers ctx host s started (!succeeded)).filterMap
        Holding.release?) =
      if succeeded || c.isNull then [] else ctx.offered [.free k c.handle] := by
  cases succeeded with
  | true => simp [Value.leftovers, howned]
  | false => cases hnull : c.isNull <;> simp [Value.leftovers, howned, Holding.release?, hnull]

/-- Any other container is given up, and its copy is destroyed if the push fails. -/
theorem cleanups_of_not_owned {k : Kind} {c : Container k} (howned : c.ownership ≠ .callerOwned)
    {started : Bool} (hnull : started = true → c.isNull = false) (succeeded : Bool) :
    ctx.offered (((Value.container k c).leftovers ctx host s started (!succeeded)).filterMap
        Holding.release?) =
      ctx.offered ((⟨k, c⟩ : Holding).release?.toList ++
        match started && !succeeded, c.copied ctx host s with
        | true, .ok copy => [.free k copy.handle]
        | _, _ => []) := by
  rw [Value.leftovers, if_neg howned, filterMap_release?_cons]
  cases hfailed : started && !succeeded with
  | false => rfl
  | true =>
    cases hcopied : c.copied ctx host s with
    | error e => rfl
    | ok copy =>
      have hstarted : started = true := (Bool.and_eq_true_iff.mp hfailed).1
      have hcopy := c.release?_of_copied ctx host s (hnull hstarted) hcopied
      simp [hcopy]

/-- **The complete outcome of a push.** Take any store, name and value, any tables and any host.  A
    push comes to the first of its objections.  Apart from a copy and from cleanups it makes one
    call if it succeeds, which adds the value to the store under the name, and none if it fails.
    What is cleaned up after are the containers that are nobody's in the end: a container of the
    caller is destroyed if the push fails, and otherwise not; any other is given up as its tag says,
    and its copy is destroyed if there is one and the push fails. -/
theorem push_outcome (value : Value) :
    let run := (d.push ctx name value).run host s
    let outcome := verdict (objections ctx host s d name value)
    let leftovers := value.leftovers ctx host s (begins ctx d name value) (!outcome.isOk)
    run.value = outcome ∧
    run.calls = d.pushCalls ctx host s name value (begins ctx d name value) outcome ∧
    run.calls.filter Call.isAddition =
      (if outcome.isOk then [.add d.handle name (value.item ctx host s)] else []) ∧
    run.calls.filter Call.isCleanup = ctx.offered (leftovers.filterMap Holding.release?) ∧
    ∀ k (c : Container k), value = .container k c →
      (c.ownership = .callerOwned → run.calls.filter Call.isCleanup =
        if outcome.isOk || c.isNull then [] else ctx.offered [.free k c.handle]) ∧
      (c.ownership ≠ .callerOwned → run.calls.filter Call.isCleanup =
        ctx.offered ((⟨k, c⟩ : Holding).release?.toList ++
          match begins ctx d name value && !outcome.isOk, c.copied ctx host s with
          | true, .ok copy => [.free k copy.handle]
          | _, _ => [])) := by
  intro run outcome leftovers
  obtain ⟨hvalue, hcalls⟩ : run.value = outcome ∧
      run.calls = d.pushCalls ctx host s name value (begins ctx d name value) outcome :=
    d.push_comesTo ctx host s name value
  have hadditions := additions_pushCalls ctx host s d name value (begins ctx d name value) outcome
  have hcleanups := cleanups_pushCalls ctx host s d name value (begins ctx d name value) outcome
  rw [← hcalls] at hadditions hcleanups
  refine ⟨hvalue, hcalls, hadditions, hcleanups, ?_⟩
  rintro k c rfl
  rw [hcleanups]
  refine ⟨fun howned => cleanups_of_owned ctx host s howned _ _, fun howned => ?_⟩
  exact cleanups_of_not_owned ctx host s howned (isNull_of_begins ctx d name) _

end DataStore

end Parts

/-- A tensor of the caller for which the host has no entry: it is not copied, not added, and
    destroyed once. -/
theorem DataStore.push_outcome_of_missing_entry :
    let ctx : Context := { Context.full with hasEntry := (· != .add false "tensor") }
    let host : Host Unit := ⟨fun c s => (c.shape.deliver (.ok (.ofNumber 3)), s)⟩
    let store : DataStore := .fresh (.ofNumber 1)
    let t : Tensor := .fresh (.ofNumber 2)
    let run := (store.push ctx none (.container .tensor t)).run host ()
    run.value = .error (.missingFunction .dataStore "add_tensor") ∧
      t.ownership = .callerOwned ∧
      run.calls.filter Call.isCleanup = [.free .tensor (.ofNumber 2)] := by
  intro ctx host store t run
  obtain ⟨hvalue, -, -, -, howned⟩ :=
    DataStore.push_outcome ctx host () store none (.container .tensor t)
  exact ⟨hvalue, rfl, (howned .tensor t rfl).1 rfl⟩

end Custody
