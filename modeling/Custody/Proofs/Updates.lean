import Custody.Proofs.Ledger

namespace Custody

open Dialogue

/-!
# Chains of updates

The host answers a change of the implicit value with the array itself or with a new one, and both
in the same slot.  A new array replaces the old one in the wrapper, which goes away by the tag that
it had; after that the tag is that of a new array.  Here this is followed through any number of
updates, with any mixture of answers.

* `Update` -- a change of the implicit value, or a request to drop superfluous elements;
* `Turn`, `Update.turns` -- what happens in each of several updates of one wrapper;
* `Turn.Lawful` -- what one update comes to, for each answer of the host;
* `Update.turn_lawful` -- **one update is lawful**;
* `Turn.line` -- the arrays that the wrapper held, one after the other;
* `Update.performAll_line` -- the arrays that were replaced go away, in order;
* `Update.chain_releases_superseded` -- **a chain of updates releases what it replaces, once**.
-/

/-! ### Updates -/

/-- A change of the implicit value of an array in place. -/
inductive Update where
  | setImplicitValue (implicit : Option Tensor)
  | resparsify

namespace Update

/-- The new implicit value, if there is to be one. -/
def implicit : Update → Option Tensor
  | setImplicitValue implicit => implicit
  | resparsify => none

/-- What the host is asked. -/
abbrev request (a : SparseArray) (u : Update) : Call :=
  .resetImplicit a.handle (SparseArray.handleOrNull u.implicit)

/-- Updates a wrapper by the operation of the library. -/
def perform (ctx : Context) (a : SparseArray) : Update → Dialogue (Except Error Unit × SparseArray)
  | setImplicitValue implicit => a.setImplicitValue ctx implicit
  | resparsify => a.resparsify ctx

/-- Updates a wrapper several times. -/
def performAll (ctx : Context) (a : SparseArray) :
    List Update → Dialogue (List (Except Error Unit) × SparseArray)
  | [] => done ([], a)
  | u :: us => (u.perform ctx a).bind fun first =>
      (performAll ctx first.2 us).bind fun rest => done (first.1 :: rest.1, rest.2)

/-- Dropping superfluous elements is a change to no implicit value. -/
theorem perform_eq_setImplicitValue (ctx : Context) (a : SparseArray) (u : Update) :
    u.perform ctx a = a.setImplicitValue ctx u.implicit := by
  cases u <;> rfl

end Update

/-! ### Turns -/

/-- What happened in one update: what the wrapper held before and after it, what the host was asked
    and answered, what came of it, and all calls that were made. -/
structure Turn where
  before : SparseArray
  request : Call
  reply : Reply
  result : Except Error Unit
  after : SparseArray
  calls : List Call

/-- The arrays that a wrapper held in turns that began with `a`, one after the other.  An array that
    was kept counts once. -/
def Turn.line (a : SparseArray) (turns : List Turn) : List SparseArray :=
  a :: turns.filterMap fun t => if t.after = t.before then none else some t.after

/-- The call cleans up after this array. -/
def Call.cleansUp (h : Handle) : Call → Bool
  | free kind h' | disown kind h' => kind = .sparseArray ∧ h' = h
  | _ => false

/-- The call that cleans up after an array, if its tag asks for one. -/
def SparseArray.cleanup? (a : SparseArray) : Option Call := (⟨.sparseArray, a⟩ : Holding).release?

/-- One update of a wrapper, with this host. -/
def Update.turn {σ : Type} (ctx : Context) (host : Host σ) (s : σ) (a : SparseArray) (u : Update) :
    Turn :=
  let run := (u.perform ctx a).run host s
  ⟨a, u.request a, (host.answer (u.request a) s).1, run.value.1, run.value.2, run.calls⟩

/-- Updates of a wrapper, one after the other. -/
def Update.turns {σ : Type} (ctx : Context) (host : Host σ) (s : σ) (a : SparseArray) :
    List Update → List Turn
  | [] => []
  | u :: us =>
    let turn := u.turn ctx host s a
    turn :: turns ctx host ((u.perform ctx a).run host s).state turn.after us

/-- What one update comes to.  There are four sorts of answers: a status that reports a failure,
    a success that takes the array away, one that leaves it in place, and one with a new array.  The
    old array goes away by its tag, after the new one is there. -/
structure Turn.Lawful (t : Turn) : Prop where
  failed : t.reply.status ≠ Status.noError →
    t.result = .error (.sparseFailed "set_implicit_value" t.reply.status) ∧
      t.after = t.before ∧ t.calls = [t.request]
  null : t.reply.status = Status.noError → t.reply.slot = some .null →
    t.result = .error (.sparseFailed "set_implicit_value" Status.memoryError) ∧
      t.after = t.before ∧ t.calls = [t.request]
  inPlace : t.reply.status = Status.noError → t.reply.slot.getD t.before.handle = t.before.handle →
    t.result = .ok () ∧ t.after = t.before ∧ t.calls = [t.request]
  replaced : ∀ h, t.reply.status = Status.noError → t.reply.slot = some h → h ≠ .null →
    h ≠ t.before.handle →
      t.result = .ok () ∧ t.after = ⟨h, .callerOwned⟩ ∧
        t.calls = t.request :: t.before.cleanup?.toList

/-- The host can change implicit values and clean up after sparse arrays. -/
structure Context.ServesUpdates (ctx : Context) : Prop where
  reset : ctx.provides ⟨.sparseArray, "reset_implicit_value"⟩
  free : ctx.provides (.free .sparseArray)
  disown : ctx.provides (.disown .sparseArray)

section Steps

variable {σ : Type} {ctx : Context} {host : Host σ} {s : σ} {a : SparseArray}

/-- A host that serves updates makes every cleanup of a sparse array. -/
theorem Context.ServesUpdates.offered (hctx : ctx.ServesUpdates) (a : SparseArray) :
    ctx.offered a.cleanup?.toList = a.cleanup?.toList := by
  refine List.filter_eq_self.mpr fun c hc => ?_
  rcases Holding.release?_eq_some (Option.mem_toList.mp hc) with ⟨-, rfl⟩ | ⟨-, rfl⟩
  · exact hctx.free
  · exact hctx.disown

namespace Update

/-- An update is one request, and then what is made of the answer. -/
theorem perform_eq (hctx : ctx.ServesUpdates) (hnull : a.handle ≠ .null) (u : Update) :
    u.perform ctx a = call (u.request a) fun answer =>
      match (u.request a).shape.granted a.handle answer with
      | .error refusal => done (.error (SparseArray.failed "set_implicit_value" refusal), a)
      | .ok h =>
        let ownership := if h = a.handle then a.ownership else .callerOwned
        log (.implicitReset a.handle h ownership)
          ((a.reset ctx h ownership).bind fun a' => done (.ok (), a')) := by
  have hreset : ctx.require (u.request a).entry = .ok () := Context.provides_iff.mp hctx.reset
  rw [perform_eq_setImplicitValue, SparseArray.setImplicitValue_eq,
    if_neg (by simpa [Container.isNull] using hnull)]
  dsimp only
  cases hentry : ctx.require (u.request a).entry with
  | error e =>
    rw [hentry] at hreset
    cases hreset
  | ok _ => rfl

variable {u : Update}

/-- An update that is refused changes nothing. -/
theorem perform_of_refused (hctx : ctx.ServesUpdates) (hnull : a.handle ≠ .null)
    (refusal : Refusal)
    (hrefused : (u.request a).shape.granted a.handle (host.answer (u.request a) s).1 =
      .error refusal) :
    (u.perform ctx a).ComesTo host s
      (.error (.sparseFailed "set_implicit_value" refusal.code), a) [u.request a] := by
  rw [perform_eq hctx hnull]
  refine comesTo_call ?_
  rw [hrefused]
  exact comesTo_done _

/-- An update in place keeps handle and tag. -/
theorem perform_of_kept (hctx : ctx.ServesUpdates) (hnull : a.handle ≠ .null)
    (hkept : (u.request a).shape.granted a.handle (host.answer (u.request a) s).1 = .ok a.handle) :
    (u.perform ctx a).ComesTo host s (.ok (), a) [u.request a] := by
  rw [perform_eq hctx hnull]
  refine comesTo_call ?_
  have hsame : (⟨a.handle, if a.handle.isNull then .hostManaged else a.ownership⟩ : SparseArray) =
      a := by
    rw [if_neg (by simpa using hnull)]
  rw [hkept]
  dsimp only
  rw [if_pos rfl, Container.reset_eq, if_pos rfl, hsame]
  exact comesTo_log (comesTo_done _)

/-- A new array replaces the old one, which then goes away by its tag. -/
theorem perform_of_replaced (hctx : ctx.ServesUpdates) (hnull : a.handle ≠ .null) {h : Handle}
    (hne : h ≠ a.handle)
    (hgranted : (u.request a).shape.granted a.handle (host.answer (u.request a) s).1 = .ok h) :
    (u.perform ctx a).ComesTo host s (.ok (), ⟨h, .callerOwned⟩)
      (u.request a :: a.cleanup?.toList) := by
  rw [perform_eq hctx hnull]
  refine comesTo_call ?_
  rw [hgranted]
  dsimp only
  rw [if_neg hne, Container.reset_eq, if_neg hne, bind_assoc,
    if_neg (by simpa using Shape.ne_null_of_granted hgranted), ← hctx.offered a]
  exact comesTo_log ((a.cleanup_comesTo ctx host _).bind_quiet fun _ => comesTo_done _)

/-- **One update is lawful**, whatever the host answers. -/
theorem turn_lawful (hctx : ctx.ServesUpdates) (hnull : a.handle ≠ .null) (host : Host σ) (s : σ)
    (u : Update) : (u.turn ctx host s a).Lawful := by
  have hgranted : ∀ reply : Reply, (u.request a).shape.granted a.handle reply =
      if reply.status = Status.noError then (reply.slot.getD a.handle).granted
      else .error (.status reply.status) := fun _ => rfl
  have hcomes : ∀ {result after calls}, (u.perform ctx a).ComesTo host s (result, after) calls →
      (u.turn ctx host s a).result = result ∧ (u.turn ctx host s a).after = after ∧
        (u.turn ctx host s a).calls = calls := by
    rintro result after calls ⟨hvalue, hcalls⟩
    rw [turn, hvalue]
    exact ⟨rfl, rfl, hcalls⟩
  have hsome : ∀ h : Handle, h ≠ .null → h.granted = .ok h :=
    fun h hne => if_neg (by simpa using hne)
  -- One case for each field of `Turn.Lawful`: which answer it is decides what is granted.
  constructor
  · intro hstatus
    refine hcomes (perform_of_refused hctx hnull (.status _) ?_)
    exact (hgranted _).trans (if_neg hstatus)
  · intro hstatus hslot
    refine hcomes (perform_of_refused hctx hnull .nullHandle ?_)
    refine ((hgranted _).trans (if_pos hstatus)).trans ?_
    rw [hslot]
    rfl
  · intro hstatus hslot
    refine hcomes (perform_of_kept hctx hnull ?_)
    refine ((hgranted _).trans (if_pos hstatus)).trans ?_
    have hslot : (u.turn ctx host s a).reply.slot.getD a.handle = a.handle := hslot
    rw [hslot]
    exact hsome _ hnull
  · intro h hstatus hslot hne hother
    refine hcomes (perform_of_replaced hctx hnull hother ?_)
    refine ((hgranted _).trans (if_pos hstatus)).trans ?_
    rw [hslot]
    exact hsome _ hne

end Update

end Steps

/-! ### Chains -/

namespace Turn

variable {t : Turn} {turns : List Turn} {a : SparseArray}

/-- A turn keeps the array, or a new one takes its place and the old one goes away. -/
theorem Lawful.kept_or_replaced (ht : t.Lawful) :
    (t.after = t.before ∧ t.calls = [t.request]) ∨
    ∃ h, h ≠ .null ∧ h ≠ t.before.handle ∧ t.after = ⟨h, .callerOwned⟩ ∧
      t.calls = t.request :: t.before.cleanup?.toList := by
  by_cases hstatus : t.reply.status = Status.noError
  · by_cases hsame : t.reply.slot.getD t.before.handle = t.before.handle
    · exact .inl (ht.inPlace hstatus hsame).2
    · cases hslot : t.reply.slot with
      | none => exact absurd (by rw [hslot]; rfl) hsame
      | some h =>
        rw [hslot, Option.getD_some] at hsame
        by_cases hempty : h = .null
        · rw [hempty] at hslot
          exact .inl (ht.null hstatus hslot).2
        · exact .inr ⟨h, hempty, hsame, (ht.replaced h hstatus hslot hempty hsame).2⟩
  · exact .inl (ht.failed hstatus).2

/-- A turn does not make an array empty. -/
theorem Lawful.after_ne_null (ht : t.Lawful) (hnull : t.before.handle ≠ .null) :
    t.after.handle ≠ .null := by
  rcases ht.kept_or_replaced with ⟨hafter, -⟩ | ⟨h, hne, -, hafter, -⟩
  · rw [hafter]
    exact hnull
  · rw [hafter]
    exact hne

/-- Every array but the first is a new one, which belongs to the caller. -/
theorem tail_owned (a : SparseArray) (hlawful : ∀ t ∈ turns, t.Lawful) :
    ∀ x ∈ (line a turns).tail, x.ownership = .callerOwned ∧ x.handle ≠ .null := by
  intro x hx
  obtain ⟨t, ht, hbrought⟩ := List.mem_filterMap.mp hx
  split at hbrought
  · cases hbrought
  · next hchanged =>
    obtain rfl : t.after = x := Option.some.inj hbrought
    rcases (hlawful t ht).kept_or_replaced with ⟨hafter, -⟩ | ⟨h, hne, -, hafter, -⟩
    · exact absurd hafter hchanged
    · rw [hafter]
      exact ⟨rfl, hne⟩

/-- What comes later in a line does not depend on what came before. -/
theorem line_cons (ha : t.before = a) :
    line a (t :: turns) = (if t.after = t.before then [] else [a]) ++ line t.after turns := by
  subst ha
  by_cases hsame : t.after = t.before <;> simp [line, hsame]

/-- A line has at least the first array in it. -/
theorem line_ne_nil (a : SparseArray) (turns : List Turn) : line a turns ≠ [] :=
  List.cons_ne_nil _ _

end Turn

/-! ### Cleanups of distinct arrays -/

namespace SparseArray

variable {a : SparseArray}

/-- The cleanup of an array cleans up after this array only. -/
theorem cleansUp_of_cleanup? {c : Call} (hc : a.cleanup? = some c) (h : Handle) :
    c.cleansUp h = true ↔ a.handle = h := by
  rcases Holding.release?_eq_some hc with ⟨-, rfl⟩ | ⟨-, rfl⟩ <;> simp [Call.cleansUp]

/-- Nobody cleans up after an array that is not among those that go away. -/
theorem filter_cleanups_of_not_mem {h : Handle} {arrays : List SparseArray}
    (hne : ∀ x ∈ arrays, x.handle ≠ h) :
    (arrays.filterMap cleanup?).filter (Call.cleansUp h) = [] := by
  refine List.filter_eq_nil_iff.mpr fun c hc hcleans => ?_
  obtain ⟨x, hx, hcleanup⟩ := List.mem_filterMap.mp hc
  exact hne x hx ((cleansUp_of_cleanup? hcleanup h).mp hcleans)

/-- Of arrays with distinct handles, each is cleaned up after by its own cleanup and no other. -/
theorem filter_cleanups_of_mem {arrays : List SparseArray}
    (hdistinct : (arrays.map (·.handle)).Nodup) (ha : a ∈ arrays) :
    (arrays.filterMap cleanup?).filter (Call.cleansUp a.handle) = a.cleanup?.toList := by
  obtain ⟨front, back, rfl⟩ := List.append_of_mem ha
  have hmiddle : List.Nodup (a.handle :: (front ++ back).map (·.handle)) := by
    have hperm : (front ++ a :: back).Perm (a :: (front ++ back)) := List.perm_middle
    exact (hperm.map (·.handle)).nodup_iff.mp hdistinct
  have hne : ∀ x ∈ front ++ back, x.handle ≠ a.handle := by
    intro x hx heq
    exact (List.nodup_cons.mp hmiddle).1 (heq ▸ List.mem_map_of_mem hx)
  have hfront := filter_cleanups_of_not_mem fun x hx => hne x (List.mem_append_left back hx)
  have hback := filter_cleanups_of_not_mem fun x hx => hne x (List.mem_append_right front hx)
  rw [List.filterMap_append, List.filter_append, hfront, List.nil_append]
  cases hcleanup : a.cleanup? with
  | none => rw [List.filterMap_cons_none hcleanup, hback]; rfl
  | some c =>
    have hown : c.cleansUp a.handle = true := (cleansUp_of_cleanup? hcleanup _).mpr rfl
    rw [List.filterMap_cons_some hcleanup, List.filter_cons_of_pos hown, hback]
    rfl

end SparseArray

section Chains

variable {σ : Type} {ctx : Context} {host : Host σ} {s : σ} {a : SparseArray}

namespace Update

/-- Several updates come to the first one and then the others. -/
theorem performAll_cons (u : Update) (us : List Update) :
    let first := (u.perform ctx a).run host s
    let rest := (performAll ctx first.value.2 us).run host first.state
    (performAll ctx a (u :: us)).ComesTo host s (first.value.1 :: rest.value.1, rest.value.2)
      (first.calls ++ rest.calls) := by
  intro first rest
  have hfirst : (u.perform ctx a).ComesTo host s first.value first.calls := ⟨rfl, rfl⟩
  have hrest : (performAll ctx first.value.2 us).ComesTo host first.state rest.value rest.calls :=
    ⟨rfl, rfl⟩
  exact hfirst.bind (hrest.bind_quiet fun _ => comesTo_done _)

/-- The turns are the parts of the chain: they begin with the wrapper, each goes on with what the
    one before left, and nothing else is done. -/
theorem performAll_turns (us : List Update) :
    let run := (performAll ctx a us).run host s
    let turns := turns ctx host s a us
    List.Forall₂ (fun u t => t.request = u.request t.before) us turns ∧
    turns.map Turn.before ++ [run.value.2] = a :: turns.map Turn.after ∧
    run.value.1 = turns.map Turn.result ∧ run.calls = turns.flatMap Turn.calls := by
  induction us generalizing a s with
  | nil => exact ⟨.nil, rfl, rfl, rfl⟩
  | cons u us ih =>
    intro run turns
    obtain ⟨hvalue, hcalls⟩ : run.value = _ ∧ run.calls = _ := performAll_cons u us
    obtain ⟨hrequests, hchain, hresults, hflat⟩ := ih
    rw [hvalue, hcalls]
    refine ⟨.cons rfl hrequests, ?_, ?_, ?_⟩
    · exact congrArg (a :: ·) hchain
    · exact congrArg (_ :: ·) hresults
    · exact congrArg (_ ++ ·) hflat

/-- No turn begins with an empty wrapper, and every turn is lawful. -/
theorem turns_lawful (hctx : ctx.ServesUpdates) (hnull : a.handle ≠ .null) (us : List Update) :
    ∀ t ∈ turns ctx host s a us, t.Lawful := by
  induction us generalizing a s with
  | nil =>
    rw [turns]
    exact fun _ ht => absurd ht List.not_mem_nil
  | cons u us ih =>
    have hlawful := turn_lawful hctx hnull host s u
    rw [turns]
    exact List.forall_mem_cons.mpr ⟨hlawful, ih (hlawful.after_ne_null hnull)⟩

/-- The last array of the line is the one that is held in the end, and those before it go away in
    order. -/
theorem performAll_line (hctx : ctx.ServesUpdates) (hnull : a.handle ≠ .null) (us : List Update) :
    let run := (performAll ctx a us).run host s
    let line := Turn.line a (turns ctx host s a us)
    line.getLast? = some run.value.2 ∧
      run.calls.filter Call.isCleanup = line.dropLast.filterMap SparseArray.cleanup? := by
  -- By induction on the updates: the others begin with what the first one leaves, and an array that
  -- the first one replaced stands in front of their line.
  induction us generalizing a s with
  | nil => exact ⟨rfl, rfl⟩
  | cons u us ih =>
    intro run line
    have hlawful := turn_lawful hctx hnull host s u
    obtain ⟨hlast, hcleanups⟩ :=
      ih (s := ((u.perform ctx a).run host s).state) (hlawful.after_ne_null hnull)
    obtain ⟨hvalue, hcalls⟩ : run.value = _ ∧ run.calls = _ := performAll_cons u us
    have hline : line = _ := Turn.line_cons rfl
    have hne := Turn.line_ne_nil (u.turn ctx host s a).after
      (turns ctx host ((u.perform ctx a).run host s).state (u.turn ctx host s a).after us)
    rw [hline, hvalue, hcalls, List.filter_append]
    refine ⟨?_, ?_⟩
    · rw [List.getLast?_append_of_ne_nil _ hne]
      exact hlast
    · rw [List.dropLast_append_of_ne_nil hne, List.filterMap_append, ← hcleanups]
      refine congrArg (· ++ _) ?_
      -- The calls of the first turn are the request, and the cleanup if the array is replaced.
      show (u.turn ctx host s a).calls.filter Call.isCleanup = _
      rcases hlawful.kept_or_replaced with ⟨hafter, hcalls⟩ | ⟨h, hne, hother, hafter, hcalls⟩
      · rw [hafter, hcalls, if_pos rfl]
        rfl
      · have hreplaced : (u.turn ctx host s a).after ≠ (u.turn ctx host s a).before := by
          rw [hafter]
          exact fun heq => hother (congrArg Container.handle heq)
        have hall : ∀ c ∈ a.cleanup?.toList, c.isCleanup = true := fun c hc =>
          (Holding.isCleanup_of_release? (Option.mem_toList.mp hc)).1
        rw [hcalls, if_neg hreplaced]
        show (a.cleanup?.toList).filter Call.isCleanup = _
        rw [List.filter_eq_self.mpr hall]
        cases hcleanup : a.cleanup? <;> simp [hcleanup]

/-- What cleans up after an array is a cleanup. -/
theorem filter_cleansUp (h : Handle) (calls : List Call) :
    calls.filter (Call.cleansUp h) = (calls.filter Call.isCleanup).filter (Call.cleansUp h) := by
  rw [List.filter_filter]
  refine List.filter_congr fun c _ => ?_
  cases c <;> simp [Call.cleansUp, Call.isCleanup]

/-- **Chains of updates.** Take any host that can change implicit values and clean up after sparse
    arrays, a wrapper that is not empty, with any tag, and any number of updates.  Each of them asks
    once, about the array that is held, and is lawful; what is done and held in the end is what they
    do and leave, one after the other.  The arrays that were held go away in order, all but the
    last, and all but the first belonged to the caller.  So if their handles differ, the first one
    goes away as its tag says, each later one that was replaced is destroyed once, and nobody cleans
    up after the one that is still held. -/
theorem chain_releases_superseded (ctx : Context) (host : Host σ) (s : σ) (a : SparseArray)
    (us : List Update) (hctx : ctx.ServesUpdates) (hnull : a.handle ≠ .null) :
    let run := (performAll ctx a us).run host s
    let turns := turns ctx host s a us
    let line := Turn.line a turns
    (List.Forall₂ (fun u t => t.request = u.request t.before) us turns ∧
      turns.map Turn.before ++ [run.value.2] = a :: turns.map Turn.after ∧
      run.value.1 = turns.map Turn.result ∧ run.calls = turns.flatMap Turn.calls) ∧
    (∀ t ∈ turns, t.Lawful) ∧
    (line.getLast? = some run.value.2 ∧
      run.calls.filter Call.isCleanup = line.dropLast.filterMap SparseArray.cleanup? ∧
      ∀ x ∈ line.tail, x.ownership = .callerOwned) ∧
    ((line.map (·.handle)).Nodup →
      (∀ x ∈ line.dropLast, x.handle ≠ a.handle →
        run.calls.filter (Call.cleansUp x.handle) = [.free .sparseArray x.handle]) ∧
      (line.tail ≠ [] → run.calls.filter (Call.cleansUp a.handle) = a.cleanup?.toList) ∧
      run.calls.filter (Call.cleansUp run.value.2.handle) = []) := by
  intro run turns line
  have hlawful : ∀ t ∈ turns, t.Lawful := turns_lawful hctx hnull us
  obtain ⟨hlast, hcleanups⟩ : line.getLast? = some run.value.2 ∧ run.calls.filter _ = _ :=
    performAll_line hctx hnull us
  have htail := Turn.tail_owned a hlawful
  refine ⟨performAll_turns us, hlawful, ⟨hlast, hcleanups, fun x hx => (htail x hx).1⟩,
    fun hdistinct => ?_⟩
  have hgone : (line.dropLast.map (·.handle)).Nodup :=
    hdistinct.sublist ((List.dropLast_sublist line).map _)
  refine ⟨fun x hx hne => ?_, fun hreplaced => ?_, ?_⟩
  · -- An array other than the first one was new, so that its cleanup destroys it.
    have hlater : x ∈ line.tail := by
      have hmem : x ∈ line := List.dropLast_subset line hx
      rcases List.mem_cons.mp hmem with rfl | hmem
      · exact absurd rfl hne
      · exact hmem
    obtain ⟨howned, hnull⟩ := htail x hlater
    rw [filter_cleansUp, hcleanups, SparseArray.filter_cleanups_of_mem hgone hx]
    simp [SparseArray.cleanup?, Holding.release?, Container.isNull, howned, hnull]
  · have hfirst : a ∈ line.dropLast := by
      rw [show line = a :: line.tail from rfl, List.dropLast_cons_of_ne_nil hreplaced]
      exact List.mem_cons_self
    rw [filter_cleansUp, hcleanups, SparseArray.filter_cleanups_of_mem hgone hfirst]
  · -- The last array of the line is not among those before it.
    have hsplit : line.dropLast ++ [run.value.2] = line := List.dropLast_append_getLast? _ hlast
    rw [← hsplit, List.map_append] at hdistinct
    rw [filter_cleansUp, hcleanups]
    refine SparseArray.filter_cleanups_of_not_mem fun x hx heq => ?_
    have hapart := (List.nodup_append.mp hdistinct).2.2
    exact hapart _ (List.mem_map_of_mem hx) _ (List.mem_singleton_self _) heq

end Update

end Chains

/-- A share is replaced by an array, which survives a failure, an update in place and an answer
    without a handle, and is then replaced in its turn. -/
theorem Update.chain_releases_superseded_of_mixed_answers :
    let host : Host (List (Except Int Handle)) :=
      ⟨fun c replies => (c.shape.deliver (replies.headD (.error 1)),
        if c.isCleanup then replies else replies.tail)⟩
    let replies := [.ok (.ofNumber 2), .error 3, .ok (.ofNumber 2), .ok .null, .ok (.ofNumber 3)]
    let a : SparseArray := ⟨.ofNumber 1, .sharedWithHost⟩
    let us := List.replicate 5 Update.resparsify
    let run := (performAll .full a us).run host replies
    let line := Turn.line a (turns .full host replies a us)
    Context.ServesUpdates .full ∧ a.handle ≠ .null ∧ (line.map (·.handle)).Nodup ∧
      run.value.2 = .fresh (.ofNumber 3) ∧
      run.calls.filter (Call.cleansUp (.ofNumber 2)) = [.free .sparseArray (.ofNumber 2)] ∧
      run.calls.filter (Call.cleansUp (.ofNumber 1)) = [.disown .sparseArray (.ofNumber 1)] := by
  intro host replies a us run line
  have hctx : Context.ServesUpdates .full := ⟨rfl, rfl, rfl⟩
  have hnull : a.handle ≠ .null := by decide
  have hline : line = [a, .fresh (.ofNumber 2), .fresh (.ofNumber 3)] := by decide +kernel
  have hdistinct : (line.map (·.handle)).Nodup := by
    rw [hline]
    decide
  obtain ⟨-, -, -, hchain⟩ := chain_releases_superseded .full host replies a us hctx hnull
  obtain ⟨hlater, hfirst, -⟩ := hchain hdistinct
  refine ⟨hctx, hnull, hdistinct, by decide +kernel, hlater (.fresh (.ofNumber 2)) ?_ ?_, hfirst ?_⟩
  · decide +kernel
  · decide
  · decide +kernel

end Custody
