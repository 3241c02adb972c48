import Custody.Proofs.Atomicity

namespace Custody

open Dialogue

/-!
# Attempts on hosts that lack something

A host may leave out whole tables and single entries.  Every attempt is compared here with the
same attempt on a host that has everything: it does the same, except that cleanups the host has
no entry for become warnings, or it ends with an error that says what is missing.

* `Context.degraded` -- a step of a run on the full host, as it is on a host that lacks
  something;
* `Context.Lacks` -- the errors that name what is missing;
* `Dialogue.Agrees` -- from one state of the host, the two runs agree or the first one failed;
  `Dialogue.Concludes` -- the same from any two states, which is what remains to be said once
  a cleanup was left out;
* `Compares.bind` -- the comparison of two dialogues in sequence;
* `Container.cleanup_follows`, `Container.obtain_agrees`, `DataStore.push_agrees`, and one
  comparison for each other attempt.
-/

namespace Context

/-- A step of a run on the full host, as it is on this one: a cleanup that the host has no entry
    for is a warning that names the entry, and every other step is the same. -/
def degraded (ctx : Context) : Happening → Happening
  | .called c a =>
      if c.isCleanup && !ctx.provides c.entry then
        .logged (.cleanupMissing c.entry.table c.entry.function)
      else .called c a
  | .logged e => .logged e

/-- The error names what is missing: a whole table, or an entry of a table that is there.  Only the
    tables of the given kinds are in question. -/
def Lacks (ctx : Context) (tables : List Kind) (e : Error) : Prop :=
  (e = .hostUnavailable ∧ ∃ k ∈ tables, ctx.hasTable k = false) ∨
    ∃ entry : Entry, e = .missingFunction entry.table entry.function ∧ entry.table ∈ tables ∧
      ctx.hasTable entry.table = true ∧ ctx.hasEntry entry = false

variable {ctx : Context}

/-- A step that cleans nothing up is the same on either host. -/
theorem degraded_of_not_isCleanup {c : Call} (hc : c.isCleanup = false) (a : c.Answer) :
    ctx.degraded (.called c a) = .called c a := by simp [degraded, hc]

/-- A call whose entry the host has is the same on either host. -/
theorem degraded_of_provides {c : Call} (hc : ctx.provides c.entry = true) (a : c.Answer) :
    ctx.degraded (.called c a) = .called c a := by simp [degraded, hc]

/-- Steps of which none is a cleanup are the same on either host. -/
theorem map_degraded_eq_self {trace : List Happening}
    (h : ∀ c ∈ Happening.calls trace, c.isCleanup = false) : trace.map ctx.degraded = trace := by
  induction trace with
  | nil => rfl
  | cons x trace ih =>
    cases x with
    | called c a =>
      obtain ⟨hc, hrest⟩ := List.forall_mem_cons.mp h
      rw [List.map_cons, degraded_of_not_isCleanup hc, ih hrest]
    | logged e => rw [List.map_cons, ih h, degraded]

/-- An error that lacks something of some tables lacks it of more tables. -/
theorem Lacks.mono {tables tables' : List Kind} {e : Error} (h : ctx.Lacks tables e)
    (hsub : tables ⊆ tables') : ctx.Lacks tables' e := by
  obtain ⟨rfl, k, hk, hmissing⟩ | ⟨entry, rfl, htable, hmissing⟩ := h
  · exact .inl ⟨rfl, k, hsub hk, hmissing⟩
  · exact .inr ⟨entry, rfl, hsub htable, hmissing⟩

/-- An entry that cannot be found is missing, or its table is. -/
theorem lacks_of_require {entry : Entry} {e : Error} (h : ctx.require entry = .error e) :
    ctx.Lacks [entry.table] e := by
  rw [require_eq] at h
  split at h
  · next htable =>
    split at h
    · cases h
    · next hentry =>
      cases h
      exact .inr ⟨entry, rfl, List.mem_singleton_self _, htable, by simpa using hentry⟩
  · next htable =>
    cases h
    exact .inl ⟨rfl, _, List.mem_singleton_self _, by simpa using htable⟩

/-- The full host has whatever is required. -/
@[simp] theorem require_full (entry : Entry) : full.require entry = .ok () := rfl

end Context

/-! ### Comparing two runs -/

namespace Dialogue

variable {α β : Type} {ctx : Context}

/-- The first run failed, or both end with the same value and the first did what the second did,
    as far as the host could. -/
def Compares {σ : Type} (ctx : Context) (failed : α → Prop) (r r' : Run σ α) : Prop :=
  (r.value = r'.value ∧ r.trace = r'.trace.map ctx.degraded) ∨ failed r.value

/-- From any one state of any host, the runs of the two dialogues compare. -/
def Agrees (ctx : Context) (failed : α → Prop) (d d' : Dialogue α) : Prop :=
  ∀ (σ : Type) (host : Host σ) (s : σ), Compares ctx failed (d.run host s) (d'.run host s)

/-- The runs compare even if the host is in two different states, which it is once a cleanup was
    left out. -/
def Concludes (ctx : Context) (failed : α → Prop) (d d' : Dialogue α) : Prop :=
  ∀ (σ : Type) (host : Host σ) (s s' : σ), Compares ctx failed (d.run host s) (d'.run host s')

/-- Two operations that never fail on either side do the same. -/
abbrev Follows (ctx : Context) (d d' : Dialogue α) : Prop := Concludes ctx (fun _ => False) d d'

variable {P Q : α → Prop} {R : β → Prop} {d d' : Dialogue α} {f f' : α → Dialogue β}

/-- Runs that compare from any two states compare from one. -/
theorem Concludes.agrees (h : Concludes ctx Q d d') : Agrees ctx Q d d' :=
  fun σ host s => h σ host s s

/-- What counts as a failure can be widened. -/
theorem Compares.imp {σ : Type} {r r' : Run σ α} (h : Compares ctx P r r')
    (hPQ : ∀ value, P value → Q value) : Compares ctx Q r r' :=
  h.imp_right (hPQ _)

/-- A failure may be described more widely where dialogues agree. -/
theorem Agrees.imp (h : Agrees ctx P d d') (hPQ : ∀ value, P value → Q value) :
    Agrees ctx Q d d' :=
  fun σ host s => (h σ host s).imp hPQ

/-- A failure may be described more widely where dialogues conclude alike. -/
theorem Concludes.imp (h : Concludes ctx P d d') (hPQ : ∀ value, P value → Q value) :
    Concludes ctx Q d d' :=
  fun σ host s s' => (h σ host s s').imp hPQ

/-- What never fails compares under any description of a failure. -/
theorem Follows.concludes (h : Follows ctx d d') : Concludes ctx Q d d' := h.imp fun _ => False.elim

/-- A dialogue that is over does the same on either host. -/
theorem concludes_done (value : α) : Concludes ctx Q (.done value) (.done value) :=
  fun _ _ _ _ => .inl ⟨rfl, rfl⟩

/-- A dialogue that ends with a failure on every path need not be compared. -/
theorem concludes_of_failed (h : d.Always fun _ value => Q value) :
    Concludes ctx Q d d' :=
  fun _ host s _ => .inr (h.run host s)

/-- A step in front of two runs leaves them comparable if it is the one step degraded. -/
theorem Compares.after {σ : Type} {r r' : Run σ α} {x x' : Happening} (h : Compares ctx Q r r')
    (hx : x = ctx.degraded x') : Compares ctx Q (r.after x) (r'.after x') :=
  h.imp_left fun ⟨hvalue, htrace⟩ => ⟨hvalue, by simp [Run.after, htrace, hx]⟩

/-- A report in front is made on both hosts. -/
theorem concludes_log (event : Event) (h : Concludes ctx Q d d') :
    Concludes ctx Q (.log event d) (.log event d') :=
  fun σ host s s' => (h σ host s s').after rfl

/-- The answer to a call is the same in both runs, so they go on alike. -/
theorem agrees_call {request : Call} {next next' : request.Answer → Dialogue α}
    (hc : request.isCleanup = false) (h : ∀ answer, Agrees ctx Q (next answer) (next' answer)) :
    Agrees ctx Q (.call request next) (.call request next') :=
  fun σ host s =>
    (h _ σ host (host.answer request s).2).after (Context.degraded_of_not_isCleanup hc _).symm

/-- A call whose answer says nothing cannot be answered differently. -/
theorem concludes_call {request : Call} {next next' : request.Answer → Dialogue α}
    (hmute : ∀ a b : request.Answer, a = b)
    (hsame : ∀ answer, ctx.degraded (.called request answer) = .called request answer)
    (h : ∀ answer, Concludes ctx Q (next answer) (next' answer)) :
    Concludes ctx Q (.call request next) (.call request next') := by
  intro σ host s s'
  simp only [run_call]
  rw [hmute (host.answer request s).1 (host.answer request s').1]
  exact (h _ σ host _ _).after (hsame _).symm

/-- **Sequencing.** After a comparison has come out well, the states of the host may differ, so
    what follows has to compare from any two; after a failure, only the failure counts. -/
theorem Compares.bind {σ : Type} {host : Host σ} {s s' : σ}
    (h : Compares ctx P (d.run host s) (d'.run host s'))
    (hnext : ∀ value, Concludes ctx R (f value) (f' value))
    (hfailed : ∀ value, P value → (f value).Always fun _ result => R result) :
    Compares ctx R ((d.bind f).run host s) ((d'.bind f').run host s') := by
  rw [run_bind, run_bind]
  cases h with
  | inl same =>
    obtain ⟨hvalue, htrace⟩ := same
    have hrest := hnext (d.run host s).value σ host (d.run host s).state (d'.run host s').state
    rw [hvalue] at hrest
    dsimp only
    rw [hvalue]
    refine hrest.imp_left ?_
    rintro ⟨hvalue', htrace'⟩
    exact ⟨hvalue', by simp [htrace, htrace']⟩
  | inr failed => exact .inr ((hfailed _ failed).run host _)

/-- Dialogues that agree, followed by what concludes alike, agree. -/
theorem Agrees.bind (h : Agrees ctx P d d') (hnext : ∀ value, Concludes ctx R (f value) (f' value))
    (hfailed : ∀ value, P value → (f value).Always fun _ result => R result) :
    Agrees ctx R (d.bind f) (d'.bind f') :=
  fun σ host s => (h σ host s).bind hnext hfailed

/-- Dialogues that conclude alike, followed by what concludes alike, conclude alike. -/
theorem Concludes.bind (h : Concludes ctx P d d')
    (hnext : ∀ value, Concludes ctx R (f value) (f' value))
    (hfailed : ∀ value, P value → (f value).Always fun _ result => R result) :
    Concludes ctx R (d.bind f) (d'.bind f') :=
  fun σ host s s' => (h σ host s s').bind hnext hfailed

/-- What is made of a value does not matter to the comparison. -/
theorem Agrees.map {g : α → β} (h : Agrees ctx P d d') (hg : ∀ value, P value → R (g value)) :
    Agrees ctx R (d.bind fun value => .done (g value)) (d'.bind fun value => .done (g value)) :=
  h.bind (fun value => concludes_done (g value)) fun value hvalue => hg value hvalue

/-- A dialogue that cleans up nothing is the same on either host. -/
theorem agrees_self (h : d.Within fun c => c.isCleanup = false) : Agrees ctx Q d d :=
  fun _ host s => .inl ⟨rfl, (Context.map_degraded_eq_self (Always.run h host s)).symm⟩

end Dialogue

/-! ### Letting go -/

namespace Container

variable {k : Kind} {ctx : Context}

/-- A cleanup is carried out, or a warning names its entry. -/
theorem cleanupWith_follows {call : Call} (hc : call.isCleanup = true) :
    Follows ctx (cleanupWith ctx call) (cleanupWith .full call) := by
  have hmute : ∀ a b : call.Answer, a = b := by
    cases call <;> first | exact fun _ _ => rfl | cases hc
  unfold cleanupWith
  rw [if_pos (show Context.full.provides call.entry = true from rfl)]
  split
  · next provided =>
    exact concludes_call hmute (Context.degraded_of_provides provided) fun _ => concludes_done ()
  · next missing =>
    refine fun σ host s s' => .inl ⟨rfl, ?_⟩
    simp [Dialogue.ask, Dialogue.tell, Run.after, Context.degraded, hc, missing]

/-- A cleanup on a host that lacks the entry is the warning, and nothing else differs. -/
theorem cleanup_follows (c : Container k) : Follows ctx (c.cleanup ctx) (c.cleanup .full) := by
  rw [cleanup_eq, cleanup_eq]
  split
  · exact concludes_done ()
  · cases c.ownership with
    | hostManaged => exact concludes_done ()
    | callerOwned => exact concludes_log _ (cleanupWith_follows rfl)
    | sharedWithHost =>
      refine concludes_log _ ?_
      split
      · exact cleanupWith_follows rfl
      · exact concludes_log _ (concludes_done ())

/-- Wrapping asks the host for nothing. -/
theorem wrap_follows (h : Handle) (ownership : Ownership) :
    Follows ctx (wrap h ownership : Attempt (Container k)).run
      (wrap h ownership : Attempt (Container k)).run := by
  rw [wrap_run]
  split
  · exact concludes_done _
  · exact concludes_log _ (concludes_done _)

/-- Passing a container to a slot asks the host for nothing. -/
theorem pass_follows (c : Container k) (hasSlot : Bool) :
    Follows ctx (c.pass hasSlot) (c.pass hasSlot) := by
  rw [pass_eq]
  split
  · exact concludes_done _
  · split
    · exact concludes_log _ (concludes_done _)
    · exact concludes_log _ (concludes_done _)

/-- A reset on a host that lacks something differs by the cleanup in it at most. -/
theorem reset_follows (c : Container k) (h : Handle) (ownership : Ownership) :
    Follows ctx (c.reset ctx h ownership) (c.reset .full h ownership) := by
  rw [reset_eq, reset_eq]
  split
  · exact concludes_done _
  · exact (cleanup_follows c).bind (fun _ => concludes_done _) fun _ => False.elim

end Container

/-! ### Attempts -/

/-- The attempt failed for want of a table or an entry. -/
def Context.FallsShort {α : Type} (ctx : Context) (tables : List Kind) (r : Except Error α) :
    Prop :=
  ∃ e, r = .error e ∧ ctx.Lacks tables e

section Attempts

variable {α : Type} {ctx : Context} {tables : List Kind} {k : Kind}

/-- What cannot be done without an entry is done alike where the entry is there. -/
theorem Dialogue.agrees_require {entry : Entry} {next next' : Unit → Dialogue (Except Error α)}
    (hentry : entry.table ∈ tables) (h : Agrees ctx (ctx.FallsShort tables) (next ()) (next' ())) :
    Agrees ctx (ctx.FallsShort tables) (checked (ctx.require entry) next)
      (checked (Context.full.require entry) next') := by
  cases hrequire : ctx.require entry with
  | error e =>
    have lacks : ctx.Lacks tables e :=
      (Context.lacks_of_require hrequire).mono (by simpa using hentry)
    refine (concludes_of_failed ?_).agrees
    exact ⟨e, rfl, lacks⟩
  | ok _ => exact h

/-- A check that does not look at the host comes out the same. -/
theorem Dialogue.agrees_checked {β : Type} {check : Except Error β}
    {next next' : β → Dialogue (Except Error α)}
    (h : ∀ value, Agrees ctx (ctx.FallsShort tables) (next value) (next' value)) :
    Agrees ctx (ctx.FallsShort tables) (checked check next) (checked check next') := by
  cases check with
  | error e => exact (concludes_done _).agrees
  | ok value => exact h value

namespace Container

variable {call : Call} {failure : Refusal → Error} {event : Handle → Event}

/-- Asking for a handle that is not cleaned up makes no call that cleans up. -/
theorem adopt_within (hc : call.isCleanup = false) :
    (adopt call failure event : Attempt (Container k)).run.Within fun c => c.isCleanup = false := by
  rw [adopt_run]
  refine within_call hc fun answer => ?_
  cases call.shape.granted .null answer with
  | error refusal => exact within_done _
  | ok h => exact within_log (within_done _)

/-- An attempt at an entry does the same on either host, or says that the entry or its table is
    missing. -/
theorem obtain_agrees (hc : call.isCleanup = false) (htable : call.entry.table ∈ tables) :
    Agrees ctx (ctx.FallsShort tables)
      (obtain ctx call failure event : Attempt (Container k)).run
      (obtain .full call failure event : Attempt (Container k)).run := by
  rw [obtain_run, obtain_run]
  exact agrees_require htable (agrees_self (adopt_within hc))

/-- A copy is made alike on either host, or its table falls short. -/
theorem tryClone_agrees (c : Container k) :
    Agrees ctx (ctx.FallsShort [k]) (c.tryClone ctx).run (c.tryClone .full).run := by
  rw [tryClone_run, tryClone_run]
  split
  · exact (concludes_done _).agrees
  · exact obtain_agrees rfl (List.mem_singleton_self _)

/-- The copy is made before the container goes away, so a missing cleanup comes too late to change
    anything. -/
theorem transferable_agrees (c : Container k) :
    Agrees ctx (ctx.FallsShort [k]) (c.transferable ctx) (c.transferable .full) := by
  rw [transferable_eq, transferable_eq]
  split
  · exact (concludes_done _).agrees
  · split
    · exact (concludes_done _).agrees
    · refine fun σ host s => Compares.after (Agrees.bind (tryClone_agrees c) (fun copy => ?_)
        (fun copy hcopy => ?_) σ host s) rfl
      · exact (cleanup_follows c).bind (fun _ => concludes_done copy) fun _ => False.elim
      · exact (always_bind _ _ _).mpr ((always_true _).imp fun _ _ _ => hcopy)

end Container

/-- A tensor is made alike on either host, or the table of tensors falls short. -/
theorem Tensor.new_agrees (type : TensorType) (dims : List Int) :
    Agrees ctx (ctx.FallsShort [.tensor]) (Tensor.new ctx type dims).run
      (Tensor.new .full type dims).run := by
  rw [Tensor.new_run, Tensor.new_run]
  exact agrees_checked fun _ => Container.obtain_agrees rfl (List.mem_singleton_self _)

/-- A numeric array is made alike on either host, or its table falls short. -/
theorem NumericArray.new_agrees (type : NumericArrayType) (dims : List Int) :
    Agrees ctx (ctx.FallsShort [.numericArray]) (NumericArray.new ctx type dims).run
      (NumericArray.new .full type dims).run := by
  rw [NumericArray.new_run, NumericArray.new_run]
  exact agrees_checked fun _ => Container.obtain_agrees rfl (List.mem_singleton_self _)

/-- A numeric array is converted alike on either host, or its table falls short. -/
theorem NumericArray.convert_agrees (a : NumericArray) (type : NumericArrayType)
    (options : ConversionOptions) :
    Agrees ctx (ctx.FallsShort [.numericArray]) (a.convert ctx type options).run
      (a.convert .full type options).run := by
  rw [NumericArray.convert_run, NumericArray.convert_run]
  split
  · exact (concludes_done _).agrees
  · exact Container.obtain_agrees rfl (List.mem_singleton_self _)

/-- An image is made alike on either host, or the table of images falls short. -/
theorem Image.new_agrees (o : ImageOptions) :
    Agrees ctx (ctx.FallsShort [.image]) (Image.new ctx o).run (Image.new .full o).run := by
  rw [Image.new_run, Image.new_run]
  have hcall : (newCall o).isCleanup = false ∧ (newCall o).entry.table = .image := by
    unfold newCall
    split <;> exact ⟨rfl, rfl⟩
  split
  · exact (concludes_done _).agrees
  · exact Container.obtain_agrees hcall.1 (by simp [hcall.2])

/-- An image is converted alike on either host, or the table of images falls short. -/
theorem Image.convert_agrees (i : Image) (type : ImageDataType) (interleaved : Bool) :
    Agrees ctx (ctx.FallsShort [.image]) (i.convert ctx type interleaved).run
      (i.convert .full type interleaved).run := by
  rw [Image.convert_run, Image.convert_run]
  split
  · exact (concludes_done _).agrees
  · exact Container.obtain_agrees rfl (List.mem_singleton_self _)

namespace SparseArray

/-- A view is had alike on either host, or the table of sparse arrays falls short. -/
theorem member_agrees (m : Member) (a : SparseArray) :
    Agrees ctx (ctx.FallsShort [.sparseArray]) (a.member ctx m).run (a.member .full m).run := by
  rw [member_run, member_run]
  refine agrees_require (List.mem_singleton_self _) (agrees_self ?_)
  have reads := member_within .full m a
  rw [member_run, Context.require_full, checked_ok] at reads
  exact reads.imp fun _ _ h c hc => Call.isCleanup_of_isReading (h c hc)

/-- What a sparse array computes agrees on either host, or its table falls short. -/
theorem computed_agrees (operation : String) {call : Call} (a : SparseArray)
    (hc : call.isCleanup = false) (htable : call.entry.table = .sparseArray) :
    Agrees ctx (ctx.FallsShort [.sparseArray]) (a.computed ctx operation call).run
      (a.computed .full operation call).run := by
  rw [computed_run, computed_run]
  refine agrees_require (by simp [htable]) ?_
  split
  · exact (concludes_done _).agrees
  · exact agrees_self (Container.adopt_within hc)

/-- The host has answered before the array that is replaced goes away. -/
theorem setImplicitValue_agrees (a : SparseArray) (implicit : Option Tensor) :
    Agrees ctx (fun r => ctx.FallsShort [.sparseArray] r.1) (a.setImplicitValue ctx implicit)
      (a.setImplicitValue .full implicit) := by
  rw [setImplicitValue_eq, setImplicitValue_eq]
  split
  · exact (concludes_done _).agrees
  · dsimp only
    rw [Context.require_full]
    split
    · next e hrequire =>
      refine (concludes_of_failed ?_).agrees
      exact ⟨e, rfl, Context.lacks_of_require hrequire⟩
    · refine agrees_call rfl fun answer => ?_
      split
      · exact (concludes_done _).agrees
      · exact (concludes_log _ ((Container.reset_follows a _ _).bind
          (fun _ => concludes_done _) fun _ => False.elim)).agrees

end SparseArray

/-! ### Pushing -/

/-- The kinds whose tables a push works with: that of the store, and that of a container. -/
def Value.pushTables : Value → List Kind
  | .plain _ => [.dataStore]
  | .container kind _ => [.dataStore, kind]

/-- A value that goes out of scope differs by its cleanups at most. -/
theorem Value.drop_follows (value : Value) : Follows ctx (value.drop ctx) (value.drop .full) := by
  cases value with
  | plain value => exact concludes_done ()
  | container kind c => exact Container.cleanup_follows c

namespace DataStore

variable {d : DataStore} {name : Option String}

/-- The table of the store is looked for when everything else is in order. -/
theorem checkPush_eq (ctx : Context) (d : DataStore) (name : Option String) :
    checkPush ctx d name = checkPush .full d name >>= fun _ => ctx.requireTable .dataStore := by
  unfold checkPush
  by_cases empty : d.isNull
  · simp only [empty, ↓reduceIte]
    cases name <;> rfl
  · simp only [empty, Bool.false_eq_true, ↓reduceIte]
    cases name with
    | none => rfl
    | some name =>
      dsimp only
      cases checkTerminated name <;> rfl

/-- A check that comes out differently missed the table of the store. -/
theorem checkPush_cases (ctx : Context) (d : DataStore) (name : Option String) :
    checkPush ctx d name = checkPush .full d name ∨
      (checkPush ctx d name = .error .hostUnavailable ∧ ctx.hasTable .dataStore = false) := by
  rw [checkPush_eq ctx]
  cases checkPush .full d name with
  | error e => exact .inl rfl
  | ok _ =>
    show ctx.requireTable .dataStore = .ok () ∨ ctx.requireTable .dataStore = _ ∧ _
    unfold Context.requireTable
    cases ctx.hasTable .dataStore <;> simp

/-- A plain value is added alike on either host, or the table of stores falls short. -/
theorem addPlain_agrees (value : Plain) :
    Agrees ctx (ctx.FallsShort [.dataStore]) (d.addPlain ctx name value)
      (d.addPlain .full name value) := by
  rw [addPlain_eq, addPlain_eq]
  cases addPlain.checkPlain value with
  | error e => exact (concludes_done _).agrees
  | ok _ =>
    exact agrees_require (List.mem_singleton_self _)
      (agrees_self (within_call rfl fun _ => within_done _))

/-- The container is copied first, so a missing addition comes too late to fail otherwise than by
    its own name. -/
theorem addContainer_agrees {k : Kind} (c : Container k) :
    Agrees ctx (ctx.FallsShort [.dataStore, k]) (d.addContainer ctx name c)
      (d.addContainer .full name c) := by
  rw [addContainer_eq, addContainer_eq]
  refine Agrees.bind (Container.transferable_agrees c) (fun owned => ?_) ?_
  · cases owned with
    | error e => exact concludes_done _
    | ok owned =>
      cases hrequire : ctx.require (.add name.isSome k.tableName) with
      | error e =>
        have lacks := (Context.lacks_of_require hrequire).mono
          (show [Kind.dataStore] ⊆ [.dataStore, k] by simp)
        refine concludes_of_failed ((always_bind _ _ _).mpr ((always_true _).imp fun _ _ _ => ?_))
        exact ⟨e, rfl, lacks⟩
      | ok _ =>
        exact concludes_log _ (concludes_call (fun _ _ => rfl)
          (Context.degraded_of_not_isCleanup rfl) fun _ => concludes_done _)
  · rintro _ ⟨e, rfl, lacks⟩
    exact ⟨e, rfl, lacks.mono (by simp)⟩

/-- A value is added alike on either host, or one of the tables that its push needs falls short. -/
theorem add_agrees (value : Value) :
    Agrees ctx (ctx.FallsShort value.pushTables) (d.add ctx name value)
      (d.add .full name value) := by
  cases value with
  | plain value => exact addPlain_agrees value
  | container kind c => exact addContainer_agrees c

/-- A push does the same on either host, or one of the tables that it needs falls short. -/
theorem push_agrees (d : DataStore) (name : Option String) (value : Value) :
    Agrees ctx (ctx.FallsShort value.pushTables) (d.push ctx name value)
      (d.push .full name value) := by
  rw [push_eq, push_eq]
  obtain same | ⟨missing, htable⟩ := checkPush_cases ctx d name
  · rw [same]
    split
    · have hdrop : Follows ctx (value.drop ctx) (value.drop .full) := value.drop_follows
      exact (hdrop.concludes.bind (fun _ => concludes_done _) fun _ => False.elim).agrees
    · refine (add_agrees value).bind (fun r => ?_) ?_
      · cases r with
        | error e => exact concludes_done _
        | ok _ => exact concludes_log _ (concludes_done _)
      · rintro _ ⟨e, rfl, lacks⟩
        exact ⟨e, rfl, lacks⟩
  · -- Without the table the first push fails, once its container was let go of.
    rw [missing]
    have lacks : ctx.Lacks value.pushTables .hostUnavailable :=
      .inl ⟨rfl, .dataStore, by cases value <;> simp [Value.pushTables], htable⟩
    refine (concludes_of_failed ((always_bind _ _ _).mpr ?_)).agrees
    refine (always_true _).imp fun _ _ _ => ?_
    exact ⟨_, rfl, lacks⟩

end DataStore

end Attempts

end Custody
