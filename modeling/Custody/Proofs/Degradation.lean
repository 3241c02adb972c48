import Custody.Proofs.Absence
import Custody.Proofs.Operations
import Custody.Proofs.Provision

namespace Custody

open Dialogue

/-!
# Hosts that lack something degrade as documented

On a host without some tables and entries an accessor falls back to its standard value, a
cleanup becomes a warning, and an operation that cannot do without an entry names it.  Nothing
else is different from a host that has everything.

* `Accessor.entries`, `Accessor.standard` -- what an accessor needs, and what it falls back to;
* `Container.get_agrees` -- **accessors fall back**;
* `Operation.isFallible`, `Operation.tables` -- which operations need entries, and of which
  tables;
* `Operation.perform_agrees` -- **operations on a workspace** do the same or name what is
  missing;
* `Operation.degrades_as_documented` -- all of it in one statement, and that whatever is called on
  such a host is there.
-/

/-! ### Reading -/

/-- The entries that an accessor of a kind reads from. -/
def Accessor.entries (k : Kind) : Accessor → List Entry
  | shareCount => [.read k .shareCount]
  | queryType | dataType =>
      if k = .sparseArray then [.member .implicitValue, .read .tensor .type] else [.read k .type]
  | rank | isSliced => [.read k .rank]
  | dimensions => [.dimensions k, .read k .rank]
  | flattenedLength => [.read k .flattenedLength]
  | rows => [.read k .rowCount]
  | columns => [.read k .columnCount]
  | slices => [.read k .sliceCount]
  | channels => [.read k .channels]
  | hasAlphaChannel => [.read k .alphaChannel]
  | isInterleaved => [.read k .interleaved]
  | colorSpace => [.read k .colorSpace]
  | length | isEmpty => [.read k .length]

/-- What an accessor gives where an entry for it is missing: what zero, or nothing, stands for.
    Among the color spaces zero stands for gray. -/
def Accessor.standard : Accessor → Reading
  | queryType => .code none
  | dimensions => .numbers []
  | dataType => .word none
  | colorSpace => .word (some (HostCode.name ColorSpace.gray))
  | isSliced | hasAlphaChannel | isInterleaved => .flag false
  | isEmpty => .flag true
  | shareCount | rank | flattenedLength | rows | columns | slices | channels | length => .number 0

namespace Container

variable {k : Kind} {ctx : Context}

/-- The value is the standard one, and one of the entries for it is missing. -/
def Fallback {α : Type} (ctx : Context) (entries : List Entry) (standard value : α) : Prop :=
  value = standard ∧ ∃ e ∈ entries, ctx.provides e = false

/-- Where the entry for a reading is missing, nothing is asked. -/
theorem agrees_unless_missing {α : Type} {c : Container k} {e : Entry} {entries : List Entry}
    {standard : α} {d d' : Dialogue α} (he : e ∈ entries)
    (h : ctx.provides e = true → Agrees ctx (Fallback ctx entries standard) d d') :
    Agrees ctx (Fallback ctx entries standard)
      (if c.isNull || !ctx.provides e then .done standard else d)
      (if c.isNull || !Context.full.provides e then .done standard else d') := by
  have there : Context.full.provides e = true := rfl
  rw [there]
  cases c.isNull with
  | true => exact (concludes_done standard).agrees
  | false =>
    cases provided : ctx.provides e with
    | true => exact h provided
    | false =>
      refine (concludes_of_failed ?_).agrees
      exact ⟨rfl, e, he, provided⟩

/-- A reading falls back to nothing where its entry is missing. -/
theorem read_agrees (q : Query) (c : Container k) :
    Agrees ctx (Fallback ctx [.read k q] none) (c.read ctx q) (c.read .full q) := by
  rw [read_eq, read_eq]
  refine agrees_unless_missing (List.mem_singleton_self _) fun _ => ?_
  exact agrees_self (within_call rfl fun _ => within_done _)

/-- A reading that is a number falls back to zero where its entry is missing. -/
theorem number_agrees (q : Query) (c : Container k) :
    Agrees ctx (Fallback ctx [.read k q] 0) (c.number ctx q) (c.number .full q) :=
  (read_agrees q c).map fun value h => ⟨by rw [h.1]; rfl, h.2⟩

/-- What is told of a number falls back as the number does. -/
theorem number_bind_agrees {α : Type} (q : Query) (c : Container k) (f : Int → α) :
    Agrees ctx (Fallback ctx [.read k q] (f 0)) ((c.number ctx q).bind fun n => .done (f n))
      ((c.number .full q).bind fun n => .done (f n)) :=
  (number_agrees q c).map fun _ h => ⟨by rw [h.1], h.2⟩

/-- The count of shares falls back to zero where its entry is missing. -/
theorem shareCount_agrees (c : Container k) :
    Agrees ctx (Fallback ctx [.read k .shareCount] 0) (c.shareCount ctx) (c.shareCount .full) := by
  unfold shareCount
  split
  · exact number_agrees .shareCount c
  · exact (concludes_done _).agrees

/-- Without the rank there are no dimensions, even if the host lists them. -/
theorem dimensions_agrees (c : Container k) :
    Agrees ctx (Fallback ctx [.dimensions k, .read k .rank] []) (c.dimensions ctx)
      (c.dimensions .full) := by
  rw [dimensions_eq, dimensions_eq]
  refine agrees_unless_missing List.mem_cons_self fun _ => agrees_call rfl fun dims => ?_
  refine (number_agrees .rank c).map ?_
  rintro rank ⟨rfl, e, he, missing⟩
  exact ⟨by simp, e, List.mem_cons_of_mem _ he, missing⟩

/-- The code of the element type falls back to none, for a sparse array also where its view cannot
    be had. -/
theorem queryType_agrees (c : Container k) :
    Agrees ctx (Fallback ctx (Accessor.queryType.entries k) none) (c.queryType ctx)
      (c.queryType .full) := by
  cases k with
  | tensor | numericArray | image => exact read_agrees .type c
  | dataStore => exact (concludes_done _).agrees
  | sparseArray =>
    rw [queryType_eq, queryType_eq]
    refine agrees_unless_missing List.mem_cons_self fun _ => agrees_call rfl fun slot => ?_
    split
    · exact (concludes_done _).agrees
    · refine (read_agrees .type _).imp ?_
      rintro _ ⟨rfl, e, he, missing⟩
      exact ⟨rfl, e, List.mem_cons_of_mem _ he, missing⟩

/-- The name of the element type falls back to none as its code does. -/
theorem typeName_agrees (c : Container k) :
    Agrees ctx (Fallback ctx (Accessor.dataType.entries k) none) (c.typeName ctx)
      (c.typeName .full) := by
  have named {α : Type} [HostCode α] (c : Container k) :
      Agrees ctx (Fallback ctx (Accessor.dataType.entries k) none)
        ((c.typeAs α ctx).bind fun type => .done (type.map HostCode.name))
        ((c.typeAs α .full).bind fun type => .done (type.map HostCode.name)) := by
    refine Agrees.map (P := Fallback ctx (Accessor.dataType.entries k) none) ?_ ?_
    · refine (queryType_agrees c).map ?_
      rintro _ ⟨rfl, missing⟩
      exact ⟨rfl, missing⟩
    · rintro _ ⟨rfl, missing⟩
      exact ⟨rfl, missing⟩
  cases k with
  | tensor => exact named (α := TensorType) c
  | numericArray => exact named (α := NumericArrayType) c
  | image => exact named (α := ImageDataType) c
  | sparseArray => exact (concludes_done _).agrees
  | dataStore => exact (concludes_done _).agrees

/-- What is told of a number, by a function that is told about, falls back as the number does. -/
theorem number_bind_bind_agrees {α β : Type} (q : Query) (c : Container k) (f : Int → α)
    (g : α → β) :
    Agrees ctx (Fallback ctx [.read k q] (g (f 0)))
      (((c.number ctx q).bind fun n => .done (f n)).bind fun x => .done (g x))
      (((c.number .full q).bind fun n => .done (f n)).bind fun x => .done (g x)) :=
  (number_bind_agrees q c f).map fun _ h => ⟨by rw [h.1], h.2⟩

/-- **An accessor reads what it reads on the full host, or its standard value.** -/
theorem get_agrees (a : Accessor) (c : Container k) :
    Agrees ctx (Fallback ctx (a.entries k) a.standard) (c.get ctx a) (c.get .full a) := by
  cases a with
  | shareCount => exact (shareCount_agrees c).map fun _ h => ⟨by rw [h.1]; rfl, h.2⟩
  | queryType => exact (queryType_agrees c).map fun _ h => ⟨by rw [h.1]; rfl, h.2⟩
  | rank => exact number_bind_agrees .rank c Reading.number
  | dimensions => exact (dimensions_agrees c).map fun _ h => ⟨by rw [h.1]; rfl, h.2⟩
  | flattenedLength => exact number_bind_agrees .flattenedLength c Reading.number
  | dataType => exact (typeName_agrees c).map fun _ h => ⟨by rw [h.1]; rfl, h.2⟩
  -- Some accessors are asked of a kind that has them not, and then read nothing.
  | rows => cases k <;> first | exact (concludes_done _).agrees | exact number_bind_agrees _ c _
  | columns => cases k <;> first | exact (concludes_done _).agrees | exact number_bind_agrees _ c _
  | slices => cases k <;> first | exact (concludes_done _).agrees | exact number_bind_agrees _ c _
  | channels => cases k <;> first | exact (concludes_done _).agrees | exact number_bind_agrees _ c _
  | length => cases k <;> first | exact (concludes_done _).agrees | exact number_bind_agrees _ c _
  | isSliced =>
    cases k <;> first | exact (concludes_done _).agrees | exact number_bind_bind_agrees _ c _ _
  | hasAlphaChannel =>
    cases k <;> first | exact (concludes_done _).agrees | exact number_bind_bind_agrees _ c _ _
  | isInterleaved =>
    cases k <;> first | exact (concludes_done _).agrees | exact number_bind_bind_agrees _ c _ _
  | isEmpty =>
    cases k <;> first | exact (concludes_done _).agrees | exact number_bind_bind_agrees _ c _ _
  | colorSpace =>
    cases k with
    | image =>
      show Agrees ctx _ ((Image.colorSpace ctx c).bind _) ((Image.colorSpace .full c).bind _)
      unfold Image.colorSpace
      split
      · exact (concludes_done _).agrees
      · exact number_bind_bind_agrees .colorSpace c _ _
    | _ => exact (concludes_done _).agrees

end Container

/-! ### Operations on a workspace -/

/-- The step failed for want of a table or an entry. -/
def Context.FailsFor (ctx : Context) (tables : List Kind) (outcome : Outcome) : Prop :=
  ∃ e, outcome.1 = .error (.library e) ∧ ctx.Lacks tables e

/-- Two results that are the same error, or two values that are related. -/
def Except.Alike {ε α β : Type} (R : α → β → Prop) : Except ε α → Except ε β → Prop
  | .ok a, .ok b => R a b
  | .error e, .error e' => e = e'
  | _, _ => False

/-- What relates two values may be described more widely. -/
theorem Except.Alike.imp {ε α β : Type} {R S : α → β → Prop} {x : Except ε α} {y : Except ε β}
    (h : Except.Alike R x y) (hRS : ∀ a b, R a b → S a b) : Except.Alike S x y := by
  cases x <;> cases y <;> first | exact h | exact hRS _ _ h

/-- Two outcomes of one check go on alike. -/
theorem Except.alike_bind {ε α β γ : Type} {R : β → γ → Prop} {x : Except ε α}
    {f : α → Except ε β} {g : α → Except ε γ}
    (h : ∀ value, x = .ok value → Except.Alike R (f value) (g value)) :
    Except.Alike R (x >>= f) (x >>= g) := by
  cases x with
  | error e => exact rfl
  | ok value => exact h value rfl

namespace Workspace

variable {k : Kind} {ctx : Context} {w : Workspace} {tables : List Kind}

/-- An assignment differs by the cleanup of the replaced container at most. -/
theorem assign_follows (w : Workspace) (name : String) (h : Holding) :
    Follows ctx (w.assign ctx name h) (w.assign .full name h) := by
  unfold assign
  cases w.find? name with
  | none => exact concludes_done _
  | some old =>
    exact (Container.cleanup_follows old.container).bind (fun _ => concludes_done _)
      fun _ => False.elim

/-- What is made is made before the variable lets go of what it held. -/
theorem keep_agrees {made made' : Attempt (Container k)} (target : String)
    (h : Agrees ctx (ctx.FallsShort tables) made.run made'.run) :
    Agrees ctx (ctx.FailsFor tables) (w.keep ctx target made) (w.keep .full target made') := by
  refine h.bind (fun r => ?_) ?_
  · cases r with
    | error e => exact concludes_done _
    | ok c =>
      exact (w.assign_follows target ⟨k, c⟩).bind (fun _ => concludes_done _) fun _ => False.elim
  · rintro _ ⟨e, rfl, lacks⟩
    exact ⟨e, rfl, lacks⟩

/-- What needs nothing from the host is kept on any. -/
theorem keep_follows {made : Attempt (Container k)} (target : String)
    (h : Concludes ctx (fun _ => False) made.run made.run) :
    Follows ctx (w.keep ctx target made) (w.keep .full target made) := by
  refine h.bind (fun r => ?_) fun _ => False.elim
  cases r with
  | error e => exact concludes_done _
  | ok c =>
    exact (w.assign_follows target ⟨k, c⟩).bind (fun _ => concludes_done _) fun _ => False.elim

/-- A change in place agrees if the library operation does. -/
theorem update_agrees {change change' : Dialogue (Except Error Unit × Container k)} (name : String)
    (h : Agrees ctx (fun r => ctx.FallsShort tables r.1) change change') :
    Agrees ctx (ctx.FailsFor tables) (w.update name change) (w.update name change') := by
  refine h.bind (fun r => ?_) ?_
  · obtain ⟨result, c⟩ := r
    cases result with
    | error e => exact concludes_done _
    | ok _ => exact concludes_done _
  · rintro ⟨_, c⟩ ⟨e, rfl, lacks⟩
    exact ⟨e, rfl, lacks⟩

end Workspace

/-- The kind of what a recipe makes. -/
def Recipe.kind : Recipe → Kind
  | .tensor .. => .tensor
  | .numericArray .. => .numericArray
  | .image _ => .image
  | .dataStore => .dataStore

namespace Operation

/-- Whether the operation asks the host for a container, or for a change in one: without the entry
    for it, it fails. -/
def isFallible : Operation → Bool
  | new .. | clone .. | convert .. | fromTensor .. | fromPositions .. | explicitPositions ..
  | toTensor .. | setImplicit .. | resparsify .. | push .. => true
  | _ => false

/-- Whether the operation reads what the host tells of a container. -/
def isReading : Operation → Bool
  | get .. | describe .. | view .. => true
  | _ => false

/-- The kinds whose tables an operation cannot do without: that of what it makes, copies, converts
    or changes, and for a push those of the store and of a container that is pushed. -/
def tables (w : Workspace) : Operation → List Kind
  | new recipe _ => [recipe.kind]
  | clone source _ | convert source _ _ => (w.find? source).toList.map Holding.kind
  | fromTensor .. | fromPositions .. | explicitPositions .. | toTensor .. => [.sparseArray]
  | setImplicit .. | resparsify .. => [.sparseArray]
  | push _ _ (.plain _) => [.dataStore]
  | push _ _ (.variable name) => .dataStore :: (w.find? name).toList.map Holding.kind
  | _ => []

variable {ctx : Context} {w : Workspace}

/-- What is planned fails at the lookup on both hosts, or agrees. -/
abbrev PlansAlike (ctx : Context) (failed : Outcome → Prop)
    (planned planned' : Except Failure (Dialogue Outcome)) : Prop :=
  Except.Alike (Agrees ctx failed) planned planned'

/-- A plan to make something is alike on either host, or its table falls short. -/
theorem planNew_alike (recipe : Recipe) (target : String) :
    PlansAlike ctx (ctx.FailsFor [recipe.kind]) (planNew ctx w recipe target)
      (planNew .full w recipe target) := by
  cases recipe with
  | tensor type dims =>
    exact Except.alike_bind fun type _ => w.keep_agrees target (Tensor.new_agrees type dims)
  | numericArray type dims =>
    exact Except.alike_bind fun type _ => w.keep_agrees target (NumericArray.new_agrees type dims)
  | image request =>
    exact Except.alike_bind fun options _ => w.keep_agrees target (Image.new_agrees options)
  | dataStore =>
    exact w.keep_agrees target (Container.obtain_agrees rfl (List.mem_singleton_self _))

/-- A plan to convert is alike on either host, or the table of its kind falls short. -/
theorem planConvert_alike (h : Holding) (r : ConversionRequest) (target : String) :
    PlansAlike ctx (ctx.FailsFor [h.kind]) (planConvert ctx w h r target)
      (planConvert .full w h r target) := by
  obtain ⟨k, c⟩ := h
  cases k with
  | numericArray =>
    exact Except.alike_bind fun _ _ => Except.alike_bind fun _ _ =>
      w.keep_agrees target (NumericArray.convert_agrees c _ _)
  | image =>
    exact Except.alike_bind fun _ _ => w.keep_agrees target (Image.convert_agrees c _ _)
  | tensor => exact rfl
  | sparseArray => exact rfl
  | dataStore => exact rfl

/-- A plan to push is alike on either host, or one of the tables that the push needs falls short. -/
theorem push_alike (store : String) (name : Option String) (value : Pushed) :
    PlansAlike ctx (ctx.FailsFor ((push store name value).tables w))
      (plan ctx w (push store name value)) (plan .full w (push store name value)) := by
  refine Except.alike_bind fun d _ => Except.alike_bind fun pushed hpushed => ?_
  obtain ⟨v, w'⟩ := pushed
  -- The tables are those of the value that the lookup finds, so they are compared after it.
  have htables : v.pushTables = (push store name value).tables w := by
    cases value with
    | plain value =>
      cases hpushed
      rfl
    | «variable» source =>
      simp only [planPushed] at hpushed
      split at hpushed
      · cases hpushed
      · cases hfound : w.holding source with
        | error failure =>
          rw [hfound] at hpushed
          cases hpushed
        | ok x =>
          rw [hfound] at hpushed
          cases hpushed
          simp [tables, Workspace.holding_eq_ok hfound, Value.pushTables]
  rw [← htables]
  refine (DataStore.push_agrees d name v).bind (fun r => ?_) ?_
  · cases r <;> exact concludes_done _
  · rintro _ ⟨e, rfl, lacks⟩
    exact ⟨e, rfl, lacks⟩

/-- The plan of an operation that can fail for want of an entry. -/
theorem plan_alike {op : Operation} (hop : op.isFallible = true) :
    PlansAlike ctx (ctx.FailsFor (op.tables w)) (op.plan ctx w) (op.plan .full w) := by
  cases op with
  | new recipe target => exact planNew_alike recipe target
  | clone source target =>
    refine Except.alike_bind fun x hx => w.keep_agrees target ?_
    rw [tables, Workspace.holding_eq_ok hx]
    exact Container.tryClone_agrees x.container
  | convert source request target =>
    refine Except.alike_bind fun x hx => ?_
    rw [tables, Workspace.holding_eq_ok hx]
    exact planConvert_alike x request target
  | fromTensor data implicit target =>
    exact Except.alike_bind fun _ _ => Except.alike_bind fun _ _ =>
      w.keep_agrees target (Container.obtain_agrees rfl (List.mem_singleton_self _))
  | fromPositions positions values size implicit target =>
    exact Except.alike_bind fun _ _ => Except.alike_bind fun _ _ => Except.alike_bind fun _ _ =>
      Except.alike_bind fun _ _ =>
        w.keep_agrees target (Container.obtain_agrees rfl (List.mem_singleton_self _))
  | explicitPositions source target =>
    exact Except.alike_bind fun a _ =>
      w.keep_agrees target (SparseArray.computed_agrees _ a rfl rfl)
  | toTensor source target =>
    exact Except.alike_bind fun a _ =>
      w.keep_agrees target (SparseArray.computed_agrees _ a rfl rfl)
  | setImplicit source implicit =>
    exact Except.alike_bind fun a _ => Except.alike_bind fun implicit _ =>
      w.update_agrees source (SparseArray.setImplicitValue_agrees a implicit)
  | resparsify source =>
    exact Except.alike_bind fun a _ =>
      w.update_agrees source (SparseArray.setImplicitValue_agrees a none)
  | push store name value => exact push_alike store name value
  | _ => cases hop

/-- The plan of an operation that needs no entry but for cleanups. -/
theorem plan_follows {op : Operation} (hop : op.isFallible = false) (hread : op.isReading = false) :
    PlansAlike ctx (fun _ => False) (op.plan ctx w) (op.plan .full w) := by
  cases op with
  | empty kind target => exact (w.keep_follows target (concludes_done _)).agrees
  | wrap kind handle tagging target =>
    refine Except.alike_bind fun h _ => ?_
    cases tagging with
    | ownership ownership => exact (w.keep_follows target (Container.wrap_follows h _)).agrees
    | mode text =>
      exact Except.alike_bind fun mode _ =>
        (w.keep_follows target (Container.wrap_follows h _)).agrees
  | move source target =>
    exact Except.alike_bind fun _ _ => (Workspace.keep_follows target (concludes_done _)).agrees
  | take source target =>
    exact Except.alike_bind fun _ _ => (Workspace.keep_follows target (concludes_done _)).agrees
  | drop source =>
    exact Except.alike_bind fun x _ => ((Container.cleanup_follows x.container).bind
      (fun _ => concludes_done _) fun _ => False.elim).agrees
  | relinquish source handleName =>
    exact Except.alike_bind fun _ _ => (concludes_log _ (concludes_done _)).agrees
  | intoRaw source handleName =>
    refine Except.alike_bind fun x _ => ?_
    dsimp only
    -- The destructor of what was relinquished makes no call on either host.
    rw [Container.intoRaw_eq, Container.intoRaw_eq]
    exact (concludes_log _ (concludes_done _)).agrees
  | pass source slot hasSlot =>
    exact Except.alike_bind fun x _ => Except.alike_bind fun before _ =>
      ((Container.pass_follows x.container hasSlot).bind (fun _ => concludes_done _)
        fun _ => False.elim).agrees
  | reset source handle ownership =>
    exact Except.alike_bind fun x _ => Except.alike_bind fun h _ =>
      ((Container.reset_follows x.container h ownership).bind (fun _ => concludes_done _)
        fun _ => False.elim).agrees
  | state source => exact Except.alike_bind fun _ _ => (concludes_done _).agrees
  | get _ _ | describe _ | view _ _ _ => cases hread
  | _ => cases hop

/-- **Operations on a host that lacks something.** -/
theorem perform_agrees {op : Operation} (hread : op.isReading = false) :
    Agrees ctx (fun outcome => op.isFallible = true ∧ ctx.FailsFor (op.tables w) outcome)
      (op.perform ctx w) (op.perform .full w) := by
  have hplan : PlansAlike ctx
      (fun outcome => op.isFallible = true ∧ ctx.FailsFor (op.tables w) outcome)
      (op.plan ctx w) (op.plan .full w) := by
    cases hop : op.isFallible with
    | true => exact (plan_alike hop).imp fun _ _ h => h.imp fun _ hfails => ⟨rfl, hfails⟩
    | false => exact (plan_follows hop hread).imp fun _ _ h => h.imp fun _ => False.elim
  -- Planning asks nothing of the host, so that both plans fail or neither does.
  unfold perform
  cases hpartial : op.plan ctx w with
  | error failure =>
    cases hfull : op.plan .full w with
    | error failure' =>
      rw [hpartial, hfull] at hplan
      obtain rfl : failure = failure' := hplan
      exact (concludes_done _).agrees
    | ok dialogue' =>
      rw [hpartial, hfull] at hplan
      cases hplan
  | ok dialogue =>
    cases hfull : op.plan .full w with
    | error failure' =>
      rw [hpartial, hfull] at hplan
      cases hplan
    | ok dialogue' =>
      rw [hpartial, hfull] at hplan
      exact hplan

/-- **A host that lacks something degrades in the documented way only.** From any common state,
    against any host, nothing that is missing is called, and:

    * an operation on a workspace gives the same answer and the same workspace as on the full host,
      and does the same but for cleanups that became warnings; or it is one that needs an entry,
      and its error names what is missing of its own tables;
    * the same holds of a view of a tensor inside a sparse array;
    * an accessor reads the same, or its standard value if an entry for it is missing. -/
theorem degrades_as_documented {σ : Type} (ctx : Context) (host : Host σ) (s : σ) :
    (∀ w op,
      let lacking := (op.perform ctx w).run host s
      let full := (op.perform .full w).run host s
      (∀ c ∈ lacking.calls, ctx.provides c.entry) ∧
      (isReading op = false →
        (lacking.value = full.value ∧ lacking.trace = full.trace.map ctx.degraded) ∨
          (op.isFallible = true ∧
            ∃ e, lacking.value.1 = .error (.library e) ∧ ctx.Lacks (op.tables w) e))) ∧
    (∀ (m : Member) (a : SparseArray),
      let lacking := (a.member ctx m).run.run host s
      let full := (a.member .full m).run.run host s
      (∀ c ∈ lacking.calls, ctx.provides c.entry) ∧
      ((lacking.value = full.value ∧ lacking.trace = full.trace) ∨
        ∃ e, lacking.value = .error e ∧ ctx.Lacks [.sparseArray] e)) ∧
    (∀ (k : Kind) (a : Accessor) (c : Container k),
      let lacking := (c.get ctx a).run host s
      let full := (c.get .full a).run host s
      (∀ c ∈ lacking.calls, ctx.provides c.entry) ∧
      ((lacking.value = full.value ∧ lacking.trace = full.trace) ∨
        (lacking.value = a.standard ∧ ∃ e ∈ a.entries k, ctx.provides e = false))) := by
  -- A step that is allowed and is a call has an entry.
  have hprovided : ∀ {α : Type} {passing : Bool} {d : Dialogue α}, d.Allowed ctx passing →
      ∀ c ∈ (d.run host s).calls, ctx.provides c.entry :=
    fun hallowed => (hallowed.within fun _ _ hcalled => hcalled.2).run host s
  refine ⟨fun w op => ⟨hprovided (perform_allowed op), fun hread => ?_⟩,
    fun m a => ⟨hprovided (a.member_allowed m), ?_⟩,
    fun k a c => ⟨hprovided (c.get_allowed a), ?_⟩⟩
  · exact perform_agrees hread σ host s
  · -- A view and an accessor only read, so there is no cleanup in them that could be degraded.
    have unchanged : ((a.member .full m).run.run host s).trace.map ctx.degraded =
        ((a.member .full m).run.run host s).trace :=
      Context.map_degraded_eq_self fun c hc =>
        Call.isCleanup_of_isReading ((SparseArray.member_within .full m a).run host s c hc)
    have agrees : Compares ctx _ _ _ := SparseArray.member_agrees m a σ host s
    rwa [Compares, unchanged] at agrees
  · have unchanged : ((c.get .full a).run host s).trace.map ctx.degraded =
        ((c.get .full a).run host s).trace :=
      Context.map_degraded_eq_self fun call hcall =>
        Call.isCleanup_of_isReading ((Container.get_within .full a c).run host s call hcall)
    have agrees : Compares ctx _ _ _ := Container.get_agrees a c σ host s
    rwa [Compares, unchanged] at agrees

/-- On a host that can neither add tensors to stores nor free them, pushing a tensor of the host
    fails for want of the addition, and the copy stays behind with a warning. -/
theorem degrades_as_documented_of_push :
    let host : Host Unit := ⟨fun c s => (c.shape.deliver (.ok (.ofNumber 3)), s)⟩
    let ctx : Context :=
      ⟨Version.tables, fun _ => true, fun e => e != .add false "tensor" && e != .free .tensor⟩
    let w : Workspace :=
      { holdings := [("s", ⟨.dataStore, .fresh (.ofNumber 1)⟩),
          ("t", ⟨.tensor, ⟨.ofNumber 2, .hostManaged⟩⟩)] }
    let op := push "s" none (.variable "t")
    let run := (op.perform ctx w).run host ()
    let missing : Error := .missingFunction .dataStore "add_tensor"
    isReading op = false ∧ run.value.1 = .error (.library missing) ∧
      ctx.Lacks (op.tables w) missing ∧ run.calls = [.clone .tensor (.ofNumber 2)] ∧
      (∀ c ∈ run.calls, ctx.provides c.entry) ∧
      run.events = [.pushingCopy .tensor (.ofNumber 2),
        .cloned .tensor (.ofNumber 2) (.ofNumber 3), .destroying .tensor (.ofNumber 3),
        .cleanupMissing .tensor "free"] := by
  intro host ctx w op run missing
  obtain ⟨hprovided, hdegrades⟩ := (degrades_as_documented ctx host ()).1 w op
  have hvalue : run.value.1 = .error (.library missing) := rfl
  obtain ⟨hsame, -⟩ | ⟨-, e, herror, hlacks⟩ := hdegrades rfl
  · -- On the full host the push succeeds.
    have hfull : ((op.perform .full w).run host ()).value.1 = .ok .nothing := rfl
    rw [← hsame] at hfull
    cases hvalue.symm.trans hfull
  · obtain rfl : missing = e := by simpa using hvalue.symm.trans herror
    exact ⟨rfl, hvalue, hlacks, rfl, hprovided, rfl⟩

end Operation

end Custody
