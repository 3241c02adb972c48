import Custody.Proofs.Depot.Forms
import Custody.Proofs.Disturbance
import Custody.Proofs.NormalForms
import Custody.Proofs.Reading

namespace Custody

open Dialogue Depot

/-!
# Runs with a depot

What the operations that ask a depot for one thing come to, if it is there.

* `Dialogue.run_of_quiet` -- without effects that wait, a host answers as it does by itself;
* `Container.obtain_run_eq_ok_iff` -- **a container that is made is obtained**;
* `Container.tryClone_run_of_make` -- **and so is a copy**;
* `Accessor.query?` -- most accessors depend on one number; `Container.get_run` says what they read;
* `Container.get_congr` -- **containers of which the same is true read the same**.
-/

/-! ### Quiet hosts -/

variable {σ α : Type}

/-- With no effect in front of it, a host answers as it does by itself. -/
theorem Host.disturbed_of_quiet (host : Host σ) (c : Call) {s : Disturbed σ}
    (hquiet : s.pending = []) :
    host.disturbed.answer c s = ((host.answer c s.state).1, ⟨[], (host.answer c s.state).2⟩) := by
  rw [host.disturbed_answer, hquiet]
  rfl

/-- With no effect waiting, a dialogue runs with a disturbed host as it does with the host itself.
    -/
theorem Dialogue.run_of_quiet (host : Host σ) (d : Dialogue α) {s : Disturbed σ}
    (hquiet : s.pending = []) :
    d.run host.disturbed s =
      ⟨(d.run host s.state).value, ⟨[], (d.run host s.state).state⟩,
        (d.run host s.state).trace⟩ := by
  induction d generalizing s with
  | done value =>
    obtain ⟨pending, state⟩ := s
    obtain rfl : pending = [] := hquiet
    rfl
  | call request next ih =>
    rw [run_call, host.disturbed_of_quiet request hquiet, ih _ rfl]
    rfl
  | log event next ih =>
    rw [run_log, ih hquiet]
    rfl

/-! ### Containers that a depot makes -/

variable {k : Kind} {ctx : Context} {d : Depot} {c : Call}

namespace Container

variable (failure : Refusal → Error) (event : Handle → Event)

/-- What is granted is obtained. -/
theorem obtain_run_of_require (hctx : ctx.require c.entry = .ok ()) (host : Host σ) (st : σ) :
    let made := (obtain ctx c failure event : Attempt (Container k)).run.run host st
    made.state = (host.answer c st).2 ∧
      made.value = match c.shape.granted .null (host.answer c st).1 with
        | .error refusal => .error (failure refusal)
        | .ok h => .ok (fresh h) := by
  rw [obtain_run, hctx, checked_ok, adopt_run, run_call]
  cases c.shape.granted .null (host.answer c st).1 <;> exact ⟨rfl, rfl⟩

/-- **A container that is made is obtained**, and no other. -/
theorem obtain_run_eq_ok_iff (hyield : c.yield?.isSome) (hslot : c.slotBefore = .null)
    (hnull : ∀ h, (d.make c).1 = .ok h → h ≠ .null) {made : Container k} :
    ((obtain ctx c failure event : Attempt (Container k)).run.run Depot.host d).value =
        .ok made ↔
      ctx.require c.entry = .ok () ∧ ∃ h, (d.make c).1 = .ok h ∧ made = fresh h := by
  cases hctx : ctx.require c.entry with
  | error e => simp [obtain_run, hctx]
  | ok _ =>
    have hvalue := (obtain_run_of_require (k := k) failure event hctx Depot.host d).2
    have hanswer : (Depot.host.answer c d).1 = c.shape.deliver (d.make c).1 :=
      congrArg Prod.fst (answer_of_yield? hyield d)
    have hgranted : ∀ a : c.Answer, c.shape.granted .null a = c.granted a := fun a => by
      rw [Call.granted, hslot]
    rw [hanswer, hgranted] at hvalue
    rw [hvalue]
    cases hmade : (d.make c).1 with
    | ok h => simp [granted_deliver hyield (hnull h hmade), eq_comm]
    | error code =>
      -- The slot for the result was null before, and is still.
      cases hstatus : c.granted (c.shape.deliver (.error code)) with
      | error refusal => simp
      | ok h =>
        have hsame := (eq_slotBefore_of_granted_error hstatus).trans hslot
        exact absurd hsame (Call.ne_null_of_granted hstatus)

/-- **A container is copied** if the depot makes a copy, and the copy is handed on as it is
    made. -/
theorem tryClone_run_of_make {x : Container k} {copy : Handle} {d' : Depot}
    (hctx : ctx.provides (.clone k)) (hnull : x.isNull = false)
    (hmake : d.make (.clone k x.handle) = (.ok copy, d')) (hcopy : copy ≠ .null) :
    let run := (x.tryClone ctx).run.run Depot.host d
    run.value = .ok (.fresh copy) ∧ run.state = d' := by
  intro run
  have hctx := Context.provides_iff.mp hctx
  have hrun := tryClone_run ctx x
  rw [if_neg (by simp [hnull])] at hrun
  constructor
  · show ((x.tryClone ctx).run.run Depot.host d).value = _
    rw [hrun]
    refine (obtain_run_eq_ok_iff _ _ rfl rfl fun h hh => ?_).mpr
      ⟨hctx, copy, congrArg Prod.fst hmake, rfl⟩
    obtain rfl : copy = h := Except.ok.inj ((congrArg Prod.fst hmake).symm.trans hh)
    exact hcopy
  · show ((x.tryClone ctx).run.run Depot.host d).state = _
    rw [hrun, (obtain_run_of_require _ _ hctx Depot.host d).1]
    have hanswer : Depot.host.answer (.clone k x.handle) d = _ :=
      answer_of_yield? (c := .clone k x.handle) rfl d
    rw [hanswer, hmake]

end Container

/-! ### Readings of live resources -/

namespace Container

variable {r : Resource} {x : Container k}

/-- A container whose handle is alive is not empty. -/
theorem isNull_of_live? (hlive : d.live? x.handle = some r) : x.isNull = false := by
  simpa [isNull] using ne_null_of_live? hlive

/-- What a query reads, from a depot that is left as it was. -/
theorem read_run (hlive : d.live? x.handle = some r) {q : Query}
    (hctx : ctx.provides (.read k q)) :
    ((x.read ctx q).run Depot.host d).value = some (q.word k (fact r q)) ∧
      ((x.read ctx q).run Depot.host d).state = d := by
  have hanswer : Depot.host.answer (.read k q x.handle) d = (q.word k (fact r q), d) := by
    show d.peek _ _ _ _ = _
    simp only [peek, hlive]
  rw [read_eq, isNull_of_live? hlive, hctx]
  simp only [Bool.not_true, Bool.or_false, Bool.false_eq_true, ↓reduceIte, run_call, hanswer]
  exact ⟨rfl, rfl⟩

/-- A number that is read is the fact about the resource, as its answer can hold it. -/
theorem number_run (hlive : d.live? x.handle = some r) {q : Query}
    (hctx : ctx.provides (.read k q)) :
    ((x.number ctx q).run Depot.host d).value = q.word k (fact r q) := by
  simp only [number, bind_eq, run_bind, (read_run hlive hctx).1]
  rfl

/-- All dimensions are listed, for there are as many as the rank says. -/
theorem dimensions_run (hlive : d.live? x.handle = some r) (hctx : ctx.provides (.dimensions k))
    (hrank : ctx.provides (.read k .rank)) :
    ((x.dimensions ctx).run Depot.host d).value = r.dims := by
  have hanswer : Depot.host.answer (.dimensions k x.handle) d = (some r.dims, d) := by
    show d.peek _ _ _ _ = _
    simp only [peek, hlive]
  rw [dimensions_eq, isNull_of_live? hlive, hctx]
  simp only [Bool.not_true, Bool.or_false, Bool.false_eq_true, ↓reduceIte, run_call, hanswer,
    run_bind, Run.after, number_run hlive hrank]
  simp [fact, Query.word, Query.isNarrow]

/-- The element type that is read: that of the implicit value for an array, and none for a
    store. -/
def elementType (d : Depot) (r : Resource) : Kind → Option Int
  | .dataStore => none
  | .sparseArray =>
    ((memberOf r .implicitValue).filter fun i => !i.isNull).map
      fun i => (d.number .tensor .type i).1
  | k => some (Query.word k .type r.typeCode)

/-- The element type is read from the resource, or from the implicit value inside it. -/
theorem queryType_run (hlive : d.live? x.handle = some r) (hfull : ∀ e, ctx.provides e) :
    ((x.queryType ctx).run Depot.host d).value = elementType d r k := by
  cases k with
  | tensor | numericArray | image => exact (read_run hlive (hfull _)).1
  | dataStore => rfl
  | sparseArray =>
    -- The type of an array is that of its implicit value, which has to be looked up first.
    have hanswer : Depot.host.answer (.member .implicitValue x.handle) d =
        (memberOf r .implicitValue, d) := by
      show d.peek _ _ _ _ = _
      simp only [peek, hlive]
    rw [queryType_eq, isNull_of_live? hlive, hfull]
    simp only [Bool.not_true, Bool.or_false, Bool.false_eq_true, ↓reduceIte, run_call, hanswer,
      Run.after, elementType]
    cases hslot : (memberOf r .implicitValue).filter fun i => !i.isNull with
    | none => rfl
    | some i =>
      have hnull : i.isNull = false := by simpa using (Option.filter_eq_some_iff.mp hslot).2
      have hread : (⟨i, .hostManaged⟩ : Container .tensor).read ctx .type =
          .call (.read .tensor .type i) fun n : Int => .done (some n) := by
        rw [read_eq, hfull]
        simp [isNull, hnull]
      simp only [hread, run_call]
      rfl

end Container

/-! ### Accessors -/

/-- The query that an accessor depends on, and what it makes of the number, if there is one such
    query. -/
def Accessor.query? : Accessor → Option (Query × (Int → Reading))
  | rank => some (.rank, .number)
  | flattenedLength => some (.flattenedLength, .number)
  | rows => some (.rowCount, .number)
  | columns => some (.columnCount, .number)
  | slices => some (.sliceCount, .number)
  | channels => some (.channels, .number)
  | isSliced => some (.rank, fun n => .flag (n == 3))
  | hasAlphaChannel => some (.alphaChannel, fun n => .flag (n != 0))
  | isInterleaved => some (.interleaved, fun n => .flag (n != 0))
  | colorSpace =>
    some (.colorSpace, fun n => .word ((HostCode.ofCode? n : Option ColorSpace).map HostCode.name))
  | length => some (.length, .number)
  | isEmpty => some (.length, fun n => .flag (n == 0))
  | shareCount | queryType | dimensions | dataType => none

/-- The number of holders and the type are read by accessors of their own. -/
theorem Accessor.ne_of_query? {a : Accessor} {q : Query} {f : Int → Reading}
    (hquery : a.query? = some (q, f)) : q ≠ .shareCount ∧ q ≠ .type := by
  constructor <;> rintro rfl <;> cases a <;> cases hquery

/-- Only one accessor depends on whether channels are interleaved. -/
theorem Accessor.eq_isInterleaved_of_query? {a : Accessor} {f : Int → Reading}
    (hquery : a.query? = some (.interleaved, f)) : a = .isInterleaved := by
  cases a <;> first | rfl | cases hquery

namespace Container

variable {r : Resource} {x : Container k}

/-- An accessor that depends on one query reads that number and makes its value of it. -/
theorem get_of_query? {a : Accessor} (ha : a ∈ Accessor.ofKind k) {q : Query}
    {f : Int → Reading} (hquery : a.query? = some (q, f)) (hnull : x.isNull = false) :
    x.get ctx a = (x.number ctx q).bind fun n => .done (f n) := by
  cases a with
  | shareCount | queryType | dimensions | dataType => cases hquery
  -- These make a flag of the number before it is read.
  | isSliced | hasAlphaChannel | isInterleaved =>
    cases hquery
    cases k with
    | image => exact Dialogue.bind_assoc _ _ _
    | _ => simp [Accessor.ofKind] at ha
  | colorSpace =>
    cases hquery
    cases k with
    | image =>
      have hread : Image.colorSpace ctx x =
          (x.number ctx .colorSpace).bind fun n => .done (HostCode.ofCode? n) := by
        simp [Image.colorSpace, hnull]
      show (Image.colorSpace ctx x).bind _ = _
      rw [hread]
      exact Dialogue.bind_assoc _ _ _
    | _ => simp [Accessor.ofKind] at ha
  | isEmpty =>
    cases hquery
    cases k with
    | dataStore => exact Dialogue.bind_assoc _ _ _
    | _ => simp [Accessor.ofKind] at ha
  | _ =>
    cases hquery
    cases k <;> first | rfl | simp [Accessor.ofKind] at ha

/-- Containers with the same code have the same type, in whichever of the enumerations it is looked
    up. -/
theorem typeAs_congr (α : Type) [HostCode α] {d d' : Depot} {x x' : Container k}
    (h : ((x'.queryType ctx).run Depot.host d').value =
      ((x.queryType ctx).run Depot.host d).value) :
    ((x'.typeAs α ctx).run Depot.host d').value = ((x.typeAs α ctx).run Depot.host d).value := by
  simp only [typeAs, bind_eq, run_bind, h]
  rfl

/-- The name of the element type depends on the type that is read. -/
theorem typeName_congr {d d' : Depot} {x x' : Container k}
    (h : ((x'.queryType ctx).run Depot.host d').value =
      ((x.queryType ctx).run Depot.host d).value) :
    ((x'.typeName ctx).run Depot.host d').value = ((x.typeName ctx).run Depot.host d).value := by
  have hnamed : ∀ {β : Type} (name : β → Option String) {y y' : Dialogue β},
      (y'.run Depot.host d').value = (y.run Depot.host d).value →
      ((y'.bind fun type => .done (name type)).run Depot.host d').value =
        ((y.bind fun type => .done (name type)).run Depot.host d).value :=
    fun name _ _ hy => by simp only [run_bind, run_done, hy]
  cases k with
  | tensor => exact hnamed _ (typeAs_congr TensorType h)
  | numericArray => exact hnamed _ (typeAs_congr NumericArrayType h)
  | image => exact hnamed _ (typeAs_congr ImageDataType h)
  | sparseArray | dataStore => rfl

/-- The facts about a resource that can be read from a container of its kind are those of another
    one.  Of an array these are its dimensions and the type of its implicit value. -/
structure SameFacts (k : Kind) (d : Depot) (r : Resource) (d' : Depot) (r' : Resource) : Prop where
  dims : r'.dims = r.dims
  facts : k ≠ .sparseArray → ∀ q, q ≠ .shareCount → fact r' q = fact r q
  type : elementType d' r' k = elementType d r k

/-- What an accessor reads that depends on one number. -/
theorem get_run {a : Accessor} (ha : a ∈ Accessor.ofKind k) {q : Query} {f : Int → Reading}
    (hquery : a.query? = some (q, f)) (hlive : d.live? x.handle = some r)
    (hfull : ∀ e, ctx.provides e) :
    ((x.get ctx a).run Depot.host d).value = f (q.word k (fact r q)) := by
  rw [get_of_query? ha hquery (isNull_of_live? hlive)]
  simp only [run_bind, run_done, number_run hlive (hfull _)]

/-- An accessor reads the same from containers that agree in what it depends on: a number, the
    dimensions, or the type. -/
theorem get_congr_of_facts {d d' : Depot} {r r' : Resource} {x x' : Container k}
    (hlive : d.live? x.handle = some r) (hlive' : d'.live? x'.handle = some r')
    (hfull : ∀ e, ctx.provides e) {a : Accessor} (ha : a ∈ Accessor.ofKind k)
    (hcount : a ≠ .shareCount) (hdims : r'.dims = r.dims)
    (hfacts : ∀ q f, a.query? = some (q, f) → fact r' q = fact r q)
    (htype : a = .queryType ∨ a = .dataType → elementType d' r' k = elementType d r k) :
    ((x'.get ctx a).run Depot.host d').value = ((x.get ctx a).run Depot.host d).value := by
  have hread : a = .queryType ∨ a = .dataType →
      ((x'.queryType ctx).run Depot.host d').value =
        ((x.queryType ctx).run Depot.host d).value := fun htyped => by
    rw [queryType_run hlive hfull, queryType_run hlive' hfull, htype htyped]
  cases hquery : a.query? with
  | some query =>
    obtain ⟨q, f⟩ := query
    rw [get_run ha hquery hlive hfull, get_run ha hquery hlive' hfull, hfacts q f hquery]
  | none =>
    -- Left are the accessors that take more than one query, and the count, which is excluded.
    cases a with
    | shareCount => exact absurd rfl hcount
    | queryType =>
      show (Dialogue.run Depot.host ((x'.queryType ctx).bind _) d').value =
        (Dialogue.run Depot.host ((x.queryType ctx).bind _) d).value
      simp only [run_bind, hread (.inl rfl)]
      rfl
    | dimensions =>
      show (Dialogue.run Depot.host ((x'.dimensions ctx).bind _) d').value =
        (Dialogue.run Depot.host ((x.dimensions ctx).bind _) d).value
      simp only [run_bind, dimensions_run hlive (hfull _) (hfull _),
        dimensions_run hlive' (hfull _) (hfull _), hdims]
      rfl
    | dataType =>
      show (Dialogue.run Depot.host ((x'.typeName ctx).bind _) d').value =
        (Dialogue.run Depot.host ((x.typeName ctx).bind _) d).value
      simp only [run_bind, typeName_congr (hread (.inr rfl))]
      rfl
    | _ => cases hquery

/-- **Containers of which the same is true read the same**, but for the number of holders. -/
theorem get_congr {d d' : Depot} {r r' : Resource} {x x' : Container k}
    (hlive : d.live? x.handle = some r) (hlive' : d'.live? x'.handle = some r')
    (hfull : ∀ e, ctx.provides e) (hsame : SameFacts k d r d' r') {a : Accessor}
    (ha : a ∈ Accessor.ofKind k) (hcount : a ≠ .shareCount) :
    ((x'.get ctx a).run Depot.host d').value = ((x.get ctx a).run Depot.host d).value := by
  refine get_congr_of_facts hlive hlive' hfull ha hcount hsame.dims (fun q f hquery => ?_)
    fun _ => hsame.type
  by_cases hk : k = .sparseArray
  · -- The rank is all that is asked for here.
    subst hk
    obtain rfl : q = .rank := by
      simp only [Accessor.ofKind, List.mem_cons, List.not_mem_nil, or_false] at ha
      rcases ha with rfl | rfl | rfl | rfl <;> cases hquery
      rfl
    simp only [fact, hsame.dims]
  · exact hsame.facts hk q (Accessor.ne_of_query? hquery).1

/-- The number of holders, where there can be any. -/
theorem shareCount_run {d : Depot} {r : Resource} {x : Container k}
    (hlive : d.live? x.handle = some r) (hfull : ∀ e, ctx.provides e) :
    ((x.get ctx .shareCount).run Depot.host d).value =
      .number (if k.supportsSharing then r.shareCount else 0) := by
  have hget : x.get ctx .shareCount = (x.shareCount ctx).bind fun n => .done (.number n) := by
    cases k <;> rfl
  have hread := number_run (q := .shareCount) hlive (hfull _)
  rw [hget]
  unfold shareCount
  split <;> simp_all [run_bind, fact, Query.word, Query.isNarrow]

/-- A resource that is as it was reads as it did.  A sparse array also depends on its implicit
    value. -/
theorem get_eq_of_live? {d d' : Depot} {r : Resource} {x : Container k} (hk : k ≠ .sparseArray)
    (hlive : d.live? x.handle = some r) (hlive' : d'.live? x.handle = some r)
    (hfull : ∀ e, ctx.provides e) {a : Accessor} (ha : a ∈ Accessor.ofKind k) :
    ((x.get ctx a).run Depot.host d').value = ((x.get ctx a).run Depot.host d).value := by
  by_cases hcount : a = .shareCount
  · subst hcount
    exact (shareCount_run hlive' hfull).trans (shareCount_run hlive hfull).symm
  · refine get_congr_of_facts hlive hlive' hfull ha hcount rfl (fun _ _ _ => rfl) fun _ => ?_
    cases k with
    | sparseArray => exact absurd rfl hk
    | _ => rfl

end Container

end Custody
