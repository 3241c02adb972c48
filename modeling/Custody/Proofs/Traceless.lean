import Custody.Proofs.Atomicity
import Custody.Proofs.Depot.Oblivion
import Custody.Proofs.Depot.Runs
import Custody.Session

namespace Custody

open Dialogue

/-!
# Readings leave no trace

A step that only reads can be left out of a session, and the others do not notice.  All that it can
leave behind are notes of a misuse, which nobody ever looks at.

* `Host.Blind`, `Depot.host_blind` -- a host does not see a change of its state;
* `Session.forget` -- a session but for the misuses that were noted; `Session.forget_step` says that
  sessions which are the same but for them go on alike;
* `Step.isReadOnly`, `Session.step_of_isReadOnly` -- **a step that only reads** leaves the session
  as it is, but for misuses, and calls reading entries only;
* `Session.readings_leave_no_trace` -- **any of them can be left out** of any session.
-/

/-! ### Changes that a host does not see -/

section Blind

variable {σ α : Type}

/-- The host answers alike before and after the change, and goes on from the changed state as from
    the other. -/
def Host.Blind (host : Host σ) (change : σ → σ) : Prop :=
  ∀ c s, host.answer c (change s) = ((host.answer c s).1, change (host.answer c s).2)

/-- What a host does not see it does not see under an effect either. -/
theorem Effect.apply_change {s : Shape} {usual : σ → s.Answer × σ} {change : σ → σ}
    (h : ∀ st, usual (change st) = ((usual st).1, change (usual st).2)) (e : Effect) (st : σ) :
    e.apply s usual (change st) = ((e.apply s usual st).1, change (e.apply s usual st).2) := by
  cases s with
  | outcome => cases hlate : e.late <;> simp [apply, hlate, h]
  | handle => cases hlate : e.late <;> simp [apply, hlate, h]
  | integer => cases hvalue : e.value <;> simp [apply, hvalue, h]
  | dimensions => cases hnull : e.null <;> simp [apply, hnull, h]
  | slot =>
    cases hslot : e.nullSlot <;> cases hhandle : e.handle? <;> cases hnull : e.null <;>
      simp [apply, hslot, hhandle, hnull, h]
  | nothing => exact h st

/-- The same change behind a queue of effects. -/
def Disturbed.change (f : σ → σ) (s : Disturbed σ) : Disturbed σ := { s with state := f s.state }

/-- What a host does not see it does not see behind a queue of effects. -/
theorem Host.Blind.disturbed {host : Host σ} {change : σ → σ} (h : host.Blind change) :
    host.disturbed.Blind (Disturbed.change change) := by
  intro c s
  have hpending : (s.change change).pending = s.pending := rfl
  have hstate : (s.change change).state = change s.state := rfl
  rw [host.disturbed_answer, host.disturbed_answer, hpending, hstate]
  cases Disturbed.takeFirst c.entry s.pending with
  | none =>
    dsimp only
    rw [h c s.state]
    rfl
  | some taken =>
    dsimp only
    rw [Effect.apply_change (h c)]
    rfl

/-- A dialogue with the host goes on as if there had been no change. -/
theorem Host.Blind.run {host : Host σ} {change : σ → σ} (h : host.Blind change) (d : Dialogue α)
    (s : σ) :
    d.run host (change s) =
      ⟨(d.run host s).value, change (d.run host s).state, (d.run host s).trace⟩ := by
  induction d generalizing s with
  | done value => rfl
  | call request next ih =>
    rw [run_call, run_call, h request s, ih]
    rfl
  | log event next ih =>
    rw [run_log, run_log, ih]
    rfl

end Blind

/-- A depot does not look at the misuses that it noted. -/
theorem Depot.host_blind (past : List Violation) : Depot.host.Blind (recalling past) :=
  fun c d => answer_recalling past d c

/-! ### Sessions with other notes -/

namespace Depot

/-- The depot without the misuses that it noted. -/
def forget (d : Depot) : Depot := { d with violations := [] }

variable (d : Depot)

/-- What was forgotten can be put on record again. -/
theorem recalling_forget : d.forget.recalling d.violations = d := by simp [forget, recalling]

/-- What is forgotten does not matter on record. -/
@[simp] theorem forget_recalling (past : List Violation) : (d.recalling past).forget = d.forget :=
  rfl

/-- A use is forgotten, whatever it noted. -/
@[simp] theorem forget_use (operation : String) (h : Handle) :
    (d.use operation h).forget = d.forget := by
  unfold use
  split
  · rfl
  · split <;> rfl

/-- A look is forgotten, whatever it noted. -/
theorem forget_peek {α : Type} (operation : String) (h : Handle) (standard : α)
    (f : Resource → α) : (d.peek operation h standard f).2.forget = d.forget := by
  unfold peek
  cases d.live? h with
  | none => exact forget_use d operation h
  | some r => rfl

/-- A call that only reads can at most note a misuse. -/
theorem forget_answer_of_isReading {c : Call} (hc : c.isReading) :
    (d.answer c).2.forget = d.forget := by
  cases c with
  | read k q h => exact forget_peek d _ _ _ _
  | dimensions k h => exact forget_peek d _ _ _ _
  | member m h => exact forget_peek d _ _ _ _
  | _ => cases hc

/-- Calls that only read can at most note misuses. -/
theorem forget_walks {d d' : Depot} {trace : List Happening} (h : Depot.host.Walks d trace d')
    (htrace : ∀ c ∈ Happening.calls trace, c.isReading) : d'.forget = d.forget := by
  induction h with
  | nil => rfl
  | called c rest ih =>
    rw [Happening.calls_called, List.forall_mem_cons] at htrace
    exact (ih htrace.2).trans (forget_answer_of_isReading _ htrace.1)
  | logged e rest ih => exact ih htrace

/-- The stock is made in the same way whatever is on record. -/
@[simp] theorem stock_recalling (past : List Violation) (stock : Stock) :
    (d.recalling past).stock stock = recalled past (d.stock stock) := by cases stock <;> rfl

/-- The holders are set in the same way whatever is on record. -/
@[simp] theorem share_recalling (past : List Violation) (h : Handle) (count : Int) :
    (d.recalling past).share h count = (d.share h count).recalling past :=
  modify_recalling past d h _

/-- A failure is set up in the same way whatever is on record. -/
@[simp] theorem failNext_recalling (past : List Violation) (undertaking : Undertaking)
    (code : Int) :
    (d.recalling past).failNext undertaking code =
      (d.failNext undertaking code).recalling past := by
  cases undertaking <;> rfl

end Depot

namespace Session

variable (s : Session)

/-- The session with older misuses on record. -/
def recalling (past : List Violation) : Session := s.withDepot (s.depot.recalling past)

/-- The session without the misuses that were noted. -/
def forget : Session := s.withDepot s.depot.forget

/-- What a session forgot can be put on record again. -/
theorem recalling_forget : s.forget.recalling s.depot.violations = s := by
  show s.withDepot (s.depot.forget.recalling s.depot.violations) = s
  rw [Depot.recalling_forget]
  rfl

/-- What a session forgets does not matter on record. -/
@[simp] theorem forget_recalling (past : List Violation) : (s.recalling past).forget = s.forget :=
  rfl

/-- What is noted while a dialogue runs does not depend on what was noted before. -/
theorem drop_recalling (past : List Violation) (d d' : Depot) :
    (d'.recalling past).violations.drop (d.recalling past).violations.length =
      d'.violations.drop d.violations.length := by
  show (past ++ d'.violations).drop (past ++ d.violations).length = _
  rw [List.length_append, ← List.drop_drop, List.drop_left]

/-- A dialogue with the host of the session goes on as before. -/
theorem run_recalling {α : Type} (past : List Violation) (d : Dialogue α) :
    d.run Depot.host.disturbed (s.recalling past).host =
      let run := d.run Depot.host.disturbed s.host
      ⟨run.value, run.state.change (Depot.recalling past), run.trace⟩ :=
  (Depot.host_blind past).disturbed.run d s.host

/-- An operation goes the same way whatever is on record. -/
theorem operationStep_recalling (past : List Violation) (op : Operation) :
    (s.recalling past).operationStep op =
      ((s.operationStep op).1, (s.operationStep op).2.recalling past) := by
  have hrun := s.run_recalling past (op.perform s.context s.workspace)
  simp only [operationStep]
  rw [show (s.recalling past).context = s.context from rfl,
    show (s.recalling past).workspace = s.workspace from rfl, hrun]
  refine Prod.ext (congrArg (Report.mk _ _) ?_) rfl
  exact drop_recalling past s.depot _

/-- A step of the host goes the same way whatever is on record. -/
theorem hostStep_recalling (past : List Violation) (op : HostOperation) :
    (s.recalling past).hostStep op = ((s.hostStep op).1, (s.hostStep op).2.recalling past) := by
  cases op with
  | alloc stock shareCount handleName =>
    have hstock : (s.recalling past).depot.stock stock =
        Depot.recalled past (s.depot.stock stock) :=
      Depot.stock_recalling s.depot past stock
    simp only [hostStep, hstock]
    cases shareCount with
    | none => rfl
    | some count =>
      simp only [Option.map_some, Option.getD_some, Depot.share_recalling]
      rfl
  | shareCount ref => rfl
  | isAlive ref => rfl
  | postings ref => rfl
  | updateInPlace on => rfl
  | fail undertaking code =>
    have hfail : (s.recalling past).depot.failNext undertaking code =
        (s.depot.failNext undertaking code).recalling past :=
      Depot.failNext_recalling s.depot past undertaking code
    simp only [hostStep, hfail]
    rfl
  | inject entry request =>
    have hnumber : (s.recalling past).workspace.number = s.workspace.number := rfl
    simp only [hostStep, hnumber]
    cases request.value.mapM s.workspace.number <;> rfl

/-- A step goes the same way whatever is on record. -/
theorem step_recalling (past : List Violation) (step : Step) :
    (s.recalling past).step step = ((s.step step).1, (s.step step).2.recalling past) := by
  cases step with
  | operation op => exact s.operationStep_recalling past op
  | host op =>
    simp only [Session.step, hostStep_recalling]

/-- The end goes the same way whatever is on record. -/
theorem finish_recalling (past : List Violation) :
    (s.recalling past).finish = (s.finish.1, s.finish.2.recalling past) := by
  have hrun := s.run_recalling past (s.workspace.dropAll s.context)
  simp only [finish]
  rw [show (s.recalling past).context = s.context from rfl,
    show (s.recalling past).workspace = s.workspace from rfl, hrun]
  refine Prod.ext (congrArg (Report.mk _ _) ?_) rfl
  exact drop_recalling past s.depot _

/-- **Sessions that are the same but for the misuses that were noted go on alike.** -/
theorem forget_step {s s' : Session} (h : s.forget = s'.forget) (step : Step) :
    (s.step step).1 = (s'.step step).1 ∧ (s.step step).2.forget = (s'.step step).2.forget := by
  rw [← s.recalling_forget, ← s'.recalling_forget, ← h, step_recalling, step_recalling]
  exact ⟨rfl, rfl⟩

/-- Sessions that differ in what is on record end alike. -/
theorem forget_finish {s s' : Session} (h : s.forget = s'.forget) :
    s.finish.1 = s'.finish.1 ∧ s.finish.2.forget = s'.finish.2.forget := by
  rw [← s.recalling_forget, ← s'.recalling_forget, ← h, finish_recalling, finish_recalling]
  exact ⟨rfl, rfl⟩

end Session

/-! ### Steps that only read -/

namespace Dialogue

variable {α β : Type} {P : α → Prop} {Q : β → Prop}

/-- Every call is a reading call, and the value at the end satisfies `P`. -/
def Reads (P : α → Prop) (d : Dialogue α) : Prop :=
  d.Always fun trace value => (∀ c ∈ Happening.calls trace, c.isReading) ∧ P value

/-- A dialogue that is over has asked nothing. -/
theorem reads_done {value : α} (h : P value) : (done value).Reads P :=
  ⟨fun _ hc => absurd hc List.not_mem_nil, h⟩

/-- What only reads asks by reading entries. -/
theorem reads_of_onlyReads {d : Dialogue α} (h : Container.OnlyReads d) : d.Reads fun _ => True :=
  Always.imp h fun _ _ hcalls => ⟨hcalls, trivial⟩

/-- Readings in sequence are readings. -/
theorem reads_bind {d : Dialogue α} {f : α → Dialogue β} (hd : d.Reads P)
    (hf : ∀ value, P value → (f value).Reads Q) : (d.bind f).Reads Q := by
  refine (always_bind d f _).mpr (hd.imp fun trace value hfirst => ?_)
  refine (hf value hfirst.2).imp fun trace' _ hrest => ⟨fun c hc => ?_, hrest.2⟩
  rw [Happening.calls_append, List.mem_append] at hc
  exact hc.elim (hfirst.1 c) (hrest.1 c)

end Dialogue

/-- The workspace is as it was, and what is shown as a view is the host's. -/
def Outcome.Reads (w : Workspace) (outcome : Outcome) : Prop :=
  outcome.2 = w ∧
    ∀ x shareCount type, outcome.1 = .ok (.viewed x shareCount type) →
      x.container.ownership = .hostManaged

variable {ctx : Context} {w : Workspace}

/-- A view of a member is the host's, and it is only looked up. -/
theorem SparseArray.member_reads (m : Member) (a : SparseArray) :
    (a.member ctx m).run.Reads (Except.Ensures (·.ownership = .hostManaged)) := by
  rw [member_run]
  cases ctx.require (.member m) with
  | error e => exact reads_done trivial
  | ok _ =>
    rw [checked_ok]
    split
    · exact reads_done trivial
    · refine reads_bind (reads_of_onlyReads (Container.memberSlot_within m a)) fun slot _ => ?_
      cases slot with
      | none => exact reads_done trivial
      | some h =>
        simp only [Container.wrap_run]
        split
        · exact reads_done trivial
        · exact reads_done (P := Except.Ensures fun c : Tensor => c.ownership = .hostManaged) rfl

/-- A failure leaves the workspace as it is. -/
theorem Outcome.reads_error (failure : Failure) : Outcome.Reads w (.error failure, w) := by
  refine ⟨rfl, ?_⟩
  rintro x shareCount type ⟨⟩

/-- A view that is not copied is read and let go of. -/
theorem Workspace.look_reads {k : Kind} {viewed : Attempt (Container k)}
    (hviewed : viewed.run.Reads (Except.Ensures (·.ownership = .hostManaged))) :
    (w.look ctx none viewed).Reads (Outcome.Reads w) := by
  refine reads_bind hviewed fun r hr => ?_
  cases r with
  | error e => exact reads_done (Outcome.reads_error _)
  | ok v =>
    refine reads_bind (reads_of_onlyReads (v.shareCount_within ctx)) fun shareCount _ => ?_
    refine reads_bind (reads_of_onlyReads (v.queryType_within ctx)) fun type _ => ?_
    refine reads_done ⟨rfl, ?_⟩
    rintro x shareCount' type' ⟨⟩
    exact hr

namespace Operation

/-- Whether the operation only reads.  A view that is to be copied is not only read. -/
def isReadOnly : Operation → Bool
  | state _ | get .. | describe _ | view _ _ none => true
  | _ => false

/-- What is planned only reads. -/
abbrev PlansReads (w : Workspace) (planned : Except Failure (Dialogue Outcome)) : Prop :=
  Except.Ensures (Dialogue.Reads (Outcome.Reads w)) planned

/-- What is read is told, and nothing else. -/
theorem reads_answer {α : Type} {d : Dialogue α} (hd : Container.OnlyReads d) (f : α → Answer)
    (hf : ∀ value x shareCount type, f value ≠ .viewed x shareCount type) :
    (d.bind fun value => done (.ok (f value), w)).Reads (Outcome.Reads w) := by
  refine reads_bind (reads_of_onlyReads hd) fun value _ => reads_done ⟨rfl, ?_⟩
  intro x shareCount type h
  exact absurd (Except.ok.inj h) (hf value x shareCount type)

/-- A plan to read an accessor reads. -/
theorem get_reads (source accessor : String) :
    PlansReads w ((get source accessor).plan ctx w) := by
  refine Except.ensures_bind fun x _ => ?_
  dsimp only
  cases Accessor.ofName? x.kind accessor with
  | none => exact trivial
  | some a => exact reads_answer (x.container.get_within ctx a) .reading nofun

/-- A plan to look without a copy reads. -/
theorem view_reads (source : String) (member : Option String) :
    PlansReads w ((view source member none).plan ctx w) := by
  cases member with
  | none => exact Except.ensures_bind fun x _ => Workspace.look_reads (reads_done rfl)
  | some name =>
    refine Except.ensures_bind fun a _ => ?_
    cases Member.ofName? name with
    | none => exact trivial
    | some m => exact Workspace.look_reads (SparseArray.member_reads m a)

/-- An operation that only reads. -/
theorem perform_reads {op : Operation} (hop : op.isReadOnly) :
    (op.perform ctx w).Reads (Outcome.Reads w) := by
  have hplan : PlansReads w (op.plan ctx w) := by
    cases op with
    | state source =>
      refine Except.ensures_bind fun x _ => reads_done ⟨rfl, ?_⟩
      rintro y shareCount type ⟨⟩
    | get source accessor => exact get_reads source accessor
    | describe source =>
      exact Except.ensures_bind fun x _ =>
        reads_answer (x.container.describe_within ctx) .readings nofun
    | view source member target =>
      -- A view that is put into a variable is a copy, and not only read.
      cases target with
      | none => exact view_reads source member
      | some target => cases hop
    | _ => cases hop
  unfold perform
  cases h : op.plan ctx w with
  | error failure => exact reads_done (Outcome.reads_error failure)
  | ok dialogue => rwa [h] at hplan

end Operation

namespace Step

/-- Whether the step only reads, as an operation or on the side of the host. -/
def isReadOnly : Step → Bool
  | operation op => op.isReadOnly
  | host (.shareCount _) | host (.isAlive _) | host (.postings _) => true
  | host _ => false

/-- Whether an effect is queued by the step. -/
def isInjection : Step → Bool
  | host (.inject ..) => true
  | _ => false

end Step

namespace Session

variable {s : Session}

/-- With no effect in front of it, the depot answers an operation as it does by itself. -/
theorem operationStep_of_quiet (hquiet : s.host.pending = []) (op : Operation) :
    let run := (op.perform s.context s.workspace).run Depot.host s.depot
    s.operationStep op =
      (⟨run.value.1, run.trace, run.state.violations.drop s.depot.violations.length⟩,
        { s with host := ⟨[], run.state⟩, workspace := run.value.2 }) := by
  simp only [operationStep]
  rw [Dialogue.run_of_quiet Depot.host _ hquiet]
  rfl

/-- Without effects that are queued there are none. -/
theorem step_quiet (hquiet : s.host.pending = []) {step : Step} (hstep : step.isInjection = false) :
    (s.step step).2.host.pending = [] := by
  cases step with
  | operation op =>
    have hop := operationStep_of_quiet hquiet op
    rw [Session.step, hop]
  | host op =>
    cases op with
    | inject entry request => cases hstep
    | _ => exact hquiet

/-- **A step that only reads** leaves the session as it is, but for misuses that it notes.  It
    calls reading entries only, and what it shows as a view goes away without a word. -/
theorem step_of_isReadOnly (hquiet : s.host.pending = []) {step : Step} (hstep : step.isReadOnly) :
    (s.step step).2.forget = s.forget ∧
      (∀ c ∈ Happening.calls (s.step step).1.trace, c.isReading) ∧
      ∀ x shareCount type, (s.step step).1.answer = .ok (.viewed x shareCount type) →
        ∀ ctx, x.container.cleanup ctx = .done () := by
  cases step with
  | operation op =>
    let run := (op.perform s.context s.workspace).run Depot.host s.depot
    obtain ⟨hreads, hworkspace, hview⟩ :
        (∀ c ∈ Happening.calls run.trace, c.isReading) ∧ Outcome.Reads s.workspace run.value :=
      (Operation.perform_reads hstep).run Depot.host s.depot
    have hforget : run.state.forget = s.depot.forget :=
      Depot.forget_walks (Dialogue.run_walks _ Depot.host s.depot) hreads
    rw [Session.step, operationStep_of_quiet hquiet op]
    refine ⟨?_, hreads, fun x shareCount type hanswer ctx => ?_⟩
    · -- The workspace is as it was, and of the depot only the misuses may have changed.
      show (⟨s.context, ⟨[], run.state.forget⟩, run.value.2⟩ : Session) =
        ⟨s.context, ⟨s.host.pending, s.depot.forget⟩, s.workspace⟩
      rw [hforget, hworkspace, hquiet]
    · have hhost := hview x shareCount type hanswer
      rw [Container.cleanup_eq, hhost]
      split <;> rfl
  | host op =>
    have hsee : ∀ (ref : Reference) (f : Handle → Answer),
        (∀ h x shareCount type, f h ≠ .viewed x shareCount type) →
        ∀ x shareCount type, s.see ref f ≠ .ok (.viewed x shareCount type) := by
      intro ref f hf x shareCount type
      unfold see
      cases s.workspace.handle ref with
      | error failure => rintro ⟨⟩
      | ok h => exact fun h' => hf h x shareCount type (Except.ok.inj h')
    cases op with
    | shareCount ref | isAlive ref | postings ref =>
      refine ⟨rfl, fun c hc => absurd hc List.not_mem_nil, fun x shareCount type hanswer => ?_⟩
      exact absurd hanswer (hsee ref _ (fun _ _ _ _ => Answer.noConfusion) x shareCount type)
    | _ => cases hstep

/-! ### Sessions without their readings -/

/-- The steps of a session, one after the other: what came of each, and the session after it. -/
def history (s : Session) : List Step → List (Report × Session)
  | [] => []
  | step :: rest => s.step step :: (s.step step).2.history rest

/-- What came of a step, and the session after it but for the misuses that were noted. -/
def seen (entry : Report × Session) : Report × Session := (entry.1, entry.2.forget)

/-- The steps that are not marked. -/
def unmarked {α : Type} (steps : List (α × Bool)) : List α := (steps.filter (!·.2)).map (·.1)

/-- Leaving out marked steps that only read, the others see the same as with them. -/
theorem history_unmarked {s s' : Session} (h : s.forget = s'.forget) (hquiet : s.host.pending = [])
    {steps : List (Step × Bool)} (hmarked : ∀ p ∈ steps, p.2 → p.1.isReadOnly)
    (hprompt : ∀ p ∈ steps, p.1.isInjection = false) :
    (unmarked ((s.history (steps.map (·.1))).zip (steps.map (·.2)))).map seen =
        (s'.history (unmarked steps)).map seen ∧
      (s.run (steps.map (·.1))).2.forget = (s'.run (unmarked steps)).2.forget := by
  induction steps generalizing s s' with
  | nil => exact ⟨rfl, h⟩
  | cons first rest ih =>
    obtain ⟨step, marked⟩ := first
    rw [List.forall_mem_cons] at hmarked hprompt
    have hnext := step_quiet hquiet hprompt.1
    cases marked with
    | true =>
      -- The step that is left out changes nothing but what is on record.
      have hsame := (step_of_isReadOnly hquiet (hmarked.1 rfl)).1
      exact ih (hsame.trans h) hnext hmarked.2 hprompt.2
    | false =>
      obtain ⟨hreport, hafter⟩ := forget_step h step
      obtain ⟨hhistory, hrun⟩ := ih hafter hnext hmarked.2 hprompt.2
      refine ⟨?_, hrun⟩
      show seen (s.step step) :: _ = seen (s'.step step) :: _
      rw [seen, seen, hreport, hafter]
      exact congrArg (_ :: ·) hhistory

/-- In a history, the steps that only read call reading entries only. -/
theorem history_of_isReadOnly (hquiet : s.host.pending = []) {steps : List Step}
    (hprompt : ∀ step ∈ steps, step.isInjection = false) :
    ∀ p ∈ (s.history steps).zip steps, p.2.isReadOnly →
      (∀ c ∈ Happening.calls p.1.1.trace, c.isReading) ∧
      ∀ x shareCount type, p.1.1.answer = .ok (.viewed x shareCount type) →
        ∀ ctx, x.container.cleanup ctx = .done () := by
  induction steps generalizing s with
  | nil => exact fun _ hp => absurd hp List.not_mem_nil
  | cons step rest ih =>
    rw [List.forall_mem_cons] at hprompt
    intro p hp hread
    rcases List.mem_cons.mp hp with rfl | hp
    · exact (step_of_isReadOnly hquiet hread).2
    · exact ih (step_quiet hquiet hprompt.1) hprompt.2 p hp hread

/-- **Readings leave no trace.** Take any session on a depot in which no effects are queued, and
    leave out any of the steps that only read.  What comes of each of the others, with every call
    and event and with the misuses that it notes, is the same as with them, and so is the session
    after it: its variables, the resources of its depot and the failures that were asked for.  The
    same holds when all variables go away at the end.  The steps that only read call no entries but
    reading ones, and the views that they make go away without a word. -/
theorem readings_leave_no_trace (ctx : Context) (steps : List (Step × Bool))
    (hmarked : ∀ p ∈ steps, p.2 → p.1.isReadOnly)
    (hprompt : ∀ p ∈ steps, p.1.isInjection = false) :
    let s : Session := { context := ctx }
    let all := steps.map (·.1)
    let kept := unmarked steps
    (unmarked ((s.history all).zip (steps.map (·.2)))).map seen = (s.history kept).map seen ∧
    (s.run all).2.forget = (s.run kept).2.forget ∧
    seen (s.run all).2.finish = seen (s.run kept).2.finish ∧
    ∀ p ∈ (s.history all).zip all, p.2.isReadOnly →
      (∀ c ∈ Happening.calls p.1.1.trace, c.isReading) ∧
      ∀ x shareCount type, p.1.1.answer = .ok (.viewed x shareCount type) →
        x.container.cleanup ctx = .done () := by
  intro s all kept
  have hall : ∀ step ∈ all, step.isInjection = false := by
    intro step hstep
    obtain ⟨p, hp, rfl⟩ := List.mem_map.mp hstep
    exact hprompt p hp
  obtain ⟨hhistory, hrun⟩ := history_unmarked (s := s) rfl rfl hmarked hprompt
  obtain ⟨hreport, hfinish⟩ := forget_finish hrun
  refine ⟨hhistory, hrun, Prod.ext hreport hfinish, fun p hp hread => ?_⟩
  obtain ⟨hcalls, hviews⟩ := history_of_isReadOnly (s := s) rfl hall p hp hread
  exact ⟨hcalls, fun x shareCount type hanswer => hviews x shareCount type hanswer ctx⟩

/-- A sparse array is looked into while it is alive, and read after it was destroyed, which is noted
    as a misuse.  That is all that is left behind. -/
theorem readings_leave_no_trace_of_dead_array :
    let steps : List (Step × Bool) :=
      [(.host (.alloc (.sparseArray 2 [3]) none (some "h")), false),
        (.operation (.wrap .sparseArray (.named "h") (.ownership .callerOwned) "a"), false),
        (.operation (.view "a" (some "implicit_value") none), true),
        (.operation (.drop "a"), false),
        (.operation (.wrap .sparseArray (.named "h") (.ownership .hostManaged) "b"), false),
        (.operation (.get "b" "rank"), true),
        (.host (.isAlive (.named "h")), true)]
    let s : Session := { context := .full }
    let all := steps.map (·.1)
    let kept := unmarked steps
    (∀ p ∈ steps, p.2 → p.1.isReadOnly) ∧ (∀ p ∈ steps, p.1.isInjection = false) ∧
      (s.run all).2.depot.violations = [⟨"get_rank", .released, .ofNumber 3⟩] ∧
      (s.run kept).2.depot.violations = [] ∧
      (s.run all).2.forget = (s.run kept).2.forget := by
  intro steps s all kept
  have hmarked : ∀ p ∈ steps, p.2 → p.1.isReadOnly := by decide
  have hprompt : ∀ p ∈ steps, p.1.isInjection = false := by decide
  have hnoted : (s.run all).2.depot.violations = [⟨"get_rank", .released, .ofNumber 3⟩] := by
    decide +kernel
  have hnothing : (s.run kept).2.depot.violations = [] := by decide +kernel
  exact ⟨hmarked, hprompt, hnoted, hnothing,
    (readings_leave_no_trace .full steps hmarked hprompt).2.1⟩

end Session

end Custody
