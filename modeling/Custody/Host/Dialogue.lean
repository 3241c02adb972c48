import Custody.Error
import Custody.Host.Event

namespace Custody

/-!
# Dialogues with a host

What an operation does is a *dialogue*: it calls entries, goes on as the answers demand, logs
events and ends with a value.  A dialogue says nothing about how a host answers, so what holds
of every path through it holds with every host.

* `Dialogue` -- the tree of calls, events and final values; a monad.
* `Host` -- something that answers calls from a state of its own.
* `Dialogue.run` -- the dialogue with one host: its value, the host's state afterwards, and the
  trace of everything that happened.
* `run_bind` -- running in sequence is running one after the other; the traces are joined.
-/

/-- What an operation says to a host, and what it ends with. -/
inductive Dialogue (α : Type) where
  | done (value : α)
  | call (request : Call) (next : request.Answer → Dialogue α)
  | log (event : Event) (next : Dialogue α)

namespace Dialogue

variable {α β γ : Type}

/-- Goes on with the value that a dialogue ends with. -/
def bind : Dialogue α → (α → Dialogue β) → Dialogue β
  | .done value, f => f value
  | .call request next, f => .call request fun answer => (next answer).bind f
  | .log event next, f => .log event (next.bind f)

/-- Dialogues in sequence, the second made of the value of the first. -/
instance : Monad Dialogue where
  pure := .done
  bind := bind

/-- Calls the host and ends with its answer. -/
def ask (request : Call) : Dialogue request.Answer := .call request .done

/-- Logs an event. -/
def tell (event : Event) : Dialogue Unit := .log event (.done ())

/-- Asks the host for a container and ends with the handle that its answer grants, where
    `initial` stands in the slot for the result. -/
def request (call : Call) (initial : Handle) : Dialogue (Except Refusal Handle) :=
  .call call fun answer => .done (call.shape.granted initial answer)

/-! ### Laws -/

/-- Nothing is done to give a value. -/
@[simp] theorem pure_eq (value : α) : (pure value : Dialogue α) = .done value := rfl

/-- The sequence of the monad is that of dialogues. -/
@[simp] theorem bind_eq (d : Dialogue α) (f : α → Dialogue β) : d >>= f = d.bind f := rfl

/-- A function of the value is applied at the end. -/
@[simp] theorem map_eq (f : α → β) (d : Dialogue α) :
    f <$> d = d.bind fun value => .done (f value) := rfl

/-- After a finished dialogue comes the next one. -/
@[simp] theorem done_bind (value : α) (f : α → Dialogue β) : (done value).bind f = f value := rfl

/-- What comes after a call comes after each of its answers. -/
@[simp] theorem call_bind (request : Call) (next : request.Answer → Dialogue α)
    (f : α → Dialogue β) :
    (call request next).bind f = .call request fun answer => (next answer).bind f := rfl

/-- What comes after an event comes after the rest. -/
@[simp] theorem log_bind (event : Event) (next : Dialogue α) (f : α → Dialogue β) :
    (log event next).bind f = .log event (next.bind f) := rfl

/-- To give the value unchanged adds nothing. -/
@[simp] theorem bind_done (d : Dialogue α) : d.bind .done = d := by
  induction d with
  | done => rfl
  | call request next ih => simp [ih]
  | log event next ih => simp [ih]

/-- Sequences of three dialogues are the same, whichever two are put together first. -/
theorem bind_assoc (d : Dialogue α) (f : α → Dialogue β) (g : β → Dialogue γ) :
    (d.bind f).bind g = d.bind fun value => (f value).bind g := by
  induction d with
  | done => rfl
  | call request next ih => simp [ih]
  | log event next ih => simp [ih]

/-- Dialogues obey the laws of monads. -/
instance : LawfulMonad Dialogue :=
  LawfulMonad.mk' Dialogue bind_done (fun _ _ => rfl) bind_assoc

end Dialogue

/-- A dialogue that may end with an error of the library. -/
abbrev Attempt (α : Type) : Type := ExceptT Error Dialogue α

namespace Attempt

variable {α β : Type}

/-! ### The dialogue behind an attempt -/

/-- An attempt that succeeds at once. -/
@[simp] theorem run_pure (value : α) : (pure value : Attempt α).run = .done (.ok value) := rfl

/-- An attempt that fails at once. -/
@[simp] theorem run_throw (e : Error) : (throw e : Attempt α).run = .done (.error e) := rfl

/-- In sequence, the second attempt is made only if the first succeeded. -/
@[simp] theorem run_bind (a : Attempt α) (f : α → Attempt β) :
    (a >>= f).run = a.run.bind fun
      | .ok value => (f value).run
      | .error e => .done (.error e) := by
  show Dialogue.bind _ _ = _
  congr
  funext r
  cases r <;> rfl

/-- A function of the value is applied to a success only. -/
@[simp] theorem run_map (f : α → β) (a : Attempt α) :
    (f <$> a).run = a.run.bind fun r => .done (r.map f) := by
  show Dialogue.bind _ _ = _
  congr
  funext r
  cases r <;> rfl

/-- A dialogue as an attempt never fails. -/
@[simp] theorem run_dialogue (d : Dialogue α) :
    (liftM d : Attempt α).run = d.bind fun value => .done (.ok value) := rfl

/-- A check as an attempt says nothing to the host. -/
@[simp] theorem run_except (r : Except Error α) : (liftM r : Attempt α).run = .done r := rfl

end Attempt

/-! ### Running a dialogue -/

/-- Something that answers calls from a state of its own. -/
structure Host (σ : Type) where
  answer : (c : Call) → σ → c.Answer × σ

/-- One step of a run. -/
inductive Happening where
  | called (call : Call) (answer : call.Answer)
  | logged (event : Event)

namespace Happening

/-- The call, if the step is one. -/
def call? : Happening → Option Call
  | called call _ => some call
  | logged _ => none

/-- The event, if the step is one. -/
def event? : Happening → Option Event
  | called _ _ => none
  | logged event => some event

end Happening

/-- What came of running a dialogue: its value, the state of the host, and what happened. -/
structure Run (σ α : Type) where
  value : α
  state : σ
  trace : List Happening

namespace Run

variable {σ α : Type}

/-- The calls made, in order. -/
def calls (r : Run σ α) : List Call := r.trace.filterMap Happening.call?

/-- The events logged, in order. -/
def events (r : Run σ α) : List Event := r.trace.filterMap Happening.event?

/-- The run with a step in front. -/
def after (step : Happening) (r : Run σ α) : Run σ α := { r with trace := step :: r.trace }

end Run

namespace Dialogue

variable {σ α β : Type}

/-- The dialogue with one host, from one state of it. -/
def run (host : Host σ) : Dialogue α → σ → Run σ α
  | .done value, s => ⟨value, s, []⟩
  | .call request next, s =>
    let (answer, s') := host.answer request s
    ((next answer).run host s').after (.called request answer)
  | .log event next, s => (next.run host s).after (.logged event)

/-- The host hears nothing of a finished dialogue. -/
@[simp] theorem run_done (host : Host σ) (value : α) (s : σ) :
    (done value).run host s = ⟨value, s, []⟩ := rfl

/-- An event leaves the state of the host alone. -/
@[simp] theorem run_log (host : Host σ) (event : Event) (next : Dialogue α) (s : σ) :
    (log event next).run host s = (next.run host s).after (.logged event) := rfl

/-- The host answers a call, and its next state is the one in which it hears the rest. -/
@[simp] theorem run_call (host : Host σ) (request : Call) (next : request.Answer → Dialogue α)
    (s : σ) :
    (call request next).run host s =
      ((next (host.answer request s).1).run host (host.answer request s).2).after
        (.called request (host.answer request s).1) := rfl

/-- **Running in sequence** is running one dialogue after the other, and joins the traces. -/
theorem run_bind (host : Host σ) (d : Dialogue α) (f : α → Dialogue β) (s : σ) :
    (d.bind f).run host s =
      let first := d.run host s
      let second := (f first.value).run host first.state
      ⟨second.value, second.state, first.trace ++ second.trace⟩ := by
  induction d generalizing s with
  | done => rfl
  | call request next ih => simp [ih, Run.after]
  | log event next ih => simp [ih, Run.after]

end Dialogue

end Custody
