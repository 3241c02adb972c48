import Custody.Host.Dialogue

namespace Custody

/-!
# Paths through a dialogue

What a dialogue does depends on the answers of the host.  A *path* is what happens under one
choice of answers: a trace, and the value at its end.  A property of every path holds with
every host, so it is proved without one.

* `Dialogue.Always` -- a property of the trace and the value on every path;
* `always_bind` -- the paths of two dialogues in sequence;
* `Dialogue.Within` -- every call on every path is of a certain sort; `Dialogue.Each` -- every step;
* `Dialogue.ComesTo` -- the value and the calls of a run, put together from those of its parts;
* `Dialogue.unlogged` -- a dialogue without its events, which only the log misses;
* `Host.Walks` -- a trace takes a host from one state to another; `run_walks` says that a run
  is a path along which the host walks.
-/

/-- The calls among the steps of a trace. -/
def Happening.calls (trace : List Happening) : List Call := trace.filterMap Happening.call?

namespace Happening

/-- No steps, no calls. -/
@[simp] theorem calls_nil : calls [] = [] := rfl

/-- A call with its answer is one of the calls. -/
@[simp] theorem calls_called (c : Call) (a : c.Answer) (trace : List Happening) :
    calls (.called c a :: trace) = c :: calls trace := rfl

/-- An event is none of the calls. -/
@[simp] theorem calls_logged (e : Event) (trace : List Happening) :
    calls (.logged e :: trace) = calls trace := rfl

/-- The calls of two traces follow each other. -/
@[simp] theorem calls_append (trace trace' : List Happening) :
    calls (trace ++ trace') = calls trace ++ calls trace' := List.filterMap_append

end Happening

namespace Dialogue

variable {α β σ : Type}

/-- On every path, whatever the host answers, trace and value satisfy `Q`. -/
def Always : Dialogue α → (List Happening → α → Prop) → Prop
  | .done value, Q => Q [] value
  | .call request next, Q =>
      ∀ answer, (next answer).Always fun trace value => Q (.called request answer :: trace) value
  | .log event next, Q => next.Always fun trace value => Q (.logged event :: trace) value

/-- Unfolding lemma: a finished dialogue has one path, on which nothing happens. -/
@[simp] theorem always_done (value : α) (Q : List Happening → α → Prop) :
    (done value).Always Q ↔ Q [] value := Iff.rfl

/-- Unfolding lemma: after a call there is a path for every answer. -/
@[simp] theorem always_call (request : Call) (next : request.Answer → Dialogue α)
    (Q : List Happening → α → Prop) :
    (call request next).Always Q ↔
      ∀ answer, (next answer).Always fun trace value =>
        Q (.called request answer :: trace) value := Iff.rfl

/-- Unfolding lemma: an event is the first step of every path. -/
@[simp] theorem always_log (event : Event) (next : Dialogue α)
    (Q : List Happening → α → Prop) :
    (log event next).Always Q ↔
      next.Always fun trace value => Q (.logged event :: trace) value := Iff.rfl

/-- A property of all paths can be weakened. -/
theorem Always.imp {d : Dialogue α} {Q R : List Happening → α → Prop} (hd : d.Always Q)
    (h : ∀ trace value, Q trace value → R trace value) : d.Always R := by
  induction d generalizing Q R with
  | done value => exact h [] value hd
  | call request next ih => exact fun answer => ih answer (hd answer) fun _ _ => h _ _
  | log event next ih => exact ih hd fun _ _ => h _ _

/-- Every dialogue has the property that says nothing. -/
theorem always_true (d : Dialogue α) : d.Always fun _ _ => True := by
  induction d with
  | done value => exact trivial
  | call request next ih => exact ih
  | log event next ih => exact ih

/-- Two properties of all paths hold together. -/
theorem Always.and {d : Dialogue α} {Q R : List Happening → α → Prop} (hQ : d.Always Q)
    (hR : d.Always R) : d.Always fun trace value => Q trace value ∧ R trace value := by
  induction d generalizing Q R with
  | done value => exact ⟨hQ, hR⟩
  | call request next ih => exact fun answer => ih answer (hQ answer) (hR answer)
  | log event next ih => exact ih hQ hR

/-- A path through two dialogues in sequence is a path through the first and then one through
    the second. -/
theorem always_bind (d : Dialogue α) (f : α → Dialogue β) (Q : List Happening → β → Prop) :
    (d.bind f).Always Q ↔
      d.Always fun trace value => (f value).Always fun trace' value' =>
        Q (trace ++ trace') value' := by
  induction d generalizing Q with
  | done value => simp
  | call request next ih => simp [ih]
  | log event next ih => simp [ih]

/-- **Adequacy.** What holds on every path holds of a run with any host. -/
theorem Always.run {d : Dialogue α} {Q : List Happening → α → Prop} (hd : d.Always Q)
    (host : Host σ) (s : σ) : Q (d.run host s).trace (d.run host s).value := by
  induction d generalizing s Q with
  | done value => exact hd
  | call request next ih => exact ih _ (hd _) _
  | log event next ih => exact ih hd _

/-! ### Which calls are made -/

/-- Every call on every path is of the sort `p`. -/
def Within (p : Call → Prop) (d : Dialogue α) : Prop :=
  d.Always fun trace _ => ∀ c ∈ Happening.calls trace, p c

variable {p : Call → Prop}

/-- A finished dialogue makes no call. -/
@[simp] theorem within_done (value : α) : (done value).Within p := by simp [Within]

/-- A call is of the sort, and so is what follows on any answer. -/
theorem within_call {request : Call} {next : request.Answer → Dialogue α} (h : p request)
    (hnext : ∀ answer, (next answer).Within p) : (call request next).Within p :=
  fun answer => (hnext answer).imp fun _ _ htrace => List.forall_mem_cons.mpr ⟨h, htrace⟩

/-- Events do not count as calls. -/
theorem within_log {event : Event} {next : Dialogue α} (h : next.Within p) :
    (log event next).Within p := h

/-- A call by itself is of the sort if it is. -/
theorem within_ask {request : Call} (h : p request) : (ask request).Within p := by
  simpa [Within, ask] using fun _ => h

/-- An event by itself makes no call. -/
theorem within_tell (event : Event) : (tell event).Within p := by simp [Within, tell]

/-- In sequence, the calls of both dialogues are of the sort. -/
theorem within_bind {d : Dialogue α} {f : α → Dialogue β} (hd : d.Within p)
    (hf : ∀ value, (f value).Within p) : (d.bind f).Within p := by
  refine (always_bind d f _).mpr (hd.imp fun trace value h => ?_)
  refine (hf value).imp fun trace' _ h' c hc => ?_
  rw [Happening.calls_append, List.mem_append] at hc
  exact hc.elim (h c) (h' c)

end Dialogue

/-! ### Which steps are taken -/

namespace Dialogue

variable {α β : Type} {p : Happening → Prop}

/-- Every step on every path, whether a call with its answer or an event, satisfies `p`. -/
def Each (p : Happening → Prop) (d : Dialogue α) : Prop := d.Always fun trace _ => ∀ x ∈ trace, p x

/-- A finished dialogue takes no step. -/
theorem each_done (value : α) : (done value).Each p := fun _ hx => absurd hx List.not_mem_nil

/-- A call is a step whatever the answer is. -/
theorem each_call {request : Call} {next : request.Answer → Dialogue α}
    (h : ∀ answer, p (.called request answer)) (hnext : ∀ answer, (next answer).Each p) :
    (call request next).Each p := fun answer =>
  (hnext answer).imp fun _ _ htrace => List.forall_mem_cons.mpr ⟨h answer, htrace⟩

/-- An event is a step. -/
theorem each_log {event : Event} {next : Dialogue α} (h : p (.logged event)) (hnext : next.Each p) :
    (log event next).Each p :=
  hnext.imp fun _ _ htrace => List.forall_mem_cons.mpr ⟨h, htrace⟩

/-- The steps of two dialogues in sequence are those of the first and those of the second. -/
theorem each_bind {d : Dialogue α} {f : α → Dialogue β} (hd : d.Each p)
    (hf : ∀ value, (f value).Each p) : (d.bind f).Each p := by
  refine (always_bind d f _).mpr (hd.imp fun trace value h => ?_)
  exact (hf value).imp fun trace' _ h' => List.forall_mem_append.mpr ⟨h, h'⟩

/-- What is made of a value takes no step. -/
theorem each_map {d : Dialogue α} {f : α → β} (hd : d.Each p) :
    (d.bind fun value => done (f value)).Each p :=
  each_bind hd fun _ => each_done _

/-- Dialogues one after the other take the steps of each of them. -/
theorem each_mapM {γ : Type} {f : γ → Dialogue β} (hf : ∀ x, (f x).Each p) (xs : List γ) :
    (xs.mapM f).Each p := by
  induction xs with
  | nil => exact each_done _
  | cons x xs ih =>
    rw [List.mapM_cons]
    exact each_bind (hf x) fun _ => each_bind ih fun _ => each_done _

/-- What holds of all steps holds of the calls among them. -/
theorem Each.within {q : Call → Prop} {d : Dialogue α} (hd : d.Each p)
    (h : ∀ c a, p (.called c a) → q c) : d.Within q := by
  refine Always.imp hd fun trace _ hsteps c hc => ?_
  obtain ⟨step, hstep, hcall⟩ := List.mem_filterMap.mp hc
  cases step with
  | logged e => cases hcall
  | called c' a =>
    obtain rfl := Option.some.inj hcall
    exact h _ a (hsteps _ hstep)

end Dialogue

/-! ### What a run comes to -/

namespace Dialogue

variable {α β σ : Type} {host : Host σ} {s : σ} {value : α} {calls : List Call}

/-- With this host and from this state of it, the dialogue makes these calls and ends with this
    value. -/
def ComesTo (host : Host σ) (s : σ) (d : Dialogue α) (value : α) (calls : List Call) : Prop :=
  (d.run host s).value = value ∧ (d.run host s).calls = calls

/-- A finished dialogue comes to its value without a call. -/
theorem comesTo_done (value : α) : (done value).ComesTo host s value [] := ⟨rfl, rfl⟩

/-- An event changes nothing about what a dialogue comes to. -/
theorem comesTo_log {event : Event} {next : Dialogue α} (h : next.ComesTo host s value calls) :
    (log event next).ComesTo host s value calls := h

/-- After a call, a dialogue comes to what the rest comes to with the answer of this host. -/
theorem comesTo_call {request : Call} {next : request.Answer → Dialogue α}
    (h : (next (host.answer request s).1).ComesTo host (host.answer request s).2 value calls) :
    (call request next).ComesTo host s value (request :: calls) := by
  refine ⟨h.1, ?_⟩
  rw [← h.2]
  rfl

/-- In sequence, the calls of the second dialogue follow those of the first. -/
theorem ComesTo.bind {d : Dialogue α} {f : α → Dialogue β} {value' : β} {calls' : List Call}
    (hd : d.ComesTo host s value calls)
    (hf : (f value).ComesTo host (d.run host s).state value' calls') :
    (d.bind f).ComesTo host s value' (calls ++ calls') := by
  obtain ⟨rfl, rfl⟩ := hd
  obtain ⟨rfl, rfl⟩ := hf
  rw [ComesTo, run_bind]
  exact ⟨rfl, List.filterMap_append⟩

/-- A dialogue that makes no calls once the first part of it is over. -/
theorem ComesTo.bind_quiet {d : Dialogue α} {f : α → Dialogue β} {value' : β}
    (hd : d.ComesTo host s value calls) (hf : ∀ s', (f value).ComesTo host s' value' []) :
    (d.bind f).ComesTo host s value' calls := by
  have hbind := hd.bind (hf _)
  rwa [List.append_nil] at hbind

end Dialogue

/-! ### Leaving out the log -/

namespace Dialogue

variable {α β σ : Type}

/-- The dialogue without the events that it logs. -/
def unlogged : Dialogue α → Dialogue α
  | .done value => .done value
  | .call request next => .call request fun answer => (next answer).unlogged
  | .log _ next => next.unlogged

/-- A finished dialogue logs nothing. -/
@[simp] theorem unlogged_done (value : α) : (done value).unlogged = .done value := rfl

/-- Calls stay where they are. -/
@[simp] theorem unlogged_call (request : Call) (next : request.Answer → Dialogue α) :
    (call request next).unlogged = .call request fun answer => (next answer).unlogged := rfl

/-- Events are left out. -/
@[simp] theorem unlogged_log (event : Event) (next : Dialogue α) :
    (log event next).unlogged = next.unlogged := rfl

/-- Only the log misses the events: value, state and calls are as they were. -/
theorem run_unlogged (d : Dialogue α) (host : Host σ) (s : σ) :
    (d.unlogged.run host s).value = (d.run host s).value ∧
      (d.unlogged.run host s).state = (d.run host s).state ∧
      (d.unlogged.run host s).calls = (d.run host s).calls := by
  induction d generalizing s with
  | done value => exact ⟨rfl, rfl, rfl⟩
  | call request next ih =>
    obtain ⟨hvalue, hstate, hcalls⟩ := ih (host.answer request s).1 (host.answer request s).2
    exact ⟨hvalue, hstate, congrArg (request :: ·) hcalls⟩
  | log event next ih => exact ih s

/-- Two dialogues that are the same but for the log differ in nothing else. -/
theorem run_eq_of_unlogged {d d' : Dialogue α} (h : d.unlogged = d'.unlogged) (host : Host σ)
    (s : σ) :
    (d.run host s).value = (d'.run host s).value ∧
      (d.run host s).state = (d'.run host s).state ∧
      (d.run host s).calls = (d'.run host s).calls := by
  obtain ⟨hvalue, hstate, hcalls⟩ := run_unlogged d host s
  rw [h] at hvalue hstate hcalls
  obtain ⟨hvalue', hstate', hcalls'⟩ := run_unlogged d' host s
  exact ⟨hvalue.symm.trans hvalue', hstate.symm.trans hstate', hcalls.symm.trans hcalls'⟩

end Dialogue

/-! ### What a trace does to a host -/

/-- The trace takes the host from one state to another: every call in it was answered as the
    host answers. -/
inductive Host.Walks {σ : Type} (host : Host σ) : σ → List Happening → σ → Prop where
  | nil (s : σ) : Walks host s [] s
  | called {s s' : σ} {trace : List Happening} (c : Call)
      (rest : Walks host (host.answer c s).2 trace s') :
      Walks host s (.called c (host.answer c s).1 :: trace) s'
  | logged {s s' : σ} {trace : List Happening} (e : Event) (rest : Walks host s trace s') :
      Walks host s (.logged e :: trace) s'

/-- A run is a path along which the host walks. -/
theorem Dialogue.run_walks {α σ : Type} (d : Dialogue α) (host : Host σ) (s : σ) :
    host.Walks s (d.run host s).trace (d.run host s).state := by
  induction d generalizing s with
  | done value => exact .nil s
  | call request next ih => exact .called request (ih _ _)
  | log event next ih => exact .logged event (ih _)

end Custody
