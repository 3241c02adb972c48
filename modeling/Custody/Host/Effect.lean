import Custody.Host.Dialogue

namespace Custody

/-!
# Hosts that misbehave on request

An effect replaces one answer of a host: a failure, a null handle where none is expected, any
handle or number, or an action that is reported to have failed.

* `Effect` -- what the next call of an entry answers with.
* `Effect.apply` -- the answer under an effect, by shape.
* `Host.disturbed` -- a host with a queue of effects in front of it.
-/

/-- What a call answers with in place of its usual answer. -/
structure Effect where
  /-- The status. -/
  code : Int := 0
  /-- The number, or the number of the resource whose handle is in the slot. -/
  value : Option Int := none
  /-- Whether there is a null handle in the slot, or no dimensions, or no slot. -/
  null : Bool := false
  /-- Whether there is a slot inside the container with a null handle in it. -/
  nullSlot : Bool := false
  /-- Whether the entry does its work before the answer is replaced. -/
  late : Bool := false
  deriving DecidableEq, Repr

namespace Effect

variable {σ : Type}

/-- The handle that the effect puts in place of the usual one, if it does. -/
def handle? (e : Effect) : Option Handle := e.value.map Handle.ofInt

/-- The effect as the answer to a call can carry it. -/
def fitted (e : Effect) (c : Call) : Effect := { e with value := e.value.map c.word }

/-- The answer under an effect, where `usual` is what the entry does without it. -/
def apply (e : Effect) : (s : Shape) → (usual : σ → s.Answer × σ) → σ → s.Answer × σ
  | .outcome, usual, st =>
    let (slot, st) : Option Handle × σ :=
      if e.late then
        let (reply, st) := usual st
        (reply.slot, st)
      else (none, st)
    let slot := if e.null then some .null else e.handle?.or slot
    (⟨e.code, slot⟩, st)
  | .handle, usual, st => (e.handle?.getD .null, if e.late then (usual st).2 else st)
  | .integer, usual, st =>
    match e.value with
    | some n => (n, st)
    | none => usual st
  | .dimensions, usual, st => if e.null then (none, st) else usual st
  | .slot, usual, st =>
    if e.nullSlot then (some .null, st)
    else
      match e.handle? with
      | some h => (some h, st)
      | none => if e.null then (none, st) else usual st
  | .nothing, usual, st => usual st

end Effect

/-- A host's state with the effects that wait in front of it, each for the next call of its
    entry. -/
structure Disturbed (σ : Type) where
  pending : List (Entry × Effect) := []
  state : σ

namespace Disturbed

/-- Takes the first effect that waits for an entry. -/
def takeFirst (e : Entry) : List (Entry × Effect) → Option (Effect × List (Entry × Effect))
  | [] => none
  | (entry, effect) :: rest =>
    if entry = e then some (effect, rest)
    else (takeFirst e rest).map fun (found, others) => (found, (entry, effect) :: others)

end Disturbed

/-- The host with a queue of effects in front of it.  Each effect replaces one answer. -/
def Host.disturbed {σ : Type} (host : Host σ) : Host (Disturbed σ) where
  answer c s :=
    match Disturbed.takeFirst c.entry s.pending with
    | none =>
      let (answer, state) := host.answer c s.state
      (answer, { s with state })
    | some (effect, pending) =>
      let (answer, state) := (effect.fitted c).apply c.shape (host.answer c) s.state
      (answer, ⟨pending, state⟩)

end Custody
