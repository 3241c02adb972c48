import Custody.Proofs.Depot.Forms
import Custody.Proofs.Disturbance
import Custody.Proofs.Soundness

namespace Custody

/-!
# Tame effects

An effect is tame if it puts no handle of its own into an answer.  It may fail a call, early or
late, empty a slot, or give any number.  Under a tame effect a depot answers as usual, or with
something that the caller sees nothing of.

* `Effect.Tame`, `Disturbed.Tame` -- no handle is put into an answer;
* `Depot.apply_of_value_eq_none` -- what a depot answers under an effect without a handle;
* `Hands.Sound.walks` -- **a permitted trace keeps hands sound**, whatever effects are met.
-/

/-- Whether an answer of the shape can hold a handle. -/
def Shape.carriesHandle : Shape → Bool
  | outcome | handle | slot => true
  | integer | dimensions | nothing => false

/-- The effect puts no handle into an answer of the entry. -/
def Effect.Tame (entry : Entry) (e : Effect) : Prop :=
  ∀ c : Call, c.entry = entry → c.shape.carriesHandle → e.value = none

/-- No effect that waits puts a handle into an answer. -/
def Disturbed.Tame {σ : Type} (s : Disturbed σ) : Prop := ∀ p ∈ s.pending, p.2.Tame p.1

/-! ### Answers under an effect -/

/-- Where a handle is asked for, an effect without one lets the usual answer through, or grants
    at most what stood in the slot before. -/
theorem Effect.apply_deliver {σ : Type} (e : Effect) (he : e.value = none) {s : Shape}
    (hs : s = .outcome ∨ s = .handle) (make : σ → Except Int Handle × σ) (st : σ) :
    let usual := fun st => (s.deliver (make st).1, (make st).2)
    e.apply s usual st = usual st ∨
      ((∀ initial h, s.granted initial (e.apply s usual st).1 = .ok h → h = initial) ∧
        ((e.apply s usual st).2 = st ∨ (e.apply s usual st).2 = (make st).2)) := by
  intro usual
  have hhandle : e.handle? = none := by simp [handle?, he]
  rcases hs with rfl | rfl
  · by_cases hnull : e.null
    · refine .inr ⟨fun initial h hg => ?_, ?_⟩
      · simp only [apply, hnull, ↓reduceIte, Shape.granted, Option.getD_some] at hg
        split at hg <;> cases hg
      · cases hlate : e.late <;> simp [apply, hlate, usual]
    · cases hlate : e.late with
      | false =>
        refine .inr ⟨fun initial h hg => ?_, .inl ?_⟩
        · simp only [apply, hnull, hhandle, hlate] at hg
          exact Depot.eq_of_granted_none hg
        · simp [apply, hlate]
      | true =>
        cases hmade : (make st).1 with
        | error code =>
          refine .inr ⟨fun initial h hg => ?_, .inr ?_⟩
          · simp only [apply, hnull, hhandle, hlate, usual, hmade, Shape.deliver] at hg
            exact Depot.eq_of_granted_none hg
          · simp [apply, hlate, usual]
        | ok h =>
          -- The handle was written late.  The caller reads it only next to a good status.
          by_cases hcode : e.code = Status.noError
          · refine .inl ?_
            simp [apply, hnull, hhandle, hlate, usual, hmade, Shape.deliver, hcode]
          · refine .inr ⟨fun initial h hg => ?_, .inr ?_⟩
            · simp [apply, hnull, hhandle, hlate, usual, hmade, Shape.deliver, Shape.granted,
                hcode] at hg
            · simp [apply, hlate, usual]
  · refine .inr ⟨fun initial h hg => ?_, ?_⟩
    · simp [apply, hhandle, Shape.granted, Handle.granted] at hg
    · cases hlate : e.late <;> simp [apply, hlate, usual]

/-- The caller sees nothing of the answer but an empty slot. -/
structure Call.Unseen (c : Call) (a : c.Answer) : Prop where
  brings : c.brings? a = none
  shows : ∀ x, c.shows? a = some x → x.container.isNull

namespace Depot

variable {c : Call} {d : Depot}

/-- A call that may deliver a handle answers with an outcome or with the bare handle. -/
theorem shape_of_yield? (hc : c.yield?.isSome) : c.shape = .outcome ∨ c.shape = .handle := by
  cases c with
  | clone kind source => cases kind <;> simp
  | createStore | convertImage => exact .inr rfl
  | read | dimensions | member | free | disown | add => cases hc
  | _ => exact .inl rfl

/-- A call that makes a container meets an effect without a handle: the container is made or
    not, and if it is not granted as usual, nothing is granted. -/
theorem apply_of_yield? {e : Effect} (hc : c.yield?.isSome)
    (he : c.shape.carriesHandle → e.value = none) :
    e.apply c.shape (fun d => d.answer c) d = d.answer c ∨
      (c.Unseen (e.apply c.shape (fun d => d.answer c) d).1 ∧
        ((e.apply c.shape (fun d => d.answer c) d).2 = d ∨
          (e.apply c.shape (fun d => d.answer c) d).2 = (d.answer c).2)) := by
  have hshape := shape_of_yield? hc
  have hvalue : e.value = none := he (by
    rcases hshape with h | h <;> simp [h, Shape.carriesHandle])
  have hmake : (fun d : Depot => (c.shape.deliver (d.make c).1, (d.make c).2)) =
      fun d => d.answer c := funext fun d => (answer_of_yield? hc d).symm
  have hstate : (d.make c).2 = (d.answer c).2 := by rw [answer_of_yield? hc]
  have hcases := e.apply_deliver hvalue hshape (fun d : Depot => d.make c) d
  rw [hmake, hstate] at hcases
  refine hcases.imp id fun ⟨hgranted, hafter⟩ => ⟨⟨brings?_eq_none (hgranted _), ?_⟩, hafter⟩
  intro x hx
  cases c <;> first | cases hx | cases hc

/-- A call that only asks meets an effect without a handle: it is answered as usual, or the
    depot is not asked and nothing is seen. -/
theorem apply_of_isReading {e : Effect} (hc : c.isReading)
    (he : c.shape.carriesHandle → e.value = none) :
    e.apply c.shape (fun d => d.answer c) d = d.answer c ∨
      (c.Unseen (e.apply c.shape (fun d => d.answer c) d).1 ∧
        (e.apply c.shape (fun d => d.answer c) d).2 = d) := by
  cases c with
  | read k q h =>
    cases hvalue : e.value with
    | none => exact .inl (by simp [Effect.apply, hvalue])
    | some n => exact .inr ⟨⟨rfl, fun _ h => by cases h⟩, by simp [Effect.apply, hvalue]⟩
  | dimensions k h =>
    cases hnull : e.null with
    | false => exact .inl (by simp [Effect.apply, hnull])
    | true => exact .inr ⟨⟨rfl, fun _ h => by cases h⟩, by simp [Effect.apply, hnull]⟩
  | member m array =>
    have hhandle : e.handle? = none := by simp [Effect.handle?, he rfl]
    cases hslot : e.nullSlot with
    | true =>
      -- The slot then names the null handle, which is all that is seen.
      refine .inr ⟨⟨rfl, fun x hx => ?_⟩, by simp [Effect.apply, hslot]⟩
      simp only [Effect.apply, hslot, ↓reduceIte, Call.shows?, Option.map_some] at hx
      obtain rfl := Option.some.inj hx
      rfl
    | false =>
      cases hnull : e.null with
      | false => exact .inl (by simp [Effect.apply, hslot, hhandle, hnull])
      | true =>
        refine .inr ⟨⟨rfl, fun x hx => ?_⟩, ?_⟩
        · simp [Effect.apply, hslot, hhandle, hnull, Call.shows?] at hx
        · simp [Effect.apply, hslot, hhandle, hnull]
  | _ => cases hc

/-- Under an effect without a handle, a depot answers as usual, or with something that the
    caller sees nothing of. -/
theorem apply_of_value_eq_none {e : Effect} (he : c.shape.carriesHandle → e.value = none) :
    e.apply c.shape (fun d => d.answer c) d = d.answer c ∨
      (c.Unseen (e.apply c.shape (fun d => d.answer c) d).1 ∧
        ((c.isReading ∧ (e.apply c.shape (fun d => d.answer c) d).2 = d) ∨
          (c.yield?.isSome ∧ ((e.apply c.shape (fun d => d.answer c) d).2 = d ∨
            (e.apply c.shape (fun d => d.answer c) d).2 = (d.answer c).2)))) := by
  cases c with
  | read | dimensions | member =>
    exact (apply_of_isReading rfl he).imp id fun ⟨hunseen, h⟩ => ⟨hunseen, .inl ⟨rfl, h⟩⟩
  | free | disown | add => exact .inl rfl
  | _ => exact (apply_of_yield? rfl he).imp id fun ⟨hunseen, h⟩ => ⟨hunseen, .inr ⟨rfl, h⟩⟩

end Depot

/-! ### Traces under effects -/

namespace Hands.Sound

variable {H : Hands} {c : Call} {s s' : Disturbed Depot}

/-- An answer of which the caller sees nothing leaves sound hands sound. -/
theorem of_unseen {d d' : Depot} (hs : H.Sound d) (hc : H.Permits c) {a : c.Answer}
    (ha : c.Unseen a) (hd : (c.isReading ∧ d' = d) ∨
      (c.yield?.isSome ∧ (d' = d ∨ d' = (d.answer c).2))) : (H.after c a).Sound d' := by
  rcases hd with ⟨hreading, rfl⟩ | ⟨hyield, hd⟩
  · rw [after_of_isReading H hreading]
    cases hshows : c.shows? a with
    | none => exact hs
    | some x =>
      have hview := Call.isOwner_of_shows? hshows
      exact hs.cons (Holding.isOwned_eq_false hview) (Holding.isShare_eq_false hview)
        (.inl (ha.shows x hshows))
  · rw [after_of_yield? H hyield, ha.brings]
    rcases hd with rfl | rfl
    · exact hs
    · exact hs.unseen hc hyield

/-- A permitted call keeps hands sound if no effect puts a handle into its answer. -/
theorem disturbed (hs : H.Sound s.state) (htame : s.Tame) (hc : H.Permits c) :
    (H.after c (Depot.host.disturbed.answer c s).1).Sound
        (Depot.host.disturbed.answer c s).2.state ∧
      (Depot.host.disturbed.answer c s).2.Tame := by
  rcases Depot.host.disturbed_cases c s with h | ⟨effect, pending, hmem, hrest, h⟩
  · rw [h]
    exact ⟨hs.answer hc, htame⟩
  · have hvalue : c.shape.carriesHandle → (effect.fitted c).value = none := fun hshape => by
      have hnone : effect.value = none := htame _ hmem c rfl hshape
      simp [Effect.fitted, hnone]
    rw [h]
    refine ⟨?_, fun p hp => htame p (hrest p hp)⟩
    rcases Depot.apply_of_value_eq_none (d := s.state) hvalue with h | ⟨hunseen, hstate⟩
    · show (H.after c ((effect.fitted c).apply c.shape (fun d => d.answer c) s.state).1).Sound
        ((effect.fitted c).apply c.shape (fun d => d.answer c) s.state).2
      rw [h]
      exact hs.answer hc
    · exact hs.of_unseen hc hunseen hstate

/-- **A permitted trace keeps hands sound**, whatever tame effects are met on the way. -/
theorem walks {trace : List Happening} (hs : H.Sound s.state) (htame : s.Tame)
    (hwalks : Depot.host.disturbed.Walks s trace s') (htrace : H.PermitsAll trace) :
    (H.afterAll trace).Sound s'.state ∧ s'.Tame := by
  induction hwalks generalizing H with
  | nil s => exact ⟨hs, htame⟩
  | called c rest ih =>
    obtain ⟨hs', htame'⟩ := hs.disturbed htame htrace.1
    exact ih hs' htame' htrace.2
  | logged e rest ih => exact ih hs htame htrace

end Hands.Sound

end Custody
