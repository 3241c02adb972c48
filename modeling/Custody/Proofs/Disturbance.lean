import Custody.Host.Effect

namespace Custody

/-!
# What an effect can do

An effect replaces one answer.  What it does to the state of the host behind it is either what
the call does anyway or nothing at all.

* `Effect.apply_cases` -- the usual answer, or another one over the old or the usual state;
* `Host.disturbed_cases` -- the same for a host with a queue of effects in front of it.
-/

variable {σ : Type}

/-- Under an effect the host either answers as usual, or its state is left alone, or the effect
    is late and the host has done its work. -/
theorem Effect.apply_cases (e : Effect) (s : Shape) (usual : σ → s.Answer × σ) (st : σ) :
    e.apply s usual st = usual st ∨ (e.apply s usual st).2 = st ∨
      (e.late ∧ (e.apply s usual st).2 = (usual st).2) := by
  cases s with
  | outcome => cases hlate : e.late <;> simp [apply, hlate]
  | handle => cases hlate : e.late <;> simp [apply, hlate]
  | integer => cases hvalue : e.value <;> simp [apply, hvalue]
  | dimensions => cases hnull : e.null <;> simp [apply, hnull]
  | slot =>
    cases hslot : e.nullSlot <;> cases hhandle : e.handle? <;> cases hnull : e.null <;>
      simp [apply, hslot, hhandle, hnull]
  | nothing => exact .inl rfl

namespace Disturbed

/-- No effect that waits is late. -/
def Prompt (s : Disturbed σ) : Prop := ∀ p ∈ s.pending, p.2.late = false

/-- The effect that is taken waited for the entry, and the others wait on. -/
theorem mem_of_takeFirst {entry : Entry} {pending rest : List (Entry × Effect)}
    {effect : Effect} (h : takeFirst entry pending = some (effect, rest)) :
    (entry, effect) ∈ pending ∧ ∀ p ∈ rest, p ∈ pending := by
  induction pending generalizing rest with
  | nil => simp [takeFirst] at h
  | cons first pending ih =>
    obtain ⟨other, waiting⟩ := first
    simp only [takeFirst] at h
    split at h
    · next heq =>
      obtain ⟨rfl, rfl⟩ : waiting = effect ∧ pending = rest := by simpa using h
      exact ⟨by simp [heq], fun p hp => List.mem_cons_of_mem _ hp⟩
    · obtain ⟨⟨found, others⟩, htake, heq⟩ := Option.map_eq_some_iff.mp h
      obtain ⟨rfl, rfl⟩ : found = effect ∧ (other, waiting) :: others = rest := by simpa using heq
      obtain ⟨hmem, hothers⟩ := ih htake
      refine ⟨List.mem_cons_of_mem _ hmem, fun p hp => ?_⟩
      rcases List.mem_cons.mp hp with rfl | hp
      · exact List.mem_cons_self
      · exact List.mem_cons_of_mem _ (hothers p hp)

end Disturbed

namespace Host

variable (host : Host σ)

/-- A disturbed host answers by the first effect that waits for the entry, or as usual. -/
theorem disturbed_answer (c : Call) (s : Disturbed σ) :
    host.disturbed.answer c s =
      match Disturbed.takeFirst c.entry s.pending with
      | none => ((host.answer c s.state).1, ⟨s.pending, (host.answer c s.state).2⟩)
      | some (effect, pending) =>
        (((effect.fitted c).apply c.shape (host.answer c) s.state).1,
          ⟨pending, ((effect.fitted c).apply c.shape (host.answer c) s.state).2⟩) := rfl

/-- A call to a host with effects in front of it is answered as usual, or under one of them. -/
theorem disturbed_cases (c : Call) (s : Disturbed σ) :
    host.disturbed.answer c s =
        ((host.answer c s.state).1, ⟨s.pending, (host.answer c s.state).2⟩) ∨
      ∃ effect pending, (c.entry, effect) ∈ s.pending ∧ (∀ p ∈ pending, p ∈ s.pending) ∧
        host.disturbed.answer c s =
          (((effect.fitted c).apply c.shape (host.answer c) s.state).1,
            ⟨pending, ((effect.fitted c).apply c.shape (host.answer c) s.state).2⟩) := by
  rw [disturbed_answer]
  cases htake : Disturbed.takeFirst c.entry s.pending with
  | none => exact .inl rfl
  | some taken =>
    obtain ⟨effect, pending⟩ := taken
    obtain ⟨hmem, hrest⟩ := Disturbed.mem_of_takeFirst htake
    exact .inr ⟨effect, pending, hmem, hrest, rfl⟩

/-- With no late effect in front of it, the host answers as usual, or its state is left alone. -/
theorem disturbed_of_prompt {c : Call} {s : Disturbed σ} (hs : s.Prompt) :
    (host.disturbed.answer c s).2.Prompt ∧
      (((host.disturbed.answer c s).1 = (host.answer c s.state).1 ∧
          (host.disturbed.answer c s).2.state = (host.answer c s.state).2) ∨
        (host.disturbed.answer c s).2.state = s.state) := by
  rcases host.disturbed_cases c s with h | ⟨effect, pending, hmem, hrest, h⟩
  · rw [h]
    exact ⟨hs, .inl ⟨rfl, rfl⟩⟩
  · rw [h]
    refine ⟨fun p hp => hs p (hrest p hp), ?_⟩
    rcases (effect.fitted c).apply_cases c.shape (host.answer c) s.state with h | h | ⟨hlate, -⟩
    · rw [h]
      exact .inl ⟨rfl, rfl⟩
    · exact .inr h
    · have hprompt : (effect.fitted c).late = false := hs _ hmem
      rw [hprompt] at hlate
      cases hlate

end Host

end Custody
