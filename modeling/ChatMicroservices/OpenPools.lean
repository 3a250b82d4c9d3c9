import ChatMicroservices.ConcurrentPrograms

/-!
# Programs in surroundings that move

The state that programs share may change between their effects without any of them. A run goes
on with an effect of a program or with a move of the surroundings. Programs that are safe one by
one stay safe together when the moves keep the invariant and each program may assume them.
-/

namespace ChatMicroservices.OpenPools
open EffectPrograms ConcurrentPrograms

variable {ι χ σ Op : Type} {Ans : Op → Type} {ε α : Type}

/-- A program performs its next effect, or the surroundings move. -/
inductive OpenSteps [DecidableEq ι] (exec : Semantics ι χ σ Ans) (moves : σ → σ → Prop) :
    Pool ι Ans ε α σ → Pool ι Ans ε α σ → Prop where
  | refl (q) : OpenSteps exec moves q q
  | effect {p q r} (run : OpenSteps exec moves p q) (i : ι) (c : χ)
      (step : q.step exec i c = some r) : OpenSteps exec moves p r
  | move {p q} (run : OpenSteps exec moves p q) {s : σ} (moved : moves q.shared s) :
      OpenSteps exec moves p ⟨s, q.threads⟩

variable [DecidableEq ι] {exec : Semantics ι χ σ Ans} {moves : σ → σ → Prop}
  {p q r : Pool ι Ans ε α σ}

theorem OpenSteps.trans (h : OpenSteps exec moves p q) (h' : OpenSteps exec moves q r) :
    OpenSteps exec moves p r := by
  induction h' with
  | refl => exact h
  | effect _ i c step ih => exact .effect ih i c step
  | move _ moved ih => exact .move ih moved

/-- A run without moves. -/
theorem OpenSteps.of_steps (h : Steps exec Anything p q) :
    OpenSteps exec moves p q := by
  induction h with
  | refl => exact .refl _
  | tail _ i c _ step ih => exact .effect ih i c step

/-- What every effect and every move implies holds, if it is a preorder, between the ends. -/
theorem OpenSteps.along {R : σ → σ → Prop} (hrefl : ∀ s, R s s)
    (htrans : ∀ {s t u}, R s t → R t u → R s u)
    (heffect : ∀ {i c op s a t}, exec i c op s = some (a, t) → R s t)
    (hmove : ∀ {s t}, moves s t → R s t) (run : OpenSteps exec moves p q) :
    R p.shared q.shared := by
  induction run with
  | refl => exact hrefl _
  | effect _ i c step ih =>
    obtain ⟨op, next, a, s, -, heq, rfl⟩ := Pool.step_eq_some step
    exact htrans ih (heffect heq)
  | move _ moved ih => exact htrans ih (hmove moved)

/-- The moves keep the invariant, and every program may assume them. -/
structure Tolerates (P : Protocol ι σ) (moves : σ → σ → Prop) : Prop where
  inv : ∀ {s t}, P.inv s → moves s t → P.inv t
  rely : ∀ i {s t}, P.inv s → moves s t → P.rely i s t

section Safe

variable {P : Protocol ι σ} {Q : ι → Except ε α → σ → Prop}

theorem OpenSteps.safe (run : OpenSteps exec moves p q) (htolerates : Tolerates P moves)
    (hinv : P.inv p.shared)
    (hp : ∀ i, Safe exec Anything P i (Q i) (p.threads i) p.shared) :
    P.inv q.shared ∧ ∀ i, Safe exec Anything P i (Q i) (q.threads i) q.shared := by
  induction run with
  | refl => exact ⟨hinv, hp⟩
  | @effect q _ _ i c step ih =>
    have hpermitted : q.Permits Anything i := by
      unfold Pool.Permits
      split <;> trivial
    exact (Steps.tail (.refl q) i c hpermitted step).safe ih.1 ih.2
  | move _ moved ih =>
    exact ⟨htolerates.inv ih.1 moved, fun i => (ih.2 i).rely (htolerates.rely i ih.1 moved)⟩

/-- A finished program meets its postcondition in every later state. -/
theorem OpenSteps.post (run : OpenSteps exec moves p q) (htolerates : Tolerates P moves)
    (hinv : P.inv p.shared)
    (hp : ∀ i, Safe exec Anything P i (Q i) (p.threads i) p.shared) {i : ι} {r : Except ε α}
    (hr : q.result i = some r) : Q i r q.shared := by
  obtain ⟨hq, hsafe⟩ := run.safe htolerates hinv hp
  have hi := hsafe i
  rw [Pool.result_eq_some.mp hr] at hi
  exact hi q.shared (P.rely_refl i _) hq

end Safe

end ChatMicroservices.OpenPools
