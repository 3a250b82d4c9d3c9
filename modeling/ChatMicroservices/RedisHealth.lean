import ChatMicroservices.RedisService
import Mathlib.Data.List.Induction

/-!
# The health of the Redis clients

The listeners that keep `healthy` up to date are attached when `createRedisContext` returns, and
`healthy` is set to `true` then. From a state in which all three clients are ready, what
`isHealthy` and the gauge report stays true; a client that closed in the meantime is missed.
-/

namespace ChatMicroservices.RedisHealth
open RedisService
open Promises (Promise)

def AllReady (s : State) : Prop := ∀ role, s.status role = .ready

instance (s : State) : Decidable (AllReady s) := inferInstanceAs (Decidable (∀ _, _))

/-- `isHealthy` and the gauge say whether all clients are ready. -/
structure Truthful (s : State) : Prop where
  healthy : s.isHealthy = true ↔ AllReady s
  gauge : s.redisConnectedGauge = 1 ↔ s.isHealthy = true

instance (s : State) : Decidable (Truthful s) :=
  decidable_of_iff ((s.isHealthy = true ↔ AllReady s) ∧
    (s.redisConnectedGauge = 1 ↔ s.isHealthy = true)) ⟨fun h => ⟨h.1, h.2⟩, fun h => ⟨h.1, h.2⟩⟩

def Returned (s : State) : Prop := s.context = .fulfilled ()

/-- `createRedisContext` returns when it goes on from here. -/
def Returns (s : State) : Prop := s.context = .pending ∧ ∃ values, s.allReady = .fulfilled values

theorem allReady_iff (s : State) : AllReady s ↔
    s.status .pub = .ready ∧ s.status .sub = .ready ∧ s.status .presence = .ready := by
  constructor
  · intro h
    exact ⟨h .pub, h .sub, h .presence⟩
  · rintro ⟨hpub, hsub, hpresence⟩ role
    cases role
    · exact hpub
    · exact hsub
    · exact hpresence

section Step

variable {s : State}

theorem ifReturned_of_returned (h : Returned s) (listener : State → State) :
    State.ifReturned listener s = listener s := by
  unfold State.ifReturned
  split
  · rfl
  · rename_i hnot
    exact absurd h hnot

/-- A client that becomes ready leaves the others as they are. -/
theorem Truthful.ready (h : Truthful s) (role : Role)
    (waiting : Role → Waiting) : Truthful
      ({ s with status := Function.update s.status role .ready, waiting := waiting } :
        State).onReady := by
  have hhealthy : ({ s with status := Function.update s.status role .ready, waiting := waiting } :
      State).onReady.isHealthy = true ↔
      AllReady { s with status := Function.update s.status role .ready, waiting := waiting } := by
    rw [allReady_iff]
    simp only [State.onReady, State.isHealthy, decide_eq_true_eq]
  refine ⟨hhealthy, ?_⟩
  rw [hhealthy, allReady_iff]
  simp only [State.onReady]
  split
  · rename_i hall
    exact iff_of_true rfl hall
  · rename_i hall
    -- Not all clients were ready before either, so the gauge was not 1.
    refine iff_of_false (fun hgauge => hall ?_) hall
    have hbefore : AllReady s := h.healthy.mp (h.gauge.mp hgauge)
    simp [Function.update_apply, hbefore _]

theorem Truthful.close (role : Role) : Truthful
    ({ s with status := Function.update s.status role .close } : State).onClose := by
  refine ⟨iff_of_false Bool.false_ne_true fun hall => ?_, ?_⟩
  · have hrole := hall role
    simp [State.onClose] at hrole
  · exact iff_of_false (by simp [State.onClose]) Bool.false_ne_true

theorem resume_of_returned (h : Returned s) : s.resume = s := by
  unfold State.resume
  split
  · rename_i hpending _
    cases h.symm.trans hpending
  · rename_i hpending _
    cases h.symm.trans hpending
  · rfl

theorem resume_of_returns (h : Returns s) : s.resume =
    { s with context := .fulfilled (), healthy := true, redisConnectedGauge := 1 } := by
  obtain ⟨hpending, values, hall⟩ := h
  simp only [State.resume, hpending, hall]

/-- After the return, what is reported stays true. -/
theorem Truthful.step (h : Truthful s) (hreturned : Returned s) (event : Event) :
    Truthful (s.step event) := by
  cases event with
  | ready role =>
    have hlistener := ifReturned_of_returned (s := { s with
      status := Function.update s.status role .ready
      waiting := Function.update s.waiting role (s.waiting role).onReady }) hreturned
    rw [State.step, hlistener]
    exact h.ready role _
  | close role =>
    have hlistener := ifReturned_of_returned (s := { s with
      status := Function.update s.status role .close }) hreturned
    rw [State.step, hlistener]
    exact Truthful.close role
  | error role => exact ⟨h.healthy, h.gauge⟩
  | elapse => exact ⟨h.healthy, h.gauge⟩
  | resume =>
    rw [State.step, resume_of_returned hreturned]
    exact h

/-- `createRedisContext` has returned before, or returns now. -/
theorem returned_step {event : Event} (h : Returned (s.step event)) :
    Returned s ∨ Returns s ∧ event = .resume := by
  have hsame : (s.step event).context = s.context → Returned s := fun hcontext =>
    hcontext.symm.trans h
  cases event with
  | ready role => exact .inl (hsame (State.ifReturned_context State.onReady_context _))
  | close role => exact .inl (hsame (State.ifReturned_context State.onClose_context _))
  | error role => exact .inl (hsame rfl)
  | elapse => exact .inl (hsame rfl)
  | resume =>
    simp only [State.step, State.resume] at h
    split at h
    · rename_i values hpending hall
      exact .inr ⟨⟨hpending, values, hall⟩, rfl⟩
    · cases h
    · exact .inl h

end Step

/-- All clients are ready at the moment at which `createRedisContext` returns. -/
def ReadyAtReturn (events : List Event) : Prop :=
  ∀ before, before ++ [.resume] <+: events → Returns (stateAfter before) →
    AllReady (stateAfter before)

theorem truthful_of_readyAtReturn {events : List Event} (h : ReadyAtReturn events)
    (hreturned : Returned (stateAfter events)) : Truthful (stateAfter events) := by
  induction events using List.reverseRecOn with
  | nil => cases hreturned
  | append_singleton events event ih =>
    have hearlier : ReadyAtReturn events := fun before hbefore =>
      h before (hbefore.trans (List.prefix_append _ _))
    rw [stateAfter_append_singleton] at hreturned ⊢
    rcases returned_step hreturned with hreturned | ⟨hreturns, rfl⟩
    · exact (ih hearlier hreturned).step hreturned event
    · have hall := h events (List.prefix_refl _) hreturns
      rw [State.step, resume_of_returns hreturns]
      exact ⟨iff_of_true rfl hall, iff_of_true rfl rfl⟩

/-- In every state after the return, health and gauge are truthful, exactly if all clients are
ready at the return. -/
theorem truthful_iff (events : List Event) :
    (∀ before, before <+: events → Returned (stateAfter before) → Truthful (stateAfter before)) ↔
      ReadyAtReturn events := by
  constructor
  · intro h before hbefore hreturns
    have hafter : stateAfter (before ++ [.resume]) =
        { stateAfter before with
          context := .fulfilled (), healthy := true, redisConnectedGauge := 1 } := by
      rw [stateAfter_append_singleton, State.step, resume_of_returns hreturns]
    have htruthful := h _ hbefore (by rw [hafter]; rfl)
    rw [hafter] at htruthful
    exact htruthful.healthy.mp rfl
  · intro h before hbefore
    exact truthful_of_readyAtReturn fun earlier hearlier =>
      h earlier (hearlier.trans hbefore)

/-- A client closes while `createRedisContext` waits for the others. -/
def closedEarly : List Event :=
  [.ready .pub, .close .pub, .ready .sub, .ready .presence, .resume]

theorem closedEarly_healthy :
    Returned (stateAfter closedEarly) ∧ (stateAfter closedEarly).isHealthy = true ∧
      (stateAfter closedEarly).status .pub = .close ∧ ¬ Truthful (stateAfter closedEarly) :=
  ⟨rfl, rfl, rfl, by decide⟩

end ChatMicroservices.RedisHealth
